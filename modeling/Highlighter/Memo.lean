set_option autoImplicit false

namespace Highlighter

structure MemoEntry {κ α : Type} (f : κ → α) where
  key : κ
  value : α
  correct : value = f key

structure Memo {κ α : Type} (f : κ → α) where
  entries : List (MemoEntry f)

namespace Memo

variable {κ α : Type} [DecidableEq κ] {f : κ → α}

def empty (f : κ → α) : Memo f := ⟨[]⟩

def find? (key : κ) : List (MemoEntry f) → Option α
  | [] => none
  | entry :: rest => if entry.key = key then some entry.value else find? key rest

def get (memo : Memo f) (key : κ) : α × Memo f :=
  match find? key memo.entries with
  | some value => (value, memo)
  | none =>
    let value := f key
    (value, ⟨⟨key, value, rfl⟩ :: memo.entries⟩)

theorem eq_of_find? {key : κ} {value : α} {entries : List (MemoEntry f)}
    (found : find? key entries = some value) : value = f key := by
  induction entries with
  | nil => simp [find?] at found
  | cons entry rest ih =>
    simp only [find?] at found
    split at found
    · rename_i same
      obtain rfl := Option.some.inj found
      rw [entry.correct, same]
    · exact ih found

theorem get_value (memo : Memo f) (key : κ) : (memo.get key).1 = f key := by
  unfold get
  split
  · rename_i value found
    exact eq_of_find? found
  · rfl

end Memo

end Highlighter
