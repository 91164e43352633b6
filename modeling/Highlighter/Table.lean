set_option autoImplicit false

namespace Highlighter

abbrev Table (α : Type) := List (String × α)

namespace Table

variable {α : Type}

def insert (key : String) (value : α) : Table α → Table α
  | [] => [(key, value)]
  | (other, old) :: rest =>
    if key = other then (key, value) :: rest
    else if key < other then (key, value) :: (other, old) :: rest
    else (other, old) :: insert key value rest

def ofPairs (pairs : List (String × α)) : Table α :=
  pairs.foldl (fun table (key, value) => insert key value table) []

def get? (table : Table α) (key : String) : Option α := List.lookup key table

def erase (table : Table α) (key : String) : Table α := table.filter (·.1 != key)

def keys (table : Table α) : List String := table.map (·.1)

@[simp] theorem get?_nil (key : String) : get? ([] : Table α) key = none := rfl

theorem get?_cons (entry : String × α) (rest : Table α) (key : String) :
    get? (entry :: rest) key = if key = entry.1 then some entry.2 else get? rest key := by
  obtain ⟨name, value⟩ := entry
  simp only [get?, List.lookup_cons]
  split <;> simp_all

theorem mem_of_lookup {table : Table α} {key : String} {value : α}
    (found : List.lookup key table = some value) : (key, value) ∈ table := by
  obtain ⟨before, after, whole, -⟩ := List.lookup_eq_some_iff.mp found
  simp [whole]

theorem get?_insert (table : Table α) (key other : String) (value : α) :
    (table.insert key value).get? other = if other = key then some value else table.get? other := by
  induction table with
  | nil => simp [insert, get?_cons]
  | cons entry rest ih =>
    simp only [insert]
    split
    · rename_i same
      simp only [get?_cons, same]
      split <;> rfl
    · rename_i different
      split
      · simp only [get?_cons]
      · simp only [get?_cons, ih]
        split
        · rename_i here
          have elsewhere : other ≠ key := fun same => different (same.symm.trans here)
          rw [if_neg elsewhere]
        · rfl

theorem get?_erase (table : Table α) (key other : String) :
    (table.erase key).get? other = if other = key then none else table.get? other := by
  induction table with
  | nil => simp [erase]
  | cons entry rest ih =>
    simp only [erase] at ih
    by_cases same : entry.1 = key
    · simp only [erase, same, List.filter_cons, bne_self_eq_false, Bool.false_eq_true, if_false, ih,
        get?_cons]
      split <;> rfl
    · simp only [erase, List.filter_cons, bne_iff_ne.mpr same, if_true, get?_cons, ih]
      split
      · rename_i here
        have elsewhere : other ≠ key := fun equal => same (here.symm.trans equal)
        rw [if_neg elsewhere]
      · rfl

theorem get?_map {β : Type} (table : Table α) (f : α → β) (key : String) :
    get? (table.map fun (name, value) => (name, f value)) key = (table.get? key).map f := by
  induction table with
  | nil => rfl
  | cons entry rest ih =>
    simp only [List.map_cons, get?_cons, ih]
    split <;> rfl

end Table

end Highlighter
