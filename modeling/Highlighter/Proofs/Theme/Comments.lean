import Highlighter.Text.Cursor
import Highlighter.Theme.Stylesheet
import Mathlib.Tactic

set_option autoImplicit false

namespace Highlighter.Theme.Stylesheet

open Text (byteLength byteLength_append)

variable {text blanked front rest : List Char}

def opening : List Char := ['/', '*']

def closing : List Char := ['*', '/']

/-- A text beside the same text with blanks, as many as it has bytes, for each comment. A comment
goes from the first opening to the first closing behind it. -/
inductive Blanked : List Char → List Char → Prop where
  | plain {lead : List Char} (bare : ¬ opening <:+: lead) : Blanked lead lead
  | comment {lead inner rest blanked : List Char} (bare : ¬ opening <:+: lead)
      (closed : ¬ closing <:+: inner) (further : Blanked rest blanked) :
      Blanked (lead ++ (opening ++ inner ++ closing) ++ rest)
        (lead ++ List.replicate (byteLength (opening ++ inner ++ closing)) ' ' ++ blanked)

theorem byteLength_blanks (count : Nat) : byteLength (List.replicate count ' ') = count := by
  induction count with
  | zero => rfl
  | succ count ih =>
    rw [List.replicate_succ, byteLength, ih, Nat.add_comm]
    rfl

theorem Blanked.byteLength_eq (blanks : Blanked text blanked) :
    byteLength blanked = byteLength text := by
  induction blanks with
  | plain => rfl
  | comment _ _ _ ih => simp only [byteLength_append, byteLength_blanks, ih]

theorem exists_first {part cs : List Char} (some : part ≠ []) (within : part <:+: cs) :
    ∃ before after, cs = before ++ part ++ after ∧ ¬ part <:+: before := by
  induction cs with
  | nil => exact absurd (List.infix_nil.mp within) some
  | cons c rest ih =>
    by_cases here : part <+: c :: rest
    · obtain ⟨after, split⟩ := here
      exact ⟨[], after, split.symm, fun none => some (List.infix_nil.mp none)⟩
    · obtain ⟨before, after, rfl, bare⟩ := ih ((List.infix_cons_iff.mp within).resolve_left here)
      refine ⟨c :: before, after, rfl, fun within => ?_⟩
      refine (List.infix_cons_iff.mp within).elim (fun lead => here ?_) bare
      rw [List.append_assoc]
      exact lead.trans (List.prefix_append (c :: before) (part ++ after))

theorem comment?_cons {c : Char} (apart : ¬ closing <+: c :: rest) :
    comment? (c :: rest) = (comment? rest).map fun (blanks, after) =>
      (List.replicate c.utf8Size ' ' ++ blanks, after) := by
  rw [comment?]
  rintro after rfl rfl
  exact apart ⟨after, rfl⟩

theorem comment?_open (left : ¬ closing <:+: rest) : comment? rest = none := by
  induction rest with
  | nil => rfl
  | cons c rest ih =>
    obtain ⟨apart, left⟩ := not_or.mp (List.infix_cons_iff.not.mp left)
    rw [comment?_cons apart, ih left, Option.map_none]

theorem comment?_closed {inner : List Char} (closed : ¬ closing <:+: inner) :
    comment? (inner ++ closing ++ rest) =
      some (List.replicate (byteLength (inner ++ closing)) ' ', rest) := by
  induction inner with
  | nil => rfl
  | cons c inner ih =>
    obtain ⟨apart, closed⟩ := not_or.mp (List.infix_cons_iff.not.mp closed)
    have apart : ¬ closing <+: c :: (inner ++ closing ++ rest) := by
      cases inner with
      | nil => simp [closing]
      | cons d inner => simpa [closing] using apart
    rw [List.cons_append, List.cons_append, comment?_cons apart, ih closed, Option.map_some,
      byteLength, List.replicate_add]

theorem withoutComments_cons {c : Char} (offset : Nat) (apart : ¬ opening <+: c :: rest) :
    withoutComments offset (c :: rest) =
      (withoutComments (offset + c.utf8Size) rest).map (c :: ·) := by
  rw [withoutComments]
  rintro after rfl rfl
  exact apart ⟨after, rfl⟩

theorem withoutComments_open (offset : Nat) (left : ¬ closing <:+: rest) :
    withoutComments offset (opening ++ rest) = .error ⟨offset, .openComment⟩ := by
  rw [opening, List.cons_append, List.cons_append, List.nil_append, withoutComments]
  split
  · rfl
  · rename_i found
    rw [comment?_open left] at found
    cases found

theorem withoutComments_closed {inner : List Char} (offset : Nat) (closed : ¬ closing <:+: inner) :
    withoutComments offset (opening ++ inner ++ closing ++ rest) =
      (withoutComments (offset + byteLength (opening ++ inner ++ closing)) rest).map
        (List.replicate (byteLength (opening ++ inner ++ closing)) ' ' ++ ·) := by
  have blanks : byteLength (opening ++ inner ++ closing) = 2 + byteLength (inner ++ closing) := by
    rw [List.append_assoc, byteLength_append]
    rfl
  have split : opening ++ inner ++ closing ++ rest = '/' :: '*' :: (inner ++ closing ++ rest) := by
    simp [opening]
  rw [split, withoutComments]
  split
  · rename_i found
    rw [comment?_closed closed] at found
    cases found
  · rename_i found
    obtain ⟨rfl, rfl⟩ := Prod.mk.inj (Option.some.inj (found.symm.trans (comment?_closed closed)))
    rw [byteLength_blanks, blanks, List.replicate_add, Nat.add_assoc]
    rfl

theorem Except.map_map {ε α β γ : Type} (f : α → β) (g : β → γ) (value : Except ε α) :
    (value.map f).map g = value.map fun a => g (f a) := by
  cases value <;> rfl

theorem withoutComments_bare {lead : List Char} (offset : Nat) (bare : ¬ opening <:+: lead)
    (next : rest = [] ∨ opening <+: rest) : withoutComments offset (lead ++ rest) =
      (withoutComments (offset + byteLength lead) rest).map (lead ++ ·) := by
  induction lead generalizing offset with
  | nil => cases found : withoutComments offset rest <;> simp [byteLength, found, Except.map]
  | cons c lead ih =>
    obtain ⟨apart, bare⟩ := not_or.mp (List.infix_cons_iff.not.mp bare)
    have apart : ¬ opening <+: c :: (lead ++ rest) := by
      cases lead with
      | nil =>
        rcases next with rfl | ⟨after, rfl⟩
        · simp [opening]
        · simp [opening]
      | cons d lead => simpa [opening] using apart
    rw [List.cons_append, withoutComments_cons offset apart, ih _ bare, Except.map_map, byteLength,
      Nat.add_assoc]
    rfl

theorem Blanked.withoutComments (blanks : Blanked text blanked) (offset : Nat)
    (next : rest = [] ∨ opening <+: rest) :
    withoutComments offset (text ++ rest) =
      (withoutComments (offset + byteLength text) rest).map (blanked ++ ·) := by
  induction blanks generalizing offset with
  | plain bare => exact withoutComments_bare offset bare next
  | @comment lead inner tail blanked bare closed _ ih =>
    have start : opening <+: opening ++ inner ++ closing ++ (tail ++ rest) := by simp [opening]
    have split : lead ++ (opening ++ inner ++ closing) ++ tail ++ rest =
        lead ++ (opening ++ inner ++ closing ++ (tail ++ rest)) := by
      simp only [List.append_assoc]
    rw [split, withoutComments_bare offset bare (.inr start), withoutComments_closed _ closed, ih]
    simp only [Except.map_map, byteLength_append, List.append_assoc, Nat.add_assoc]

theorem blanked_or_open (text : List Char) : (∃ blanked, Blanked text blanked) ∨
    ∃ before blanked inner, text = before ++ opening ++ inner ∧ Blanked before blanked ∧
      ¬ closing <:+: inner := by
  induction length : text.length using Nat.strong_induction_on generalizing text with
  | _ length ih =>
    subst length
    by_cases opened : opening <:+: text
    · obtain ⟨lead, tail, rfl, bare⟩ := exists_first (by simp [opening]) opened
      by_cases closes : closing <:+: tail
      · obtain ⟨inner, rest, rfl, closed⟩ := exists_first (by simp [closing]) closes
        have shorter : rest.length < (lead ++ opening ++ (inner ++ closing ++ rest)).length := by
          simp [opening]
          omega
        rcases ih _ shorter rest rfl with ⟨blanked, blanks⟩ | ⟨before, blanked, last, rfl, blanks, left⟩
        · have whole := Blanked.comment bare closed blanks
          exact .inl ⟨_, by simpa only [List.append_assoc] using whole⟩
        · have whole := Blanked.comment bare closed blanks
          exact .inr ⟨_, _, last, by simp only [List.append_assoc], whole, left⟩
      · exact .inr ⟨lead, lead, tail, rfl, .plain bare, closes⟩
    · exact .inl ⟨text, .plain opened⟩

theorem withoutComments_eq_ok_iff (offset : Nat) :
    withoutComments offset text = .ok blanked ↔ Blanked text blanked := by
  have value {text blanked : List Char} (blanks : Blanked text blanked) :
      withoutComments offset text = .ok blanked := by
    have done := blanks.withoutComments offset (.inl (Eq.refl ([] : List Char)))
    rwa [List.append_nil, withoutComments, Except.map, List.append_nil] at done
  refine ⟨fun found => ?_, value⟩
  rcases blanked_or_open text with ⟨other, blanks⟩ | ⟨before, other, inner, rfl, blanks, left⟩
  · obtain rfl := Except.ok.inj (found.symm.trans (value blanks))
    exact blanks
  · rw [List.append_assoc, blanks.withoutComments offset (.inr (List.prefix_append _ _)),
      withoutComments_open _ left] at found
    cases found

theorem withoutComments_eq_error_iff (offset : Nat) (error : Error) :
    withoutComments offset text = .error error ↔ ∃ before blanked inner,
      text = before ++ opening ++ inner ∧ Blanked before blanked ∧ ¬ closing <:+: inner ∧
        error = ⟨offset + byteLength before, .openComment⟩ := by
  have value {before blanked inner : List Char} (blanks : Blanked before blanked)
      (left : ¬ closing <:+: inner) : withoutComments offset (before ++ opening ++ inner) =
        .error ⟨offset + byteLength before, .openComment⟩ := by
    rw [List.append_assoc, blanks.withoutComments offset (.inr (List.prefix_append _ _)),
      withoutComments_open _ left]
    rfl
  constructor
  · intro found
    rcases blanked_or_open text with ⟨other, blanks⟩ | ⟨before, other, inner, rfl, blanks, left⟩
    · exact nomatch found.symm.trans ((withoutComments_eq_ok_iff offset).mpr blanks)
    · exact ⟨before, other, inner, rfl, blanks, left,
        Except.error.inj (found.symm.trans (value blanks left))⟩
  · rintro ⟨before, other, inner, rfl, blanks, left, rfl⟩
    exact value blanks left

theorem before_or_behind_blanks {lead blanked front back : List Char} {count : Nat} {c : Char}
    (solid : c ≠ ' ') (same : lead ++ List.replicate count ' ' ++ blanked = front ++ c :: back) :
    (∃ more, lead = front ++ c :: more ∧ back = more ++ List.replicate count ' ' ++ blanked) ∨
      ∃ more, front = lead ++ List.replicate count ' ' ++ more ∧ blanked = more ++ c :: back := by
  have absent : c ∉ List.replicate count ' ' := fun member => solid (List.eq_of_mem_replicate member)
  rcases List.append_eq_append_iff.mp same with ⟨more, rfl, rfl⟩ | ⟨later, split, behind⟩
  · exact .inr ⟨more, rfl, rfl⟩
  · cases later with
    | nil => exact .inr ⟨[], by simpa using split.symm, behind.symm⟩
    | cons d later =>
      obtain ⟨rfl, rest⟩ := List.cons.inj behind
      rcases List.append_eq_append_iff.mp split with ⟨more, -, blanks⟩ | ⟨more, rfl, blanks⟩
      · exact absurd (blanks ▸ List.mem_append_right more List.mem_cons_self) absent
      · cases more with
        | nil =>
          rw [List.nil_append] at blanks
          exact absurd (blanks ▸ List.mem_cons_self) absent
        | cons e more =>
          obtain ⟨rfl, rfl⟩ := List.cons.inj blanks
          exact .inl ⟨more, rfl, rest⟩

theorem Blanked.split {front back : List Char} {c : Char} (blanks : Blanked text (front ++ c :: back))
    (solid : c ≠ ' ') : ∃ before after, text = before ++ c :: after ∧ Blanked before front ∧
      Blanked (c :: after) (c :: back) := by
  generalize whole : front ++ c :: back = blanked at blanks
  induction blanks generalizing front with
  | @plain lead bare =>
    subst whole
    exact ⟨front, back, rfl, .plain fun within => bare (within.trans (List.infix_append [] _ _)),
      .plain fun within => bare (within.trans (List.suffix_append _ _).isInfix)⟩
  | @comment lead inner rest blanked bare closed further ih =>
    rcases before_or_behind_blanks solid whole.symm with ⟨more, rfl, rfl⟩ | ⟨more, rfl, same⟩
    · refine ⟨front, more ++ (opening ++ inner ++ closing) ++ rest, by simp, .plain fun within => ?_, ?_⟩
      · exact bare (within.trans (List.prefix_append _ _).isInfix)
      · have bare : ¬ opening <:+: c :: more := fun within =>
          bare (within.trans (List.suffix_append _ _).isInfix)
        exact .comment bare closed further
    · obtain ⟨before, after, rfl, lead, tail⟩ := ih same.symm
      exact ⟨_, after, by simp only [List.append_assoc], .comment bare closed lead, tail⟩

theorem bare_append {a b : List Char} (first : ¬ opening <:+: a) (second : ¬ opening <:+: b)
    (apart : a.getLast? ≠ some '/' ∨ b.head? ≠ some '*') : ¬ opening <:+: a ++ b := by
  induction a with
  | nil => exact second
  | cons c a ih =>
    obtain ⟨here, further⟩ := not_or.mp (List.infix_cons_iff.not.mp first)
    refine List.infix_cons_iff.not.mpr (not_or.mpr ?_)
    cases a with
    | nil =>
      refine ⟨fun lead => ?_, second⟩
      obtain ⟨rfl, after⟩ := List.cons_prefix_cons.mp lead
      obtain ⟨rest, rfl⟩ := after
      simp at apart
    | cons d a =>
      rw [List.getLast?_cons_cons] at apart
      exact ⟨by simpa [opening] using here, ih further apart⟩

theorem Blanked.append {a a' b b' : List Char} (first : Blanked a a') (second : Blanked b b')
    (apart : a'.getLast? ≠ some '/' ∨ b.head? ≠ some '*') : Blanked (a ++ b) (a' ++ b') := by
  induction first with
  | @plain lead bare =>
    cases second with
    | plain bare' => exact .plain (bare_append bare bare' apart)
    | @comment lead' inner rest blanked bare' closed further =>
      have apart : lead.getLast? ≠ some '/' ∨ lead'.head? ≠ some '*' := by
        refine apart.imp_right fun next head => next ?_
        simp [head]
      have whole := Blanked.comment (bare_append bare bare' apart) closed further
      simpa only [List.append_assoc] using whole
  | @comment lead inner rest blanked bare closed _ ih =>
    have apart : blanked.getLast? ≠ some '/' ∨ b.head? ≠ some '*' := by
      refine apart.imp_left fun last slash => last ?_
      rw [List.getLast?_append, slash, Option.some_or]
    have whole := Blanked.comment bare closed (ih apart)
    simpa only [List.append_assoc] using whole

end Highlighter.Theme.Stylesheet
