import Highlighter.Pattern.Basic
import Mathlib.Tactic

set_option autoImplicit false

namespace Highlighter.Regex

open Text

variable {text : List Char}

structure Match.Within (found : Match) (limit : Nat) : Prop where
  ordered : found.whole.start ≤ found.whole.stop
  stop_le : found.whole.stop ≤ limit
  groups : ∀ region, some region ∈ found.groups → region.start ≤ limit ∧ region.stop ≤ limit

theorem Match.Within.mono {found : Match} {limit more : Nat} (within : found.Within limit)
    (le : limit ≤ more) : found.Within more where
  ordered := within.ordered
  stop_le := within.stop_le.trans le
  groups := fun region member =>
    ⟨(within.groups region member).1.trans le, (within.groups region member).2.trans le⟩

theorem region_within (opened closed : List (Option (Cursor text))) (region : Region)
    (member : some region ∈ List.zipWith State.region opened closed) :
    region.start ≤ byteLength text ∧ region.stop ≤ byteLength text := by
  rw [List.zipWith_eq_zipWith_take_min, List.mem_iff_getElem] at member
  obtain ⟨index, inside, here⟩ := member
  simp only [List.getElem_zipWith] at here
  unfold State.region at here
  split at here
  · obtain rfl := Option.some.inj here
    exact ⟨Cursor.offset_le _, Cursor.offset_le _⟩
  · exact absurd here (by simp)

theorem found_within (start : Cursor text) (state : State text) :
    (State.found start state).Within (byteLength text) where
  ordered := Nat.min_le_right _ _
  stop_le := state.cursor.offset_le
  groups := region_within state.opened state.closed

theorem firstMatch_some (attempt : Cursor text → Option Match) (cursor : Cursor text)
    (found : Match) (searched : firstMatch? attempt cursor = some found) :
    ∃ place : Cursor text, cursor.offset ≤ place.offset ∧ attempt place = some found := by
  fun_induction firstMatch? attempt cursor with
  | case1 cursor found here =>
    obtain rfl := Option.some.inj searched
    exact ⟨cursor, le_rfl, here⟩
  | case2 cursor missed c next step ih =>
    obtain ⟨place, later, here⟩ := ih searched
    have moved := Cursor.offset_of_next? step
    exact ⟨place, by omega, here⟩
  | case3 => exact absurd searched (by simp)

theorem matchAt_some (regex : Regex) (groups depth : Nat) (origin cursor : Cursor text)
    (found : Match) (matched : regex.matchAt? groups depth origin cursor = some found) :
    ∃ state, run regex origin depth regex.expr some (State.start groups cursor) = some state ∧
      State.found cursor state = found := by
  simpa only [matchAt?, Option.map_eq_some_iff] using matched

theorem search_within (regex : Regex) (origin : Cursor text) (found : Match)
    (searched : regex.search? origin = some found) : found.Within (byteLength text) := by
  obtain ⟨place, _, here⟩ := firstMatch_some _ origin found searched
  obtain ⟨state, _, rfl⟩ := matchAt_some regex _ _ origin place found here
  exact found_within place state

def Expr.keeps : Expr → Bool
  | .keep => true
  | .seq a b | .alt a b => keeps a || keeps b
  | .many body _ _ _ | .group _ body | .ahead _ body | .behind _ body | .atomic body => keeps body
  | _ => false

def State.LeadsTo (state next : State text) : Prop :=
  state.cursor.offset ≤ next.cursor.offset ∧ next.kept = state.kept

theorem State.LeadsTo.refl (state : State text) : state.LeadsTo state := ⟨le_rfl, rfl⟩

theorem State.LeadsTo.trans {a b c : State text} (first : a.LeadsTo b) (second : b.LeadsTo c) :
    a.LeadsTo c :=
  ⟨first.1.trans second.1, second.2.trans first.2⟩

theorem State.LeadsTo.goTo {state : State text} {cursor : Cursor text}
    (later : state.cursor.offset ≤ cursor.offset) : state.LeadsTo (state.goTo cursor) :=
  ⟨later, rfl⟩

def Onward (run : Run text) : Prop :=
  ∀ accept state final, run accept state = some final →
    ∃ next, state.LeadsTo next ∧ accept next = some final

theorem afterText_later (cs : List Char) (cursor next : Cursor text)
    (read : afterText? cs cursor = some next) : cursor.offset ≤ next.offset := by
  induction cs generalizing cursor with
  | nil =>
    obtain rfl := Option.some.inj read
    exact le_rfl
  | cons c rest ih =>
    simp only [afterText?] at read
    split at read
    · rename_i d place step
      split at read
      · have moved := Cursor.offset_of_next? step
        have := ih place read
        omega
      · exact absurd read (by simp)
    · exact absurd read (by simp)

theorem afterFolded_later (letters : List Char) (cursor next : Cursor text)
    (read : afterFolded? letters cursor = some next) : cursor.offset ≤ next.offset := by
  fun_induction afterFolded? letters cursor with
  | case1 letters cursor =>
    obtain rfl := Option.some.inj read
    exact le_rfl
  | case2 letters cursor more c place step rest lead ih =>
    have moved := Cursor.offset_of_next? step
    have := ih read
    omega
  | case3 => exact absurd read (by simp)
  | case4 => exact absurd read (by simp)

theorem afterSet_later (set : CharSet) (cursor next : Cursor text)
    (read : afterSet? set cursor = some next) : cursor.offset ≤ next.offset := by
  simp only [afterSet?] at read
  split at read
  · rename_i c place step
    split at read
    · obtain rfl := Option.some.inj read
      have moved := Cursor.offset_of_next? step
      omega
    · exact absurd read (by simp)
  · exact absurd read (by simp)

theorem afterSets_later (set : CharSet) (count : Nat) (cursor next : Cursor text)
    (read : afterSets? set count cursor = some next) : cursor.offset ≤ next.offset := by
  induction count generalizing cursor with
  | zero =>
    obtain rfl := Option.some.inj read
    exact le_rfl
  | succ count ih =>
    simp only [afterSets?] at read
    split at read
    · rename_i place first
      exact (afterSet_later set cursor place first).trans (ih place read)
    · exact absurd read (by simp)

theorem reach_later (set : CharSet) (limit : Option Nat) (passed : List (Cursor text))
    (cursor place : Cursor text) (member : place ∈ reach set limit passed cursor) :
    place ∈ passed ∨ cursor.offset ≤ place.offset := by
  fun_induction reach set limit passed cursor with
  | case1 passed cursor =>
    rcases List.mem_cons.mp member with rfl | old
    · exact .inr le_rfl
    · exact .inl old
  | case2 limit passed cursor more c next step inside ih =>
    have moved := Cursor.offset_of_next? step
    rcases ih member with old | later
    · rcases List.mem_cons.mp old with rfl | old
      · exact .inr le_rfl
      · exact .inl old
    · exact .inr (by omega)
  | case3 limit passed cursor =>
    rcases List.mem_cons.mp member with rfl | old
    · exact .inr le_rfl
    · exact .inl old
  | case4 limit passed cursor =>
    rcases List.mem_cons.mp member with rfl | old
    · exact .inr le_rfl
    · exact .inl old

theorem nearest_some (set : CharSet) (limit : Option Nat)
    (accept : Cursor text → Option (State text)) (cursor : Cursor text) (final : State text)
    (read : nearest set limit accept cursor = some final) :
    ∃ place, cursor.offset ≤ place.offset ∧ accept place = some final := by
  fun_induction nearest set limit accept cursor with
  | case1 limit cursor state here =>
    obtain rfl := Option.some.inj read
    exact ⟨cursor, le_rfl, here⟩
  | case2 => exact absurd read (by simp)
  | case3 limit cursor missed more c next step inside ih =>
    obtain ⟨place, later, here⟩ := ih read
    have moved := Cursor.offset_of_next? step
    exact ⟨place, by omega, here⟩
  | case4 => exact absurd read (by simp)
  | case5 => exact absurd read (by simp)

theorem times_onward (body : Run text) (onward : Onward body) (count : Nat) :
    Onward (times body count) := by
  induction count with
  | zero => exact fun accept state final read => ⟨state, .refl state, read⟩
  | succ count ih =>
    intro accept state final read
    obtain ⟨next, first, rest⟩ := onward _ state final read
    obtain ⟨last, second, here⟩ := ih accept next final rest
    exact ⟨last, first.trans second, here⟩

theorem greedy_onward (body : Run text) (onward : Onward body)
    (accept : State text → Option (State text)) (limit : Option Nat) (state final : State text)
    (read : greedy body accept limit state = some final) :
    ∃ next, state.LeadsTo next ∧ accept next = some final := by
  induction size : byteLength text - state.cursor.offset using Nat.strong_induction_on
    generalizing limit state with
  | _ size ih =>
    unfold greedy at read
    split at read
    · exact ⟨state, .refl state, read⟩
    · dsimp only at read
      split at read
      · rename_i result here
        obtain rfl := Option.some.inj read
        obtain ⟨next, first, rest⟩ := onward _ state result here
        split at rest
        · rename_i moved
          have bound := next.cursor.offset_le
          obtain ⟨last, second, accepted⟩ :=
            ih (byteLength text - next.cursor.offset) (by omega) _ next rest rfl
          exact ⟨last, first.trans second, accepted⟩
        · exact ⟨next, first, rest⟩
      · exact ⟨state, .refl state, read⟩

theorem reluctant_onward (body : Run text) (onward : Onward body)
    (accept : State text → Option (State text)) (limit : Option Nat) (state final : State text)
    (read : reluctant body accept limit state = some final) :
    ∃ next, state.LeadsTo next ∧ accept next = some final := by
  induction size : byteLength text - state.cursor.offset using Nat.strong_induction_on
    generalizing limit state with
  | _ size ih =>
    unfold reluctant at read
    split at read
    · rename_i result here
      obtain rfl := Option.some.inj read
      exact ⟨state, .refl state, here⟩
    · split at read
      · exact absurd read (by simp)
      · obtain ⟨next, first, rest⟩ := onward _ state final read
        split at rest
        · rename_i moved
          have bound := next.cursor.offset_le
          obtain ⟨last, second, accepted⟩ :=
            ih (byteLength text - next.cursor.offset) (by omega) _ next rest rfl
          exact ⟨last, first.trans second, accepted⟩
        · exact ⟨next, first, rest⟩

theorem lookBehind_kept (body : Run text) (onward : Onward body) (state : State text) (least : Nat)
    (most : Option Nat) (cursor : Cursor text) (found : State text)
    (read : lookBehind body state least most cursor = some found) : found.kept = state.kept := by
  fun_induction lookBehind body state least most cursor with
  | case1 least most cursor ends result here =>
    obtain rfl := Option.some.inj read
    split at here
    · obtain ⟨next, lead, ended⟩ := onward _ _ _ here
      simp only [ends] at ended
      split at ended
      · obtain rfl := Option.some.inj ended
        exact lead.2
      · exact absurd ended (by simp)
    · exact absurd here (by simp)
  | case2 => exact absurd read (by simp)
  | case3 least most cursor ends missed more c previous step ih => exact ih read
  | case4 => exact absurd read (by simp)

section

variable (origin : Cursor text) (call : Callee → Run text)

theorem many_onward (body : Expr) (least : Nat) (most : Option Nat) (isGreedy : Bool)
    (onward : Onward (Expr.run origin call body)) :
    Onward (Expr.run origin call (.many body least most isGreedy)) := by
  intro accept state final read
  by_cases single : ∃ wanted, body = .set wanted
  · obtain ⟨wanted, rfl⟩ := single
    simp only [Expr.run] at read
    split at read
    · exact absurd read (by simp)
    · rename_i cursor repeated
      have first := afterSets_later _ _ _ _ repeated
      split at read
      · obtain ⟨place, member, here⟩ := List.exists_of_findSome?_eq_some read
        rcases reach_later _ _ _ _ place member with old | later
        · exact absurd old (by simp)
        · exact ⟨_, .goTo (first.trans later), here⟩
      · obtain ⟨place, later, here⟩ := nearest_some _ _ _ _ _ read
        exact ⟨_, .goTo (first.trans later), here⟩
  · have other (wanted : CharSet) : body = .set wanted → False := fun same => single ⟨wanted, same⟩
    rw [Expr.run.eq_def] at read
    simp only at read
    obtain ⟨next, first, rest⟩ := times_onward _ onward least _ state final read
    split at rest
    · obtain ⟨last, second, here⟩ := greedy_onward _ onward _ _ _ _ rest
      exact ⟨last, first.trans second, here⟩
    · obtain ⟨last, second, here⟩ := reluctant_onward _ onward _ _ _ _ rest
      exact ⟨last, first.trans second, here⟩

theorem expr_onward (expr : Expr) (fixed : expr.keeps = false)
    (calls : ∀ callee, callee ∈ expr.callees → Onward (call callee)) :
    Onward (Expr.run origin call expr) := by
  induction expr with
  | empty => exact fun accept state final read => ⟨state, .refl state, read⟩
  | set wanted =>
    intro accept state final read
    simp only [Expr.run] at read
    split at read
    · rename_i next step
      exact ⟨_, .goTo (afterSet_later _ _ _ step), read⟩
    · exact absurd read (by simp)
  | folded letters =>
    intro accept state final read
    simp only [Expr.run] at read
    split at read
    · rename_i next step
      exact ⟨_, .goTo (afterFolded_later _ _ _ step), read⟩
    · exact absurd read (by simp)
  | seq a b first second =>
    simp only [Expr.keeps, Bool.or_eq_false_iff] at fixed
    simp only [Expr.callees, List.mem_append] at calls
    -- What the first part is to be followed by is the second part.
    intro accept state final read
    obtain ⟨middle, before, rest⟩ :=
      first fixed.1 (fun callee member => calls callee (.inl member)) _ state final read
    obtain ⟨next, after, here⟩ :=
      second fixed.2 (fun callee member => calls callee (.inr member)) _ middle final rest
    exact ⟨next, before.trans after, here⟩
  | alt a b first second =>
    simp only [Expr.keeps, Bool.or_eq_false_iff] at fixed
    simp only [Expr.callees, List.mem_append] at calls
    intro accept state final read
    simp only [Expr.run] at read
    split at read
    · rename_i found here
      obtain rfl := Option.some.inj read
      exact first fixed.1 (fun callee member => calls callee (.inl member)) _ state found here
    · exact second fixed.2 (fun callee member => calls callee (.inr member)) _ state final read
  | many body least most isGreedy ih =>
    exact many_onward origin call body least most isGreedy (ih fixed calls)
  | group n body ih =>
    intro accept state final read
    obtain ⟨next, lead, here⟩ := ih fixed calls _ _ final read
    exact ⟨next.closeGroup n state.cursor, lead, here⟩
  | reference numbers anyCase =>
    intro accept state final read
    simp only [Expr.run] at read
    split at read
    · rename_i next captured
      obtain ⟨n, _, here⟩ := List.exists_of_findSome?_eq_some captured
      simp only [afterCapture?] at here
      split at here
      · exact absurd here (by simp)
      · split at here
        · exact ⟨_, .goTo (afterFolded_later _ _ _ here), read⟩
        · exact ⟨_, .goTo (afterText_later _ _ _ here), read⟩
    · exact absurd read (by simp)
  | call callee => exact calls callee (by simp [Expr.callees])
  | ahead negated body ih =>
    intro accept state final read
    simp only [Expr.run] at read
    split at read
    · rename_i found here
      obtain ⟨next, lead, accepted⟩ := ih fixed calls _ state found here
      obtain rfl := Option.some.inj accepted
      exact ⟨next.goTo state.cursor, ⟨le_rfl, lead.2⟩, read⟩
    · exact ⟨state, .refl state, read⟩
    · exact absurd read (by simp)
  | behind negated body ih =>
    intro accept state final read
    simp only [Expr.run] at read
    split at read
    · rename_i found here
      have kept := lookBehind_kept _ (ih fixed calls) _ _ _ _ found here
      exact ⟨found.goTo state.cursor, ⟨le_rfl, kept⟩, read⟩
    · exact ⟨state, .refl state, read⟩
    · exact absurd read (by simp)
  | atomic body ih =>
    intro accept state final read
    simp only [Expr.run] at read
    split at read
    · rename_i found here
      obtain ⟨next, lead, accepted⟩ := ih fixed calls _ state found here
      obtain rfl := Option.some.inj accepted
      exact ⟨_, lead, read⟩
    · exact absurd read (by simp)
  | anchor place =>
    intro accept state final read
    simp only [Expr.run] at read
    split at read
    · exact ⟨state, .refl state, read⟩
    · exact absurd read (by simp)
  | keep => exact absurd fixed (by simp [Expr.keeps])

end

theorem groups_keeps (expr body : Expr) (n : Nat) (member : (n, body) ∈ expr.groups)
    (fixed : expr.keeps = false) : body.keeps = false := by
  induction expr with
  | seq a b first second | alt a b first second =>
    simp only [Expr.keeps, Bool.or_eq_false_iff] at fixed
    rcases List.mem_append.mp member with inside | inside
    · exact first inside fixed.1
    · exact second inside fixed.2
  | group number inner ih =>
    rcases List.mem_cons.mp member with here | inside
    · obtain ⟨rfl, rfl⟩ := Prod.mk.inj here
      exact fixed
    · exact ih inside fixed
  | many inner least most isGreedy ih => exact ih member fixed
  | ahead negated inner ih | behind negated inner ih => exact ih member fixed
  | atomic inner ih => exact ih member fixed
  | _ => exact absurd member (by simp [Expr.groups])

theorem called_keeps (regex : Regex) (fixed : regex.expr.keeps = false) (callee : Callee)
    (n : Nat) (body : Expr) (called : regex.called? callee = some (n, body)) :
    body.keeps = false := by
  have numbered (index : Nat) (found : (regex.expr.groups.lookup index).map (index, ·) =
      some (n, body)) : body.keeps = false := by
    simp only [Option.map_eq_some_iff, Prod.mk.injEq] at found
    obtain ⟨inner, found, rfl, rfl⟩ := found
    obtain ⟨before, after, whole, _⟩ := List.lookup_eq_some_iff.mp found
    exact groups_keeps regex.expr inner index (by simp [whole]) fixed
  unfold called? at called
  split at called
  · obtain ⟨-, rfl⟩ := Prod.mk.inj (Option.some.inj called)
    exact fixed
  · exact numbered _ called
  · split at called
    · exact numbered _ called
    · exact absurd called (by simp)

theorem target_keeps (regex : Regex) (fixed : regex.expr.keeps = false) (callee : Callee)
    (body : Expr) (target : regex.target? callee = some body) : body.keeps = false := by
  simp only [target?, Option.map_eq_some_iff] at target
  obtain ⟨⟨n, inner⟩, called, rfl⟩ := target
  have inner_keeps := called_keeps regex fixed callee n inner called
  dsimp only
  split
  · exact inner_keeps
  · exact inner_keeps

theorem run_onward (regex : Regex) (fixed : regex.expr.keeps = false) (origin : Cursor text)
    (depth : Nat) (expr : Expr) (body : expr.keeps = false) :
    Onward (run regex origin depth expr) := by
  have dead : Onward (fun (_ : State text → Option (State text)) (_ : State text) => none) :=
    fun accept state final read => absurd read (by simp)
  induction depth generalizing expr with
  | zero => exact expr_onward origin _ expr body fun _ _ => dead
  | succ depth ih =>
    refine expr_onward origin _ expr body fun callee _ => ?_
    split
    · rename_i target found
      exact ih target (target_keeps regex fixed callee target found)
    · exact dead

theorem search_forward (regex : Regex) (fixed : regex.expr.keeps = false) (origin : Cursor text)
    (found : Match) (searched : regex.search? origin = some found) :
    origin.offset ≤ found.whole.start := by
  obtain ⟨place, later, here⟩ := firstMatch_some _ origin found searched
  obtain ⟨state, ran, rfl⟩ := matchAt_some regex _ _ origin place found here
  obtain ⟨next, ⟨ahead, kept⟩, last⟩ :=
    run_onward regex fixed origin _ regex.expr fixed some _ state ran
  obtain rfl := Option.some.inj last
  simp only [State.start] at ahead kept
  simp only [State.found, kept, Option.getD_none]
  omega

end Highlighter.Regex
