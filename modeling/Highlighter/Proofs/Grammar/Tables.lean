import Highlighter.Grammar.Validation
import Highlighter.Proofs.Grammar.Resolution

set_option autoImplicit false

namespace Highlighter

namespace Text

theorem readIndex?_le {cs : List Char} {n : Nat} (read : readIndex? cs = some n) :
    n ≤ largestIndex := by
  simp only [readIndex?, readNumber?, Option.ite_none_left_eq_some, Option.ite_none_right_eq_some,
    Option.some.injEq] at read
  obtain ⟨-, small, rfl⟩ := read
  exact small

end Text

namespace RuleDecl

def Accepted (rule : RuleDecl) : Prop := ∃ path, rule.fault? path = none

theorem accepted_of_listFault? {path : String} {index : Nat} {rules : List RuleDecl}
    (sound : listFault? path index rules = none) : ∀ rule ∈ rules, rule.Accepted := by
  induction rules generalizing index with
  | nil => exact fun _ => nofun
  | cons rule rest ih =>
    rw [listFault?, Option.orElse_eq_none] at sound
    exact List.forall_mem_cons.mpr ⟨⟨_, sound.1⟩, ih sound.2⟩

theorem accepted_of_tableFault? {path : String} {rules : List (String × RuleDecl)}
    (sound : tableFault? path rules = none) : ∀ entry ∈ rules, entry.2.Accepted := by
  induction rules with
  | nil => exact fun _ => nofun
  | cons entry rest ih =>
    rw [tableFault?, Option.orElse_eq_none] at sound
    exact List.forall_mem_cons.mpr ⟨⟨_, sound.1⟩, ih sound.2⟩

theorem accepted_of_capturesFault? {path field : String} {rules : List (String × RuleDecl)}
    (sound : capturesFault? path field rules = none) :
    ∀ entry ∈ rules, isCaptureKey entry.1 = true ∧ entry.2.Accepted := by
  induction rules with
  | nil => exact fun _ => nofun
  | cons entry rest ih =>
    rw [capturesFault?] at sound
    split at sound
    · rename_i isKey
      rw [Option.orElse_eq_none] at sound
      exact List.forall_mem_cons.mpr ⟨⟨isKey, _, sound.1⟩, ih sound.2⟩
    · exact nomatch sound

theorem fault?_eq_none_iff (path : String) (rule : RuleDecl) : rule.fault? path = none ↔
    rule.ownFault? = none ∧ listFault? (path ++ ".patterns") 0 (rule.nested.getD []) = none ∧
      tableFault? (path ++ ".repository") (rule.repository.getD []) = none ∧
      capturesFault? path "captures" (rule.captures.getD []) = none ∧
      capturesFault? path "beginCaptures" (rule.openingCaptures.getD []) = none ∧
      capturesFault? path "endCaptures" (rule.closingCaptures.getD []) = none ∧
      capturesFault? path "whileCaptures" (rule.continuingCaptures.getD []) = none := by
  obtain ⟨_, _, _, _, all, _, opening, _, closing, _, continuing, nested, repository, _⟩ := rule
  rw [fault?.eq_def]
  simp only [Option.orElse_eq_none, Option.map_eq_none_iff]
  refine and_congr_right' (and_congr ?_ (and_congr ?_ (and_congr ?_ (and_congr ?_
    (and_congr ?_ ?_)))))
  · cases nested <;> simp [listFault?]
  · cases repository <;> simp [tableFault?]
  · cases all <;> simp [capturesFault?]
  · cases opening <;> simp [capturesFault?]
  · cases closing <;> simp [capturesFault?]
  · cases continuing <;> simp [capturesFault?]

theorem Accepted.parts {rule : RuleDecl} (accepted : rule.Accepted) :
    (∀ part ∈ rule.nested.getD [], part.Accepted) ∧
    (∀ entry ∈ rule.repository.getD [], entry.2.Accepted) ∧
    ∀ field, ∀ entry ∈ (rule.captured field).getD [],
      isCaptureKey entry.1 = true ∧ entry.2.Accepted := by
  obtain ⟨path, sound⟩ := accepted
  obtain ⟨-, listed, entries, every, first, last, lasting⟩ := (fault?_eq_none_iff path rule).mp sound
  refine ⟨accepted_of_listFault? listed, accepted_of_tableFault? entries, fun field => ?_⟩
  cases field with
  | all => exact accepted_of_capturesFault? every
  | opening => exact accepted_of_capturesFault? first
  | closing => exact accepted_of_capturesFault? last
  | continuing => exact accepted_of_capturesFault? lasting

end RuleDecl

theorem GrammarDecl.accepted_of_validate {grammar : GrammarDecl}
    (accepted : grammar.validate = .ok ()) :
    (∀ rule ∈ grammar.patterns, rule.Accepted) ∧
    (∀ entry ∈ grammar.repository, entry.2.Accepted) ∧
    ∀ entry ∈ grammar.injections, entry.2.Accepted := by
  have injected (table : List (String × RuleDecl)) (sound : injectionsFault? table = none) :
      ∀ entry ∈ table, entry.2.Accepted := by
    induction table with
    | nil => exact fun _ => nofun
    | cons entry rest ih =>
      rw [injectionsFault?, Option.orElse_eq_none] at sound
      exact List.forall_mem_cons.mpr ⟨⟨_, sound.1⟩, ih sound.2⟩
  unfold validate at accepted
  split at accepted
  · exact nomatch accepted
  · split at accepted
    · exact nomatch accepted
    · rename_i sound
      rw [Option.orElse_eq_none, Option.orElse_eq_none] at sound
      exact ⟨RuleDecl.accepted_of_listFault? sound.1, RuleDecl.accepted_of_tableFault? sound.2.1,
        injected _ sound.2.2⟩

theorem Library.Declares.accepted {library : Library} {rule : RuleDecl}
    (declared : library.Declares rule)
    (accepted : ∀ grammar ∈ library.decls, grammar.validate = .ok ()) : rule.Accepted := by
  induction declared with
  | pattern stored listed => exact (accepted _ stored |> GrammarDecl.accepted_of_validate).1 _ listed
  | entry stored listed =>
    exact (accepted _ stored |> GrammarDecl.accepted_of_validate).2.1 _ listed
  | injection stored listed =>
    exact (accepted _ stored |> GrammarDecl.accepted_of_validate).2.2 _ listed
  | nested _ listed ih => exact ih.parts.1 _ listed
  | inner _ listed ih => exact ih.parts.2.1 _ listed
  | group _ field listed ih => exact (ih.parts.2.2 field _ listed).2

namespace Compile

variable {table : List (String × RuleDecl)}

def indices (table : List (String × RuleDecl)) : List Nat :=
  table.filterMap fun entry => Text.readIndex? entry.1.toList

def extent (table : List (String × RuleDecl)) : Nat := (indices table).max?.elim 0 (· + 1)

def Fits (table : List (String × RuleDecl)) : Prop := ∀ n ∈ indices table, n < tableRoom

theorem lt_extent {n : Nat} (member : n ∈ indices table) : n < extent table := by
  obtain ⟨last, largest⟩ := Option.isSome_iff_exists.mp (List.isSome_max?_of_mem member)
  rw [extent, largest]
  exact Nat.lt_succ_of_le ((List.max?_eq_some_iff.mp largest).2 n member)

theorem indexed_perm (table : List (String × RuleDecl)) :
    ((indexed table).map (·.1)).Perm (indices table) := by
  refine ((List.mergeSort_perm _ _).map _).trans (List.Perm.of_eq ?_)
  simp [indices, List.map_filterMap, Function.comp_def]

theorem indexed_sorted (table : List (String × RuleDecl)) :
    ((indexed table).map (·.1)).Pairwise (· ≤ ·) := by
  rw [List.pairwise_map]
  have sorted := @List.pairwise_mergeSort _
    (fun a b : Nat × String × RuleDecl => decide (a.1 ≤ b.1))
    (fun a b c first second => by simp only [decide_eq_true_eq] at *; omega)
    (fun a b => by simp only [Bool.or_eq_true, decide_eq_true_eq]; omega)
  exact (sorted _).imp fun le => of_decide_eq_true le

theorem getLast?_indexed (table : List (String × RuleDecl)) :
    (indexed table).getLast?.map (·.1) = (indices table).max? := by
  rw [← List.getLast?_map]
  cases last : ((indexed table).map (·.1)).getLast? with
  | none =>
    have none := List.getLast?_eq_none_iff.mp last
    have empty := (none ▸ indexed_perm table).nil_eq
    simp [← empty]
  | some n =>
    obtain ⟨before, whole⟩ := List.getLast?_eq_some_iff.mp last
    have sorted := whole ▸ indexed_sorted table
    have same := indexed_perm table
    rw [whole] at same
    refine (List.max?_eq_some_iff.mpr ⟨same.mem_iff.mp (by simp), fun m member => ?_⟩).symm
    rcases List.mem_append.mp (same.mem_iff.mpr member) with earlier | own
    · exact (List.pairwise_append.mp sorted).2.2 m earlier n (by simp)
    · simp at own
      omega

theorem tableLength?_of_fits (fits : Fits table) : tableLength? table = some (extent table) := by
  have largest := getLast?_indexed table
  unfold tableLength? extent
  split
  · rename_i none
    rw [none] at largest
    simp [← largest]
  · rename_i n _ last
    rw [last] at largest
    have member : n ∈ indices table := List.max?_mem largest.symm
    have bound := fits n member
    have small : n < Text.largestIndex := bound.trans (by decide)
    simp only [Text.nextIndex?, small, if_true, ← largest, Option.map_some, Option.elim_some]
    exact Option.filter_eq_some_iff.mpr ⟨rfl, by simpa using bound⟩

theorem tableLength?_of_not_fits (large : ¬ Fits table) : tableLength? table = none := by
  unfold Fits at large
  push Not at large
  obtain ⟨m, member, bound⟩ := large
  have largest := getLast?_indexed table
  unfold tableLength?
  split
  · rename_i none
    rw [none] at largest
    rw [List.max?_eq_none_iff.mp largest.symm] at member
    exact nomatch member
  · rename_i n _ last
    rw [last] at largest
    have above : m ≤ n := (List.max?_eq_some_iff.mp largest.symm).2 m member
    unfold Text.nextIndex?
    split
    · simp only [Option.filter_some]
      rw [if_neg (by simpa using by omega)]
    · rfl

section

variable {α β : Type}

theorem mapM_run_map {action : α → Compile β} {key : α → Nat} {result : β → Nat}
    (same : ∀ item draft, result ((action item).run draft).1 = key item) (items : List α)
    (draft : Draft) : ((items.mapM action).run draft).1.map result = items.map key := by
  induction items generalizing draft with
  | nil => rfl
  | cons item rest ih =>
    rw [List.mapM_cons]
    exact congrArg₂ List.cons (same item draft) (ih _)

end

variable (capture : Place → RuleDecl → Compile RuleId) (place : Place) (field : CaptureField)
  (draft : Draft)

theorem captures_of_not_fits (large : ¬ Fits table) :
    (captures capture place field (some table)).run draft = ([], { draft with gaveUp := true }) := by
  have none := tableLength?_of_not_fits large
  have bare : groups table = [] := by simp [groups, none]
  have laid : (lay table).run draft = ((), { draft with gaveUp := true }) := by
    change ((), { draft with gaveUp := draft.gaveUp || (tableLength? table).isNone }) = _
    rw [none, Option.isNone_none, Bool.or_true]
  unfold captures
  simp only [Option.getD_some, bare, none, Option.getD_none, List.mapM_nil]
  rw [StateT.run_bind, laid]
  rfl

theorem captures_of_fits (fits : Fits table) :
    let found := ((captures capture place field (some table)).run draft).1
    found.length = extent table ∧ ∀ n, found[n]?.join.isSome ↔ n ∈ indices table := by
  intro found
  have whole : groups table = indexed table := by
    simp [groups, tableLength?_of_fits fits]
  let group (group : Nat × String × RuleDecl) : Compile (Nat × RuleId) := do
    return (group.1, ← capture (place.into (.capture field group.2.1)) group.2.2)
  let ids := (((groups table).mapM group).run ((lay table).run draft).2).1
  have spreads : found = spread (extent table) ids := by
    change spread ((tableLength? table).getD 0) ids = _
    rw [tableLength?_of_fits fits, Option.getD_some]
  have numbers : ids.map (·.1) = (indexed table).map (·.1) := by
    rw [← whole]
    exact mapM_run_map (fun _ _ => rfl) _ _
  have declares (n : Nat) : (ids.reverse.lookup n).isSome ↔ n ∈ indices table := by
    rw [← (indexed_perm table).mem_iff, ← numbers, Option.isSome_iff_ne_none, ne_eq,
      List.lookup_eq_none_iff]
    simp
  refine ⟨by rw [spreads, length_spread], fun n => ?_⟩
  rw [spreads, getElem?_spread]
  split
  · exact declares n
  · rename_i outside
    exact iff_of_false Bool.false_ne_true fun member => outside (lt_extent member)

end Compile

/-- There can be each table that the library declares. -/
def Library.Roomy (library : Library) : Prop :=
  ∀ rule field table, library.Declares rule → rule.captured field = some table → Compile.Fits table

theorem Compile.roomy_lasting {library : Library} (roomy : library.Roomy) :
    Lasting library (fun draft => draft.gaveUp = false) fun _ => True where
  reserved := fun _ first => ⟨trivial, first⟩
  filled := fun _ _ _ _ _ _ first => ⟨trivial, first⟩
  recorded := fun _ _ _ first => ⟨trivial, first⟩
  named := fun _ _ _ first => ⟨trivial, first⟩
  rounded := fun _ first => ⟨trivial, first⟩
  laid := by
    intro rule field declared draft first
    have fits : Fits ((rule.captured field).getD []) := by
      cases given : rule.captured field with
      | none => exact fun _ => nofun
      | some table => exact roomy rule field table declared given
    refine ⟨trivial, ?_⟩
    change (draft.gaveUp || (tableLength? ((rule.captured field).getD [])).isNone) = false
    rw [first, tableLength?_of_fits fits]
    rfl

namespace RuleGraph

theorem compile?_of_roomy {library : Library} (roomy : library.Roomy) (straight : library.Straight) :
    compile? library = some (compile library) :=
  compile?_eq_some_iff.mpr ⟨of_lasting (Compile.roomy_lasting roomy) rfl, straight, rfl⟩

/-- The groups of an accepted rule all have an index, and their table has each of them at its index
and nothing else. Only where an index is too large for a table, and where references run in a circle,
there is no result. -/
theorem compile?_tables (library : Library)
    (accepted : ∀ grammar ∈ library.decls, grammar.validate = .ok ()) :
    (∀ rule field table, library.Declares rule → rule.captured field = some table →
        (∀ entry ∈ table, ∃ n ≤ Text.largestIndex, Text.readIndex? entry.1.toList = some n) ∧
        ∀ fuel place around draft,
          let compiled := (Compile.captures (fun place decl =>
            Compile.capturing library fuel place decl around) place field (some table)).run draft
          (Compile.Fits table → compiled.1.length = Compile.extent table ∧
            ∀ n, compiled.1[n]?.join.isSome ↔ n ∈ Compile.indices table) ∧
          (¬ Compile.Fits table → compiled.2.gaveUp = true) ∧
          (library.Roomy → library.Surrounds around → draft.gaveUp = false →
            compiled.2.gaveUp = false)) ∧
    (library.Roomy → library.Straight → compile? library = some (compile library)) := by
  refine ⟨fun rule field table declared given => ?_, compile?_of_roomy⟩
  refine ⟨fun entry member => ?_, fun fuel place around draft => ⟨?fits, ?large, ?roomy⟩⟩
  case fits => exact fun fits => Compile.captures_of_fits _ place field draft fits
  case large => exact fun large => by rw [Compile.captures_of_not_fits _ place field draft large]
  case roomy =>
    intro roomy surrounds free
    have lasting := Compile.roomy_lasting roomy
    have keeping := Compile.Keeps.compiling lasting fuel
    rw [← given]
    exact (Compile.Keeps.captures (fun place field _ part listed => keeping.groups place part _
      (.group declared field listed) surrounds) (fun field => lasting.laid rule field declared)
        place field draft free).2
  have isKey :=
    ((declared.accepted accepted).parts.2.2 field entry (by simpa [given] using member)).1
  obtain ⟨n, here⟩ := Option.isSome_iff_exists.mp isKey
  exact ⟨n, Text.readIndex?_le here, here⟩

end RuleGraph

namespace Library

open RuleDecl (word)

def grouped (keys : List String) : Library :=
  ⟨⟨some "t", none, [{ word "w" with captures := some (keys.map fun key => (key, word "g")) }], [],
    [], none, [], [], none⟩, Repository.empty⟩

theorem grouped_declares {keys : List String} {rule : RuleDecl}
    (declared : (grouped keys).Declares rule) :
    rule = { word "w" with captures := some (keys.map fun key => (key, word "g")) } ∨
      rule = word "g" := by
  have only {grammar : GrammarDecl} (stored : grammar ∈ (grouped keys).decls) :
      grammar = (grouped keys).base := by
    simpa [decls, grouped, Repository.empty] using stored
  induction declared with
  | pattern stored listed =>
    obtain rfl := only stored
    exact .inl (List.mem_singleton.mp listed)
  | entry stored listed =>
    obtain rfl := only stored
    cases listed
  | injection stored listed =>
    obtain rfl := only stored
    cases listed
  | nested _ listed ih => rcases ih with rfl | rfl <;> cases listed
  | inner _ listed ih => rcases ih with rfl | rfl <;> cases listed
  | group _ field listed ih =>
    rcases ih with rfl | rfl <;> cases field
    case inl.all =>
      obtain ⟨key, _, same⟩ := List.mem_map.mp listed
      exact .inr (congrArg Prod.snd same).symm
    all_goals cases listed

end Library

namespace RuleGraph

open Library (grouped)

theorem compile?_tables_apart :
    let table := ["2", "0"].map fun key => (key, RuleDecl.word "g")
    let library := grouped ["2", "0"]
    let compiled := (Compile.captures (fun place decl =>
      Compile.capturing library 1 place decl (Surroundings.ofGrammar library.base))
        ⟨"t", [.pattern 0]⟩ .all (some table)).run Draft.empty
    (compiled.1.length = 3 ∧ ∀ n, compiled.1[n]?.join.isSome ↔ n ∈ [2, 0]) ∧
      compile? library = some (compile library) := by
  intro table library compiled
  have accepted : ∀ grammar ∈ library.decls, grammar.validate = .ok () := by
    intro grammar stored
    obtain rfl := List.mem_singleton.mp stored
    cbv
  obtain ⟨tables, whole⟩ := compile?_tables library accepted
  have read : Compile.indices table = [2, 0] := by cbv
  have fits : Compile.Fits table := by
    intro n member
    rw [read] at member
    exact lt_of_le_of_lt (show n ≤ 2 by simp at member; omega) (by decide)
  have declared : library.Declares { RuleDecl.word "w" with captures := some table } :=
    .pattern List.mem_cons_self List.mem_cons_self
  obtain ⟨-, compiles⟩ := tables _ .all table declared rfl
  obtain ⟨filled, -⟩ :=
    compiles 1 ⟨"t", [.pattern 0]⟩ (Surroundings.ofGrammar library.base) Draft.empty
  refine ⟨?_, whole (fun rule field other declared given => ?_) (by unfold Library.Straight; cbv)⟩
  · have extent : Compile.extent table = 3 := by cbv
    rw [← extent, ← read]
    exact filled fits
  · rcases Library.grouped_declares declared with rfl | rfl <;> cases field <;> cases given
    exact fits

theorem compile?_overflowing :
    let library := grouped ["18446744073709551615"]
    let table := [("18446744073709551615", RuleDecl.word "g")]
    library.base.validate = .ok () ∧
      library.Declares { RuleDecl.word "w" with captures := some table } ∧
      (Compile.indices table).Nodup ∧ Compile.indices table = [Text.largestIndex] ∧
      compile? library = none := by
  intro library table
  have read : Compile.indices table = [Text.largestIndex] := by cbv
  refine ⟨by cbv, .pattern List.mem_cons_self List.mem_cons_self, ?_, read, by cbv⟩
  rw [read]
  exact List.nodup_singleton _

end RuleGraph

end Highlighter
