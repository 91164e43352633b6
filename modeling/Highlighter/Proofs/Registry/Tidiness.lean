import Highlighter.Proofs.Grammar.Places
import Highlighter.Proofs.Registry.Coherence

set_option autoImplicit false

namespace Highlighter

namespace Table

variable {α : Type} {table : Table α}

def Rising (table : Table α) : Prop := table.Pairwise fun entry later => entry.1 < later.1

theorem Rising.keys_nodup (rising : table.Rising) : (table.map (·.1)).Nodup :=
  (List.pairwise_map.mpr rising).nodup

theorem mem_insert {key : String} {value : α} {entry : String × α}
    (member : entry ∈ table.insert key value) : entry = (key, value) ∨ entry ∈ table := by
  induction table with
  | nil => exact .inl (List.mem_singleton.mp member)
  | cons first rest ih =>
    simp only [insert] at member
    split at member
    · exact (List.mem_cons.mp member).imp_right (List.mem_cons_of_mem _)
    · split at member
      · exact List.mem_cons.mp member
      · rcases List.mem_cons.mp member with rfl | later
        · exact .inr List.mem_cons_self
        · exact (ih later).imp_right (List.mem_cons_of_mem _)

theorem Rising.insert (rising : table.Rising) (key : String) (value : α) :
    (table.insert key value).Rising := by
  induction table with
  | nil => exact List.pairwise_singleton _ _
  | cons first rest ih =>
    obtain ⟨before, rest_rising⟩ := List.pairwise_cons.mp rising
    simp only [Table.insert]
    split
    · rename_i same
      subst same
      exact List.pairwise_cons.mpr ⟨before, rest_rising⟩
    · rename_i different
      split
      · rename_i less
        refine List.pairwise_cons.mpr ⟨fun entry member => ?_, rising⟩
        rcases List.mem_cons.mp member with rfl | later
        · exact less
        · exact less.trans (before entry later)
      · rename_i notLess
        refine List.pairwise_cons.mpr ⟨fun entry member => ?_, ih rest_rising⟩
        rcases mem_insert member with rfl | later
        · exact lt_of_le_of_ne (not_lt.mp notLess) (Ne.symm different)
        · exact before entry later

theorem ofPairs_rising (pairs : List (String × α)) : (ofPairs pairs).Rising :=
  List.foldlRecOn pairs _ List.Pairwise.nil fun _ rising entry _ => rising.insert entry.1 entry.2

theorem mem_of_mem_ofPairs (pairs : List (String × α)) : ∀ entry ∈ ofPairs pairs, entry ∈ pairs :=
  List.foldlRecOn (motive := fun table => ∀ entry ∈ table, entry ∈ pairs) pairs _ (fun _ => nofun)
    fun _ listed pair here entry member => by
      rcases mem_insert member with rfl | earlier
      · exact here
      · exact listed entry earlier

end Table

namespace Json.Shape

variable {α β : Type} {shape : Shape α} {p : α → Prop}

def Gives (shape : Shape α) (p : α → Prop) : Prop :=
  ∀ room json value, shape room json = some value → p value

theorem forall_mem_of_mapM {read : β → Option α} {items : List β} {values : List α}
    (gives : ∀ item value, read item = some value → p value) (taken : items.mapM read = some values) :
    ∀ value ∈ values, p value := by
  induction items generalizing values with
  | nil =>
    obtain rfl := Option.some.inj taken
    exact fun _ => nofun
  | cons item rest ih =>
    simp only [List.mapM_cons, Option.bind_eq_bind, Option.bind_eq_some_iff, Option.pure_def,
      Option.some.injEq] at taken
    obtain ⟨value, first, others, later, rfl⟩ := taken
    exact List.forall_mem_cons.mpr ⟨gives item value first, ih later⟩

namespace Gives

theorem optional (gives : shape.Gives p) :
    (optional shape).Gives fun found => ∀ value, found = some value → p value := by
  intro room json found taken
  unfold Shape.optional at taken
  split at taken
  · obtain rfl := Option.some.inj taken
    exact fun _ => nofun
  · obtain ⟨value, here, rfl⟩ := Option.map_eq_some_iff.mp taken
    exact fun _ same => Option.some.inj same ▸ gives room json value here

theorem listOf (gives : shape.Gives p) : (listOf shape).Gives fun values => ∀ value ∈ values, p value := by
  intro room json values taken
  unfold Shape.listOf at taken
  split at taken
  · obtain ⟨inner, _, each⟩ := Option.bind_eq_some_iff.mp taken
    exact forall_mem_of_mapM (gives inner) each
  · exact nomatch taken

theorem tableOf (gives : shape.Gives p) :
    (tableOf shape).Gives fun table => table.Rising ∧ ∀ entry ∈ table, p entry.2 := by
  intro room json table taken
  unfold Shape.tableOf at taken
  split at taken
  · simp only [Option.bind_eq_bind, Option.bind_eq_some_iff, Option.pure_def,
      Option.some.injEq] at taken
    obtain ⟨inner, _, pairs, each, rfl⟩ := taken
    have known : ∀ entry ∈ pairs, p entry.2 := by
      refine forall_mem_of_mapM (fun field entry read => ?_) each
      simp only [Option.bind_eq_some_iff, Option.some.injEq] at read
      obtain ⟨_, _, value, here, rfl⟩ := read
      exact gives inner _ value here
    exact ⟨Table.ofPairs_rising pairs, fun entry member =>
      known entry (Table.mem_of_mem_ofPairs pairs entry member)⟩
  · exact nomatch taken

theorem partOr (gives : shape.Gives p) {missing value : α} {room : Nat} {json : Option Json}
    (taken : partOr missing shape room json = some value) (lacking : p missing) : p value := by
  cases json with
  | none =>
    obtain rfl := Option.some.inj taken
    exact lacking
  | some json => exact gives room json value taken

end Gives

end Json.Shape

namespace RuleDecl

inductive Orderly : RuleDecl → Prop
  | of {rule : RuleDecl} (groups : ∀ field, Table.Rising ((rule.captured field).getD []))
    (entries : Table.Rising (rule.repository.getD []))
    (parts : ∀ step part, rule.part? step = some part → Orderly part) : Orderly rule

def InOrder (table : Table RuleDecl) : Prop := table.Rising ∧ ∀ entry ∈ table, entry.2.Orderly

theorem inOrder_nil : InOrder [] := ⟨.nil, fun _ => nofun⟩

theorem tableOf_inOrder {shape : Json.Shape RuleDecl} (gives : shape.Gives Orderly) {room : Nat}
    {json : Option Json} {found : Option (Table RuleDecl)}
    (taken : Json.Shape.partOr none (Json.Shape.optional (Json.Shape.tableOf shape)) room json =
      some found) : InOrder (found.getD []) := by
  have known := gives.tableOf.optional.partOr taken fun _ => nofun
  cases found with
  | none => exact inOrder_nil
  | some table => exact known table rfl

theorem shape_gives (depth : Nat) : (shape depth).Gives Orderly := by
  induction depth with
  | zero => exact fun _ _ _ => nofun
  | succ depth ih =>
    intro room json rule taken
    obtain ⟨⟨inner, values⟩, -, taken⟩ := Option.bind_eq_some_iff.mp taken
    dsimp only at taken
    split at taken
    -- The fields in the order in which they are read. Texts and flags have nothing to be in order.
    · iterate 4 obtain ⟨_, -, taken⟩ := Option.bind_eq_some_iff.mp taken
      obtain ⟨captures, all, taken⟩ := Option.bind_eq_some_iff.mp taken
      obtain ⟨_, -, taken⟩ := Option.bind_eq_some_iff.mp taken
      obtain ⟨openingCaptures, opening, taken⟩ := Option.bind_eq_some_iff.mp taken
      obtain ⟨_, -, taken⟩ := Option.bind_eq_some_iff.mp taken
      obtain ⟨closingCaptures, closing, taken⟩ := Option.bind_eq_some_iff.mp taken
      obtain ⟨_, -, taken⟩ := Option.bind_eq_some_iff.mp taken
      obtain ⟨continuingCaptures, continuing, taken⟩ := Option.bind_eq_some_iff.mp taken
      obtain ⟨nested, rules, taken⟩ := Option.bind_eq_some_iff.mp taken
      obtain ⟨repository, entries, taken⟩ := Option.bind_eq_some_iff.mp taken
      obtain ⟨_, -, taken⟩ := Option.bind_eq_some_iff.mp taken
      have whole := Option.some.inj taken
      have listed := ih.listOf.optional.partOr rules fun _ => nofun
      have named := tableOf_inOrder ih entries
      have grouped (field : CaptureField) : InOrder ((rule.captured field).getD []) := by
        subst whole
        cases field with
        | all => exact tableOf_inOrder ih all
        | opening => exact tableOf_inOrder ih opening
        | closing => exact tableOf_inOrder ih closing
        | continuing => exact tableOf_inOrder ih continuing
      subst whole
      refine .of (fun field => (grouped field).1) named.1 fun step part here => ?_
      cases step with
      | pattern index =>
        cases nested with
        | none => exact nomatch here
        | some listing => exact listed listing rfl part (List.mem_of_getElem? here)
      | entry name => exact named.2 _ (Table.mem_of_lookup here)
      | capture field key => exact (grouped field).2 _ (Table.mem_of_lookup here)
      | injection selector => exact nomatch here
    · exact nomatch taken

end RuleDecl

namespace GrammarDecl

structure Orderly (grammar : GrammarDecl) : Prop where
  patterns : ∀ rule ∈ grammar.patterns, rule.Orderly
  repository : RuleDecl.InOrder grammar.repository
  injections : RuleDecl.InOrder grammar.injections

variable {grammar : GrammarDecl} {rule : RuleDecl}

theorem Orderly.of_rule? (orderly : grammar.Orderly) {steps : List PlaceStep}
    (found : grammar.rule? steps = some rule) : rule.Orderly := by
  induction steps generalizing rule with
  | nil => exact nomatch found
  | cons step outer ih =>
    cases outer with
    | nil =>
      cases step with
      | pattern index => exact orderly.patterns rule (List.mem_of_getElem? found)
      | entry name => exact orderly.repository.2 _ (Table.mem_of_lookup found)
      | capture field key => exact nomatch found
      | injection selector => exact orderly.injections.2 _ (Table.mem_of_lookup found)
    | cons last outer =>
      obtain ⟨around, here, inner⟩ := Option.bind_eq_some_iff.mp found
      cases ih here with
      | of _ _ parts => exact parts step rule inner

theorem orderly_of_ofJson? {json : Json} (read : ofJson? json = some grammar) :
    grammar.Orderly := by
  have rules := RuleDecl.shape_gives Json.wholeRoom
  obtain ⟨⟨inner, values⟩, -, taken⟩ := Option.bind_eq_some_iff.mp read
  dsimp only at taken
  split at taken
  · iterate 2 obtain ⟨_, -, taken⟩ := Option.bind_eq_some_iff.mp taken
    obtain ⟨_, listed, taken⟩ := Option.bind_eq_some_iff.mp taken
    obtain ⟨_, entries, taken⟩ := Option.bind_eq_some_iff.mp taken
    obtain ⟨_, injected, taken⟩ := Option.bind_eq_some_iff.mp taken
    iterate 4 obtain ⟨_, -, taken⟩ := Option.bind_eq_some_iff.mp taken
    obtain rfl := Option.some.inj taken
    exact ⟨rules.listOf.partOr listed fun _ => nofun,
      rules.tableOf.partOr entries RuleDecl.inOrder_nil,
      rules.tableOf.partOr injected RuleDecl.inOrder_nil⟩
  · exact nomatch taken

theorem orderly_of_ofText {source : String} (read : ofText source = .ok grammar) :
    grammar.Orderly := by
  unfold ofText ofValidJson at read
  split at read
  · exact nomatch read
  · split at read
    · exact nomatch read
    · rename_i other here
      cases valid : other.validate with
      | error error => exact nomatch valid ▸ read
      | ok _ =>
        rw [valid] at read
        obtain rfl := Except.ok.inj read
        exact orderly_of_ofJson? here

end GrammarDecl

theorem Library.tidy_of_orderly {library : Library} (keyed : library.Keyed)
    (orderly : ∀ scope grammar, library.grammar? scope = some grammar → grammar.Orderly) :
    library.Tidy where
  keyed := keyed
  groups := by
    intro place rule field table here captured
    obtain ⟨grammar, known, found⟩ := Option.bind_eq_some_iff.mp here
    cases (orderly place.grammar grammar known).of_rule? found with
    | of groups _ _ =>
      have rising := groups field
      rw [captured] at rising
      exact rising.keys_nodup
  injections := (orderly library.base.scopeName library.base (if_pos rfl)).injections.1.keys_nodup

namespace Registry

theorem grammar_tidy {operations : List Operation}
    (orderly : ∀ decl, .add decl ∈ operations → decl.Orderly) {scope : String} {grammar : Grammar}
    {next : Registry} (given : (after operations).grammar scope = .grammar grammar next) :
    ∃ decl, Library.Tidy ⟨decl, (after operations).repository⟩ ∧
      (after operations).compile? scope decl = some grammar := by
  have coherent := after_coherent operations
  have supply := coherent.grammar_eq scope
  obtain ⟨decl, known, compiled⟩ : ∃ decl,
      (after operations).repository.grammars.get? scope = some decl ∧
        (after operations).compile? scope decl = some grammar := by
    split at supply
    · exact nomatch given.symm.trans supply
    · rename_i decl known
      split at supply
      · exact nomatch given.symm.trans supply
      · obtain ⟨_, same⟩ := supply
        obtain ⟨rfl, -⟩ := Supply.grammar.inj (given.symm.trans same)
        exact ⟨decl, known, by assumption⟩
  rw [coherent.grammars] at known
  have stored (other : String) (found : GrammarDecl)
      (here : Library.grammar? ⟨decl, (after operations).repository⟩ other = some found) :
      .add found ∈ operations ∧ found.scopeName = other := by
    unfold Library.grammar? at here
    split at here
    · rename_i own
      obtain rfl := Option.some.inj here
      exact ⟨(of_lastAccepted? known).1, own.symm⟩
    · obtain ⟨added, named, -⟩ := of_lastAccepted? ((coherent.grammars other).symm.trans here)
      exact ⟨added, named⟩
  exact ⟨decl, Library.tidy_of_orderly (fun other found here => (stored other found here).2)
    fun other found here => orderly found (stored other found here).1, compiled⟩

end Registry

end Highlighter
