import Highlighter.Proofs.Grammar.Places

set_option autoImplicit false

namespace Highlighter

/-- The rule stands somewhere in a grammar of the library. -/
inductive Library.Declares (library : Library) : RuleDecl → Prop
  | pattern {grammar : GrammarDecl} {rule : RuleDecl} (stored : grammar ∈ library.decls)
    (listed : rule ∈ grammar.patterns) : Declares library rule
  | entry {grammar : GrammarDecl} {name : String} {rule : RuleDecl}
    (stored : grammar ∈ library.decls) (listed : (name, rule) ∈ grammar.repository) :
    Declares library rule
  | injection {grammar : GrammarDecl} {selector : String} {rule : RuleDecl}
    (stored : grammar ∈ library.decls) (listed : (selector, rule) ∈ grammar.injections) :
    Declares library rule
  | nested {outer rule : RuleDecl} (declared : Declares library outer)
    (listed : rule ∈ outer.nested.getD []) : Declares library rule
  | inner {outer : RuleDecl} {name : String} {rule : RuleDecl} (declared : Declares library outer)
    (listed : (name, rule) ∈ outer.repository.getD []) : Declares library rule
  | group {outer : RuleDecl} {key : String} {rule : RuleDecl} (declared : Declares library outer)
    (field : CaptureField) (listed : (key, rule) ∈ (outer.captured field).getD []) :
    Declares library rule

namespace Library

variable {library : Library}

structure Surrounds (library : Library) (around : Surroundings) : Prop where
  stored : around.grammar ∈ library.decls
  entries : ∀ repository ∈ around.repositories, ∀ entry ∈ repository.2, library.Declares entry.2

namespace Surrounds

theorem ofGrammar {grammar : GrammarDecl} (stored : grammar ∈ library.decls) :
    library.Surrounds (Surroundings.ofGrammar grammar) where
  stored := stored
  entries := by
    intro repository only entry listed
    obtain rfl := List.mem_singleton.mp only
    exact .entry stored listed

theorem within {around : Surroundings} (surrounds : library.Surrounds around) (place : Place)
    {rule : RuleDecl} (declared : library.Declares rule) :
    library.Surrounds (around.within place rule) := by
  unfold Surroundings.within
  split
  · rename_i table here
    refine ⟨surrounds.stored, fun repository member entry listed => ?_⟩
    rcases List.mem_cons.mp member with rfl | outer
    · exact .inner declared (by rwa [here])
    · exact surrounds.entries repository outer entry listed
  · exact surrounds

theorem lookup? {around : Surroundings} (surrounds : library.Surrounds around) {name : String}
    {place : Place} {rule : RuleDecl} (found : around.lookup? name = some (place, rule)) :
    library.Declares rule := by
  obtain ⟨repository, member, here⟩ := List.exists_of_findSome?_eq_some found
  obtain ⟨entry, known, same⟩ := Option.map_eq_some_iff.mp here
  obtain ⟨-, rfl⟩ := Prod.mk.inj same
  exact surrounds.entries repository member (name, entry) (Table.mem_of_lookup known)

end Surrounds

def Holds (library : Library) : Destination → Prop
  | .grammar grammar => grammar ∈ library.decls
  | .rule _ rule around => library.Declares rule ∧ library.Surrounds around

inductive Stride where
  | ended (destination : Destination)
  | on (around : Surroundings) (place : Place) (text : String)

def arrival? (around : Surroundings) (name : String) : Option Stride :=
  (around.lookup? name).map fun (place, rule) =>
    match rule.reference with
    | some next => .on around place next
    | none => .ended (.rule place rule around)

def stride? (library : Library) (around : Surroundings) (text : String) : Option Stride :=
  match referenceOf text with
  | .self => some (.ended (.grammar around.grammar))
  | .base => some (.ended (.grammar library.base))
  | .local name => arrival? around name
  | .foreign scope none => (library.grammar? scope).map fun grammar => .ended (.grammar grammar)
  | .foreign scope (some name) =>
    (library.grammar? scope).bind fun grammar => arrival? (Surroundings.ofGrammar grammar) name

def strode (further : Surroundings → String → Lead) : Option Stride → Lead
  | none => .nowhere
  | some (.ended destination) => .towards destination
  | some (.on around _ text) => further around text

theorem follow_succ (library : Library) (fuel : Nat) (around : Surroundings) (text : String) :
    library.follow (fuel + 1) around text =
      strode (library.follow fuel) (library.stride? around text) := by
  rw [follow, stride?]
  cases referenceOf text with
  | self | base => rfl
  | «local» name =>
    dsimp only [arrival?]
    rcases around.lookup? name with _ | ⟨place, rule⟩
    · rfl
    · cases refers : rule.reference <;> simp [refers, strode]
  | foreign scope name =>
    cases name with
    | none =>
      dsimp only
      cases library.grammar? scope <;> rfl
    | some name =>
      dsimp only
      cases library.grammar? scope with
      | none => rfl
      | some grammar =>
        dsimp only [Option.bind_some, arrival?]
        rcases (Surroundings.ofGrammar grammar).lookup? name with _ | ⟨place, rule⟩
        · rfl
        · cases refers : rule.reference <;> simp [refers, strode]

def Stride.Meets (ended : Destination → Prop) (met : Surroundings → Prop) : Stride → Prop
  | .ended destination => ended destination
  | .on around _ _ => met around

theorem follow_meets {ended : Destination → Prop} {met : Surroundings → Prop}
    (steps : ∀ around text stride, met around → library.stride? around text = some stride →
      stride.Meets ended met)
    (fuel : Nat) {around : Surroundings} (here : met around) {text : String}
    {destination : Destination} (found : library.follow fuel around text = .towards destination) :
    ended destination := by
  induction fuel generalizing around text with
  | zero => cases found
  | succ fuel ih =>
    rw [follow_succ] at found
    cases first : library.stride? around text with
    | none => simp [first, strode] at found
    | some stride =>
      have meets := steps around text stride here first
      cases stride with
      | ended other =>
        obtain rfl : other = destination := by simpa [first, strode] using found
        exact meets
      | on next place text => exact ih meets (by simpa [first, strode] using found)

theorem arrival?_holds {around : Surroundings} (surrounds : library.Surrounds around) (name : String)
    (stride : Stride) (found : arrival? around name = some stride) :
    stride.Meets library.Holds library.Surrounds := by
  obtain ⟨⟨place, rule⟩, here, rfl⟩ := Option.map_eq_some_iff.mp found
  dsimp only
  split
  · exact surrounds
  · exact ⟨surrounds.lookup? here, surrounds⟩

theorem stride?_holds (around : Surroundings) (text : String) (stride : Stride)
    (surrounds : library.Surrounds around) (found : library.stride? around text = some stride) :
    stride.Meets library.Holds library.Surrounds := by
  unfold stride? at found
  split at found
  · obtain rfl := Option.some.inj found
    exact surrounds.stored
  · obtain rfl := Option.some.inj found
    exact List.mem_cons_self
  · exact arrival?_holds surrounds _ _ found
  · obtain ⟨grammar, known, rfl⟩ := Option.map_eq_some_iff.mp found
    exact mem_decls_of_grammar? known
  · obtain ⟨grammar, known, found⟩ := Option.bind_eq_some_iff.mp found
    exact arrival?_holds (.ofGrammar (mem_decls_of_grammar? known)) _ _ found

theorem lead_holds {around : Surroundings} (surrounds : library.Surrounds around)
    (reference : String) (destination : Destination)
    (found : library.lead around reference = .towards destination) : library.Holds destination :=
  follow_meets stride?_holds _ surrounds found

end Library

end Highlighter
