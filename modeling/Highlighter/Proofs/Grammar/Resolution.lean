import Highlighter.Proofs.Grammar.Editing
import Highlighter.Proofs.Grammar.Settling

set_option autoImplicit false

namespace Highlighter

namespace RuleGraph

theorem compile_isLexical (library : Library) (tidy : library.Tidy) (apart : library.Apart) :
    ∃ number, (compile library).IsLexical library number := by
  let start : Draft := Draft.empty
  have empty (site : Site) : start.number site = none := by cases site <;> rfl
  have sound : start.Sound :=
    ⟨fun site id here => by simp [empty] at here, fun site _ id here => by simp [empty] at here,
      fun place _ here => by simp [empty] at here⟩
  obtain ⟨grows, sound, root, injections⟩ := Compile.graph_does tidy apart sound
  let last := ((Compile.graph library).run start).2
  refine ⟨last.number, root, sound.distinct, fun site found here => ?_, injections⟩
  refine (grows.settled site found (empty site) here).mono (fun _ _ same => same) fun id rule here => ?_
  have slot : last.rules[id]? = some (some rule) := Option.join_eq_some_iff.mp here
  exact rule?_of_filled slot

/-- References are resolved by what is written around them, where no repository inside a rule is in
the way of those that stand elsewhere in a repository. A name stands for the entry in the innermost
repository around it. So another repository in a rule changes nothing outside the rule, and another
order of the rules in a list changes nothing but their places in it. -/
theorem compile_lexical (library : Library) (tidy : library.Tidy) (apart : library.Apart) :
    (∃ number, (compile library).IsLexical library number) ∧
    (∀ place rule text name, library.rule? place = some rule → rule.reference = some text →
      Library.referenceOf text = .local name → ∀ site, library.Means place site ↔
        ∃ entry, library.nearest? place name = some entry ∧ library.Means entry site) ∧
    (∀ other rule repository, rule.steps ≠ [] →
      library.Changes other rule.grammar (·.withRepository repository rule.steps) →
        (other.Tidy → other.Apart → ∃ number, (compile other).IsLexical other number) ∧
        ∀ place, ¬ place.Inside rule → ∀ site, other.Means place site ↔ library.Means place site) ∧
    ∀ other list rules, ∀ order : Equiv.Perm Nat,
      library.Changes other list.grammar (·.withList rules list.steps) →
      (∀ index, rules[order index]? = library.rule? (list.into (.pattern index))) →
        (∃ number, (compile other).IsLexical other number) ∧
        ∀ place site, other.Means (Place.reorder list order place) site ↔
          ∃ origin, library.Means place origin ∧ origin.map (Place.reorder list order) = site := by
  refine ⟨compile_isLexical library tidy apart, ?names, ?repository, ?order⟩
  case names => exact fun _ _ _ _ here refers names => Library.means_local here refers names
  case repository =>
    intro other rule repository isRule changes
    exact ⟨compile_isLexical other, fun _ outside => changes.means_outside isRule outside⟩
  case order =>
    intro other list rules order changes listed
    have undone := order.apply_symm_apply
    exact ⟨compile_isLexical other (changes.tidy_reorder listed undone tidy)
      (changes.apart_reorder listed undone apart), changes.means_reorder listed⟩

end RuleGraph

namespace RuleDecl

def blank : RuleDecl :=
  ⟨none, none, none, none, none, none, none, none, none, none, none, none, none, false⟩

def word (name : String) : RuleDecl := { blank with pattern := some "x", name := some name }

def referring (text : String) : RuleDecl := { blank with reference := some text }

def holding (texts : List String) : RuleDecl := { blank with nested := some (texts.map referring) }

def bracketed (text : String) : RuleDecl :=
  { holding [text] with
    opening := some "<", closing := some ">", repository := some [("item", word "inner")] }

end RuleDecl

namespace Library

open RuleDecl (word referring holding bracketed)

def shadowing : Library :=
  ⟨⟨some "t", none, [bracketed "#item", referring "#item", referring "#pair"],
    [("item", word "outer"), ("pair", holding ["#other", "$self"]), ("other", word "other")],
    [], none, [], [], none⟩, Repository.empty⟩

def reordered : List RuleDecl := [referring "#item", bracketed "#item", referring "#pair"]

def bare : Library := shadowing.changed (·.withRepository none [.pattern 0])

theorem shadowing_checked : shadowing.isTidy = true ∧ shadowing.isApart = true := by
  constructor <;> cbv

theorem bare_checked : bare.isTidy = true ∧ bare.isApart = true := by
  constructor <;> cbv

end Library

namespace RuleGraph

open Library (shadowing bare)

theorem compile_lexical_shadowing :
    let reordered := shadowing.changed (·.withList Library.reordered [])
    (∃ number, (compile shadowing).IsLexical shadowing number) ∧
    shadowing.Means ⟨"t", [.pattern 0, .pattern 0]⟩ (.rule ⟨"t", [.entry "item", .pattern 0]⟩) ∧
    ((∃ number, (compile bare).IsLexical bare number) ∧
      ∀ site, bare.Means ⟨"t", [.pattern 1]⟩ site ↔ shadowing.Means ⟨"t", [.pattern 1]⟩ site) ∧
    (∃ number, (compile reordered).IsLexical reordered number) ∧
      ∀ site, reordered.Means ⟨"t", [.pattern 0]⟩ site ↔
        ∃ origin, shadowing.Means ⟨"t", [.pattern 1]⟩ origin ∧
          origin.map (Place.reorder ⟨"t", []⟩ (Equiv.swap 0 1)) = site := by
  have tidy := Library.tidy_of_isTidy Library.shadowing_checked.1
  have apart := Library.apart_of_isApart tidy.keyed Library.shadowing_checked.2
  obtain ⟨lexical, names, outside, reorder⟩ := compile_lexical shadowing tidy apart
  refine ⟨lexical, ?names, ?repository, ?order⟩
  case names =>
    refine (names ⟨"t", [.pattern 0, .pattern 0]⟩ _ "#item" "item" rfl rfl (by cbv) _).mpr ?_
    exact ⟨⟨"t", [.entry "item", .pattern 0]⟩, by cbv, _, .arrive (by cbv)⟩
  case repository =>
    obtain ⟨compiled, same⟩ := outside bare ⟨"t", [.pattern 0]⟩ none (by simp)
      (Library.changes_changed shadowing _ rfl)
    have tidy := Library.tidy_of_isTidy Library.bare_checked.1
    have apart := Library.apart_of_isApart tidy.keyed Library.bare_checked.2
    exact ⟨compiled tidy apart, same ⟨"t", [.pattern 1]⟩ (by simp [Place.Inside])⟩
  case order =>
    have listed (index : Nat) : Library.reordered[Equiv.swap 0 1 index]? =
        shadowing.rule? (Place.into ⟨"t", []⟩ (.pattern index)) := by
      rcases index with _ | _ | index
      · rfl
      · rfl
      · rw [Equiv.swap_apply_of_ne_of_ne (by simp) (by simp)]
        rfl
    obtain ⟨compiled, same⟩ := reorder _ ⟨"t", []⟩ Library.reordered (Equiv.swap 0 1)
      (Library.changes_changed shadowing _ rfl) listed
    exact ⟨compiled, same ⟨"t", [.pattern 1]⟩⟩

end RuleGraph

namespace Library

open RuleDecl (word referring holding bracketed)

-- `list` refers to the grammar's `item` and is reached from between the brackets first.
def leaking : Library :=
  ⟨⟨some "t", none, [bracketed "#list", referring "#list"],
    [("item", word "outer"), ("list", holding ["#item"])], [], none, [], [], none⟩,
    Repository.empty⟩

end Library

namespace RuleGraph

open Library (leaking)

theorem leaking_rules :
    ((compile leaking).rule? 0).map (·.nested) = some [1, 2] ∧
      ((compile leaking).rule? 2).map (·.nested) = some [3] ∧
        ((compile leaking).rule? 3).map (·.name) = some (some (Template.ofName "inner")) := by
  refine ⟨?_, ?_, ?_⟩ <;> cbv

theorem leaking_not_lexical :
    leaking.Tidy ∧ ¬ ∃ number, (compile leaking).IsLexical leaking number := by
  refine ⟨Library.tidy_of_isTidy (by cbv), fun ⟨number, lexical⟩ => ?_⟩
  obtain ⟨top, list, item⟩ := leaking_rules
  have list_turn : leaking.turn? ⟨"t", [.pattern 1]⟩ = some (.on ⟨"t", [.entry "list"]⟩) := by cbv
  have item_turn : leaking.turn? ⟨"t", [.pattern 0, .entry "list"]⟩ =
      some (.on ⟨"t", [.entry "item"]⟩) := by cbv
  -- The grammar's second rule stands for `list`, so `list` is rule 2.
  obtain ⟨rule, here, renders⟩ := lexical.settled _ _ lexical.root
  obtain ⟨grammar, stored, lists⟩ := renders.nested_whole
  obtain rfl : grammar = leaking.base := (Option.some.inj stored).symm
  rw [show (compile leaking).root = 0 by cbv] at here
  rw [here, Option.map_some, Option.some.injEq] at top
  rw [top] at lists
  have second := (List.forall₂_cons.mp (List.forall₂_cons.mp (lists.answers rfl)).2).1
  have list_number := second.of_means (Library.Means.onward list_turn ⟨_, .arrive (by cbv)⟩)
  -- Its only rule stands for the grammar's own `item`, so that is rule 3, which has another name.
  obtain ⟨rule, here, renders⟩ := lexical.settled _ _ list_number
  rw [here, Option.map_some, Option.some.injEq] at list
  obtain ⟨decl, declared, lists⟩ := renders.nested (by simp [list])
  obtain rfl : decl = RuleDecl.holding ["#item"] :=
    (Option.some.inj (declared.symm.trans rfl))
  rw [list] at lists
  have only := (List.forall₂_cons.mp (lists.answers rfl)).1
  have item_number := only.of_means (Library.Means.onward item_turn ⟨_, .arrive (by cbv)⟩)
  obtain ⟨rule, here, renders⟩ := lexical.settled _ _ item_number
  rw [here, Option.map_some, Option.some.injEq] at item
  obtain ⟨decl, declared, named⟩ := renders.name
  obtain rfl : decl = RuleDecl.word "outer" := Option.some.inj (declared.symm.trans rfl)
  have same : Template.ofName "outer" = Template.ofName "inner" :=
    Option.some.inj (named.symm.trans item)
  have first := congrArg List.head? same
  rw [show (Template.ofName "outer").head? = some (.plain 'o') by cbv,
    show (Template.ofName "inner").head? = some (.plain 'i') by cbv] at first
  simp at first

end RuleGraph

end Highlighter
