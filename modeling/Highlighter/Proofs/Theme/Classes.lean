import Highlighter.Proofs.Theme.Specificity

set_option autoImplicit false

namespace Highlighter

namespace Theme

namespace Target

variable {scopes names other : List String}

theorem classesDepth?_cons (scopes : List String) (name : String) (names : List String)
    (depth : Nat) : classesDepth? scopes (name :: names) = some depth ↔
      ∃ own rest, deepest? name 0 scopes = some own ∧ classesDepth? scopes names = some rest ∧
        max own rest = depth := by
  rw [classesDepth?]
  cases deepest? name 0 scopes <;> cases classesDepth? scopes names <;> simp

theorem deepest?_le {name : String} {depth : Nat} (member : name ∈ names)
    (met : classesDepth? scopes names = some depth) :
    ∃ own ≤ depth, deepest? name 0 scopes = some own := by
  induction member generalizing depth with
  | head rest =>
    obtain ⟨own, others, here, -, rfl⟩ := (classesDepth?_cons _ _ _ _).mp met
    exact ⟨own, le_max_left own others, here⟩
  | tail first _ ih =>
    obtain ⟨top, others, -, there, rfl⟩ := (classesDepth?_cons _ _ _ _).mp met
    obtain ⟨own, le, here⟩ := ih there
    exact ⟨own, le.trans (le_max_right top others), here⟩

theorem classesDepth?_subset {depth : Nat} (among : names ⊆ other)
    (met : classesDepth? scopes other = some depth) :
    ∃ lesser ≤ depth, classesDepth? scopes names = some lesser := by
  induction names with
  | nil => exact ⟨0, Nat.zero_le depth, rfl⟩
  | cons name rest ih =>
    obtain ⟨known, among⟩ := List.cons_subset.mp among
    obtain ⟨own, le, here⟩ := deepest?_le known met
    obtain ⟨others, le', there⟩ := ih among
    exact ⟨max own others, max_le le le', (classesDepth?_cons _ _ _ _).mpr ⟨own, others, here, there, rfl⟩⟩

theorem classesDepth?_eq (among : names ⊆ other) (all : other ⊆ names) :
    classesDepth? scopes names = classesDepth? scopes other := by
  cases met : classesDepth? scopes other with
  | some depth =>
    obtain ⟨lesser, le, met'⟩ := classesDepth?_subset among met
    obtain ⟨least, ge, again⟩ := classesDepth?_subset all met'
    obtain rfl := Option.some.inj (again.symm.trans met)
    rw [met', le_antisymm le ge]
  | none =>
    refine Option.eq_none_iff_forall_ne_some.mpr fun depth met' => ?_
    obtain ⟨_, -, again⟩ := classesDepth?_subset all met'
    exact nomatch met.symm.trans again

theorem rank?_perm (scopes : List String) (perm : names.Perm other) :
    (onClasses names).rank? scopes = (onClasses other).rank? scopes := by
  simp only [rank?, classesDepth?_eq perm.subset perm.symm.subset, perm.length_eq]

theorem length_lt_of_subset {α : Type} {names other : List α} (distinct : names.Nodup)
    (among : names ⊆ other) (more : ¬ other ⊆ names) : names.length < other.length := by
  have within := distinct.subperm among
  refine lt_of_le_of_ne within.length_le fun same => more ?_
  exact (within.perm_of_length_le same.ge).symm.subset

theorem rank?_subset {rank : Rank} (distinct : names.Nodup) (among : names ⊆ other)
    (more : ¬ other ⊆ names) (met : (onClasses other).rank? scopes = some rank) :
    ∃ lesser, (onClasses names).rank? scopes = some lesser ∧ lesser.before rank = true := by
  obtain ⟨depth, found, rfl⟩ := Option.map_eq_some_iff.mp met
  obtain ⟨lesser, le, found'⟩ := classesDepth?_subset among found
  refine ⟨_, Option.map_eq_some_iff.mpr ⟨lesser, found', rfl⟩, ?_⟩
  have fewer := length_lt_of_subset distinct among more
  simp only [Rank.before_iff, Rank.key, Prod.Lex.toLex_lt_toLex]
  grind

end Target

variable {theme : Theme} {scopes : List String}

theorem InOrder.eq_of_index (ordered : theme.InOrder) {a b : Rule} (known : a ∈ theme.rules)
    (known' : b ∈ theme.rules) (same : a.index = b.index) : a = b :=
  List.inj_on_of_nodup_map (List.pairwise_map.mpr (ordered.imp Nat.ne_of_lt)) known known' same

def Prevails (theme : Theme) (scopes : List String) (field : StyleField) (rule : Rule) : Prop :=
  ∃ winner, theme.Decides scopes field winner ∧
    (theme.resolve scopes).bind field.ofStyle = field.ofStyle winner.style ∧
      (winner = rule ∨ ∃ rank higher, rule.target.rank? scopes = some rank ∧
        winner.target.rank? scopes = some higher ∧
          standing rank rule.index < standing higher winner.index)

theorem prevails_of_sets (ordered : theme.InOrder) {rule : Rule} (known : rule ∈ theme.rules)
    (matched : rule.Matches scopes) {field : StyleField} (sets : field.ofStyle rule.style ≠ none) :
    theme.Prevails scopes field rule := by
  obtain ⟨rank, ranked⟩ := Option.isSome_iff_exists.mp matched
  have given : (theme.resolve scopes).bind field.ofStyle ≠ none := fun unset =>
    sets ((resolve_bind_eq_none_iff field.isLayered).mp unset rule known matched)
  obtain ⟨value, given⟩ := Option.ne_none_iff_exists'.mp given
  obtain ⟨winner, decides, own⟩ := (resolve_bind_eq_some_iff ordered field).mp given
  have ⟨known', _, greatest, ranked', above⟩ := decides
  refine ⟨winner, decides, given.trans own.symm, ?_⟩
  rcases (above rule known rank ranked sets).eq_or_lt with same | less
  · have index := (Prod.mk.inj (toLex.injective same)).2
    exact .inl (ordered.eq_of_index known' known index.symm)
  · exact .inr ⟨rank, greatest, ranked, ranked', less⟩

theorem standing_lt {lesser rank : Rank} (before : lesser.before rank = true) (a b : Nat) :
    standing lesser a < standing rank b :=
  Prod.Lex.toLex_lt_toLex.mpr (.inl ((Rank.before_iff _ _).mp before))

/-- The order of classes does not count. A rule that names further classes than another ranks above
it on every path that it matches, so what it sets prevails wherever the two are declared. -/
theorem classes_refine (theme : Theme) (name : Option String) (seed : List Color)
    (settings : List Setting) (made : theme = ofSettings name seed settings)
    (names other : List String) (distinct : names.Nodup) (scopes : List String) :
    (names.Perm other →
        (Target.onClasses names).rank? scopes = (Target.onClasses other).rank? scopes) ∧
      (names ⊆ other → ¬ other ⊆ names → ∀ rank,
        (Target.onClasses other).rank? scopes = some rank →
          ∃ lesser, (Target.onClasses names).rank? scopes = some lesser ∧
            lesser.before rank = true ∧
            ∀ small ∈ theme.rules, ∀ large ∈ theme.rules,
              small.target = .onClasses names → large.target = .onClasses other →
                ∀ field : StyleField, field.ofStyle large.style ≠ none →
                  theme.Prevails scopes field large ∧ ¬ theme.Decides scopes field small) := by
  have ordered : theme.InOrder := made ▸ ofSettings_inOrder name seed settings
  refine ⟨Target.rank?_perm scopes, fun among more rank met => ?_⟩
  obtain ⟨lesser, met', before⟩ := Target.rank?_subset distinct among more met
  refine ⟨lesser, met', before, fun small _ large known fewer further field sets => ?_⟩
  rw [← further] at met
  rw [← fewer] at met'
  refine ⟨prevails_of_sets ordered known (Option.isSome_of_eq_some met) sets, ?_⟩
  rintro ⟨-, -, rank', ranked, greatest⟩
  obtain rfl := Option.some.inj (met'.symm.trans ranked)
  exact (greatest large known rank met sets).not_gt (standing_lt before _ _)

-- The rule with further classes is declared first.
def refiningSettings : List Setting :=
  [{ Setting.empty with selector := some ".storage.invalid", background := some ⟨255, 0, 0⟩ },
    { Setting.empty with selector := some ".invalid", background := some ⟨255, 128, 128⟩ }]

def refining : Theme := ofSettings none [] refiningSettings

def refiningPath : List String := ["source", "invalid.deprecated", "storage.modifier"]

def further : Rule :=
  ⟨.onClasses ["storage", "invalid"], ⟨none, some 1, none, none, none, none⟩, 0⟩

def fewer : Rule := ⟨.onClasses ["invalid"], ⟨none, some 2, none, none, none, none⟩, 1⟩

theorem refining_rules : refining.rules = [further, fewer] := by
  cbv

theorem classes_refine_declaredFirst :
    (Target.onClasses ["storage", "invalid"]).rank? refiningPath =
        (Target.onClasses ["invalid", "storage"]).rank? refiningPath ∧
      refining.Prevails refiningPath (.color .background) further := by
  have met : (Target.onClasses ["storage", "invalid"]).rank? refiningPath =
      some ⟨.normal, ⟨3, 1, 2⟩⟩ := rfl
  obtain ⟨unordered, -⟩ := classes_refine refining none [] refiningSettings rfl
    ["storage", "invalid"] ["invalid", "storage"] (by decide) refiningPath
  obtain ⟨-, refines⟩ := classes_refine refining none [] refiningSettings rfl
    ["invalid"] ["storage", "invalid"] (by decide) refiningPath
  obtain ⟨_, -, -, prevails⟩ := refines (by simp) (by simp) _ met
  have known : fewer ∈ refining.rules ∧ further ∈ refining.rules := by simp [refining_rules]
  exact ⟨unordered (by decide),
    (prevails fewer known.1 further known.2 rfl rfl (.color .background) nofun).1⟩

end Theme

end Highlighter
