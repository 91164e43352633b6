import Highlighter.Proofs.Theme.Resolution
import Mathlib

set_option autoImplicit false

namespace Highlighter

inductive StyleField where
  | color (field : ColorField)
  | flag (flag : FontFlag)

namespace StyleField

def Value : StyleField → Type
  | .color _ => Nat
  | .flag _ => Bool

def ofStyle : (field : StyleField) → Style → Option field.Value
  | .color field, style => field.ofStyle style
  | .flag kind, style => kind.ofStyle style

theorem isLayered (field : StyleField) : Style.IsLayered field.ofStyle := by
  cases field with
  | color field => exact Style.color_isLayered field
  | flag flag => exact Style.flag_isLayered flag

end StyleField

theorem Style.eq_of_fields {a b : Style}
    (same : ∀ field : StyleField, field.ofStyle a = field.ofStyle b) : a = b := by
  obtain ⟨_, _, _, _, _, _⟩ := a
  obtain ⟨_, _, _, _, _, _⟩ := b
  have foreground := same (.color .foreground)
  have background := same (.color .background)
  have bold := same (.flag .bold)
  have italic := same (.flag .italic)
  have underline := same (.flag .underline)
  have strikethrough := same (.flag .strikethrough)
  simp_all [StyleField.ofStyle, ColorField.ofStyle, FontFlag.ofStyle]

namespace Priority

theorem value_inj {a b : Priority} : a.value = b.value ↔ a = b := by
  cases a <;> cases b <;> decide

end Priority

namespace Rank

def key (rank : Rank) : ℤ ×ₗ ℕ ×ₗ ℕ ×ₗ ℕ :=
  toLex (rank.priority.value, toLex (rank.specificity.depth,
    toLex (rank.specificity.segments, rank.specificity.atoms)))

theorem before_iff (a b : Rank) : a.before b = true ↔ a.key < b.key := by
  simp only [before, Specificity.before, key, Prod.Lex.toLex_lt_toLex, Bool.or_eq_true,
    Bool.and_eq_true, decide_eq_true_eq, beq_iff_eq, Priority.value_inj]

theorem key_inj {a b : Rank} : a.key = b.key ↔ a = b := by
  obtain ⟨_, _, _, _⟩ := a
  obtain ⟨_, _, _, _⟩ := b
  simp [key, Priority.value_inj]

end Rank

theorem findSome?_reverse_eq_some_iff {α β κ : Type} [LinearOrder κ] (key : α → κ)
    (give : α → Option β) {list : List α} (sorted : list.Pairwise fun a b => key a < key b)
    {value : β} : list.reverse.findSome? give = some value ↔
      ∃ item ∈ list, give item = some value ∧
        ∀ other ∈ list, give other ≠ none → key other ≤ key item := by
  induction list using List.reverseRecOn with
  | nil => simp
  | append_singleton list last ih =>
    obtain ⟨sorted, -, before⟩ := List.pairwise_append.mp sorted
    have split {item : α} (member : item ∈ list ++ [last]) : item ∈ list ∨ item = last := by
      simpa using member
    rw [List.reverse_concat, List.findSome?_cons]
    cases given : give last with
    | some own =>
      dsimp only
      constructor
      · intro same
        refine ⟨last, List.mem_concat_self, given.trans same, fun other member _ => ?_⟩
        rcases split member with inner | rfl
        · exact (before other inner last (List.mem_singleton.mpr rfl)).le
        · exact le_rfl
      · rintro ⟨item, member, here, greatest⟩
        rcases split member with inner | rfl
        · have less := before item inner last (List.mem_singleton.mpr rfl)
          exact absurd (greatest last List.mem_concat_self (by simp [given])) less.not_ge
        · exact given.symm.trans here
    | none =>
      dsimp only
      rw [ih sorted]
      constructor
      · rintro ⟨item, inner, here, greatest⟩
        refine ⟨item, List.mem_append_left _ inner, here, fun other member gives => ?_⟩
        rcases split member with inner | rfl
        · exact greatest other inner gives
        · exact absurd given gives
      · rintro ⟨item, member, here, greatest⟩
        rcases split member with inner | rfl
        · exact ⟨item, inner, here, fun other member =>
            greatest other (List.mem_append_left _ member)⟩
        · exact nomatch given.symm.trans here

namespace Theme

def standing (rank : Rank) (index : Nat) : (ℤ ×ₗ ℕ ×ₗ ℕ ×ₗ ℕ) ×ₗ ℕ := toLex (rank.key, index)

namespace Matched

def standing (found : Matched) : (ℤ ×ₗ ℕ ×ₗ ℕ ×ₗ ℕ) ×ₗ ℕ := Theme.standing found.rank found.rule.index

theorem before_iff (a b : Matched) : a.before b = true ↔ a.standing < b.standing := by
  simp only [before, standing, Theme.standing, Prod.Lex.toLex_lt_toLex, Rank.before_iff,
    Rank.key_inj, Bool.or_eq_true, Bool.and_eq_true, decide_eq_true_eq, beq_iff_eq]

end Matched

variable {theme : Theme} {scopes : List String}

def InOrder (theme : Theme) : Prop := theme.rules.Pairwise fun a b => a.index < b.index

theorem ofSettings_inOrder (name : Option String) (seed : List Color) (settings : List Setting) :
    (ofSettings name seed settings).InOrder := by
  suffices numbered : ∀ theme : Theme, theme.rules.map (·.index) = List.range theme.rules.length →
      (settings.foldl add theme).rules.map (·.index) =
        List.range (settings.foldl add theme).rules.length by
    have indices := numbered ⟨name, [], Style.empty, Palette.ofSeed seed⟩ rfl
    exact List.pairwise_map.mp (indices ▸ List.pairwise_lt_range)
  induction settings with
  | nil => exact fun _ numbered => numbered
  | cons setting rest ih =>
    refine fun theme numbered => ih _ ?_
    unfold add
    dsimp only
    split
    · exact numbered
    · exact numbered
    · split
      · simp [numbered, List.range_succ]
      · exact numbered

theorem mem_matched {found : Matched} : found ∈ theme.matched scopes ↔
    found.rule ∈ theme.rules ∧ found.rule.target.rank? scopes = some found.rank := by
  rw [matched, List.mem_filterMap]
  constructor
  · rintro ⟨rule, known, given⟩
    obtain ⟨rank, ranked, rfl⟩ := Option.map_eq_some_iff.mp given
    exact ⟨known, ranked⟩
  · rintro ⟨known, ranked⟩
    exact ⟨found.rule, known, Option.map_eq_some_iff.mpr ⟨found.rank, ranked, rfl⟩⟩

theorem ranked_perm (theme : Theme) (scopes : List String) :
    (theme.ranked scopes).Perm (theme.matched scopes) :=
  List.mergeSort_perm _ _

-- No two of the matching rules have one standing, since each has its own place.
theorem ranked_sorted (ordered : theme.InOrder) :
    (theme.ranked scopes).Pairwise fun a b => a.standing < b.standing := by
  have least : (theme.ranked scopes).Pairwise fun a b => a.standing ≤ b.standing := by
    have le_iff (a b : Matched) : (!b.before a) = true ↔ a.standing ≤ b.standing := by
      rw [Bool.not_eq_true', ← Bool.not_eq_true, Matched.before_iff, not_lt]
    refine (List.pairwise_mergeSort (fun a b c => ?_) (fun a b => ?_) _).imp fun {a b} => (le_iff a b).mp
    · rw [le_iff, le_iff, le_iff]
      exact le_trans
    · rw [Bool.or_eq_true, le_iff, le_iff]
      exact le_total _ _
  have apart : ((theme.ranked scopes).map (·.rule.index)).Nodup := by
    rw [((theme.ranked_perm scopes).map _).nodup_iff, List.Nodup, List.pairwise_map]
    refine List.pairwise_filterMap.mpr (ordered.imp fun {a b} before => ?_)
    rintro _ first _ second
    obtain ⟨_, -, rfl⟩ := Option.map_eq_some_iff.mp first
    obtain ⟨_, -, rfl⟩ := Option.map_eq_some_iff.mp second
    exact before.ne
  refine (least.and (List.pairwise_map.mp apart)).imp fun {a b} ⟨le, apart⟩ => le.lt_of_ne ?_
  exact fun same => apart (Prod.mk.inj (toLex.injective same)).2

theorem resolve_eq_none_iff :
    theme.resolve scopes = none ↔ ∀ rule ∈ theme.rules, ¬ rule.Matches scopes := by
  have empty : theme.resolve scopes = none ↔ (theme.ranked scopes).map (·.rule) = [] := by
    unfold resolve
    split <;> simp_all
  rw [empty, List.eq_nil_iff_forall_not_mem]
  exact forall_congr' fun rule => mem_ranked.not.trans not_and

/-- Of the rules that match the path and set the field it is the one of the greatest standing. -/
def Decides (theme : Theme) (scopes : List String) (field : StyleField) (rule : Rule) : Prop :=
  rule ∈ theme.rules ∧ field.ofStyle rule.style ≠ none ∧
    ∃ rank, rule.target.rank? scopes = some rank ∧
      ∀ other ∈ theme.rules, ∀ lesser, other.target.rank? scopes = some lesser →
        field.ofStyle other.style ≠ none → standing lesser other.index ≤ standing rank rule.index

theorem resolve_bind_eq_some_iff (ordered : theme.InOrder) (field : StyleField)
    {value : field.Value} : (theme.resolve scopes).bind field.ofStyle = some value ↔
      ∃ rule, theme.Decides scopes field rule ∧ field.ofStyle rule.style = some value := by
  rw [resolve_bind field.isLayered, ← List.map_reverse, List.findSome?_map,
    findSome?_reverse_eq_some_iff Matched.standing _ (ranked_sorted ordered)]
  have listed (found : Matched) : found ∈ theme.ranked scopes ↔
      found.rule ∈ theme.rules ∧ found.rule.target.rank? scopes = some found.rank :=
    (theme.ranked_perm scopes).mem_iff.trans mem_matched
  simp only [Function.comp_apply]
  constructor
  · rintro ⟨⟨rank, rule⟩, member, given, greatest⟩
    obtain ⟨known, ranked⟩ := (listed _).mp member
    refine ⟨rule, ⟨known, by simp_all, rank, ranked, fun other known lesser ranked => ?_⟩, given⟩
    exact greatest ⟨lesser, other⟩ ((listed _).mpr ⟨known, ranked⟩)
  · rintro ⟨rule, ⟨known, -, rank, ranked, greatest⟩, given⟩
    refine ⟨⟨rank, rule⟩, (listed _).mpr ⟨known, ranked⟩, given, fun other member => ?_⟩
    obtain ⟨known, ranked⟩ := (listed _).mp member
    exact greatest other.rule known other.rank ranked

def stylesAt (theme : Theme) (scopes : List String) (rank : Rank) : List Style :=
  (theme.rules.filter fun rule => rule.target.rank? scopes == some rank).map (·.style)

theorem mem_stylesAt {rank : Rank} {style : Style} : style ∈ theme.stylesAt scopes rank ↔
    ∃ rule ∈ theme.rules, rule.target.rank? scopes = some rank ∧ rule.style = style := by
  simp [stylesAt, and_assoc]

theorem resolve_eq_none_iff_stylesAt :
    theme.resolve scopes = none ↔ ∀ rank, theme.stylesAt scopes rank = [] := by
  rw [resolve_eq_none_iff]
  constructor
  · intro none rank
    refine List.eq_nil_iff_forall_not_mem.mpr fun style member => ?_
    obtain ⟨rule, known, ranked, -⟩ := mem_stylesAt.mp member
    exact none rule known (Option.isSome_of_eq_some ranked)
  · intro empty rule known matched
    obtain ⟨rank, ranked⟩ := Option.isSome_iff_exists.mp matched
    exact List.eq_nil_iff_forall_not_mem.mp (empty rank) _
      (mem_stylesAt.mpr ⟨rule, known, ranked, rfl⟩)

theorem exists_decides_iff (ordered : theme.InOrder) (field : StyleField) {value : field.Value} :
    (∃ rule, theme.Decides scopes field rule ∧ field.ofStyle rule.style = some value) ↔
      ∃ rank, (theme.stylesAt scopes rank).reverse.findSome? field.ofStyle = some value ∧
        ∀ lesser, (∃ style ∈ theme.stylesAt scopes lesser, field.ofStyle style ≠ none) →
          lesser.key ≤ rank.key := by
  have last (rank : Rank) : (theme.stylesAt scopes rank).reverse.findSome? field.ofStyle =
      some value ↔ ∃ rule ∈ theme.rules.filter (fun rule => rule.target.rank? scopes == some rank),
        field.ofStyle rule.style = some value ∧
          ∀ other ∈ theme.rules.filter fun rule => rule.target.rank? scopes == some rank,
            field.ofStyle other.style ≠ none → other.index ≤ rule.index := by
    rw [stylesAt, ← List.map_reverse, List.findSome?_map]
    exact findSome?_reverse_eq_some_iff Rule.index _ (ordered.filter _)
  simp only [last, mem_stylesAt, List.mem_filter, beq_iff_eq]
  constructor
  · rintro ⟨rule, ⟨known, -, rank, ranked, greatest⟩, given⟩
    refine ⟨rank, ⟨rule, ⟨known, ranked⟩, given, fun other ⟨known, ranked⟩ sets => ?_⟩, ?_⟩
    · have le := greatest other known rank ranked sets
      exact (Prod.Lex.toLex_le_toLex.mp le).elim (fun less => absurd less (lt_irrefl _)) (·.2)
    · rintro lesser ⟨_, ⟨other, known, ranked, rfl⟩, sets⟩
      have le := greatest other known lesser ranked sets
      exact (Prod.Lex.toLex_le_toLex.mp le).elim (·.le) (·.1.le)
  · rintro ⟨rank, ⟨rule, ⟨known, ranked⟩, given, last⟩, greatest⟩
    refine ⟨rule, ⟨known, by simp [given], rank, ranked, fun other within lesser met sets => ?_⟩,
      given⟩
    refine Prod.Lex.toLex_le_toLex.mpr ?_
    rcases (greatest lesser ⟨_, ⟨other, within, met, rfl⟩, sets⟩).lt_or_eq with less | same
    · exact .inl less
    · obtain rfl := Rank.key_inj.mp same
      exact .inr ⟨rfl, last other ⟨within, met⟩ sets⟩

theorem resolve_eq_of_stylesAt {other : Theme} (ordered : theme.InOrder)
    (ordered' : other.InOrder)
    (same : ∀ rank, theme.stylesAt scopes rank = other.stylesAt scopes rank) :
    theme.resolve scopes = other.resolve scopes := by
  have none_iff : theme.resolve scopes = none ↔ other.resolve scopes = none := by
    simp only [resolve_eq_none_iff_stylesAt, same]
  have bind (field : StyleField) :
      (theme.resolve scopes).bind field.ofStyle = (other.resolve scopes).bind field.ofStyle := by
    refine Option.ext fun value => ?_
    rw [resolve_bind_eq_some_iff ordered, resolve_bind_eq_some_iff ordered',
      exists_decides_iff ordered, exists_decides_iff ordered']
    simp only [same]
  cases first : theme.resolve scopes with
  | none => exact (none_iff.mp first).symm
  | some style =>
    cases second : other.resolve scopes with
    | none => exact nomatch first.symm.trans (none_iff.mpr second)
    | some style' =>
      rw [first, second] at bind
      exact congrArg some (Style.eq_of_fields bind)

/-- A path is given no style just when no rule matches it. Otherwise it has each field from the rule
of the greatest standing among the matching rules that set the field, and lacks it just when none
does. The order of declaration counts only among rules that match with one rank. -/
theorem resolve_most_specific (theme : Theme) (name : Option String) (seed : List Color)
    (settings : List Setting) (made : theme = ofSettings name seed settings)
    (scopes : List String) :
    (theme.resolve scopes = none ↔ ∀ rule ∈ theme.rules, ¬ rule.Matches scopes) ∧
      (∀ field : StyleField,
        ((theme.resolve scopes).bind field.ofStyle = none ↔
          ∀ rule ∈ theme.rules, rule.Matches scopes → field.ofStyle rule.style = none) ∧
        ∀ value, (theme.resolve scopes).bind field.ofStyle = some value ↔
          ∃ rule, theme.Decides scopes field rule ∧ field.ofStyle rule.style = some value) ∧
      ∀ (other : Theme) (name' : Option String) (seed' : List Color) (settings' : List Setting),
        other = ofSettings name' seed' settings' →
        (∀ rank, theme.stylesAt scopes rank = other.stylesAt scopes rank) →
          theme.resolve scopes = other.resolve scopes := by
  have ordered : theme.InOrder := made ▸ ofSettings_inOrder name seed settings
  refine ⟨resolve_eq_none_iff, fun field => ⟨resolve_bind_eq_none_iff field.isLayered,
    fun _ => resolve_bind_eq_some_iff ordered field⟩, ?_⟩
  rintro other name' seed' settings' rfl same
  exact resolve_eq_of_stylesAt ordered (ofSettings_inOrder name' seed' settings') same

-- The two rules for `a` come in the same order in both themes.
def layeredSettings : List Setting :=
  [{ Setting.empty with selector := some "a", foreground := some ⟨1, 0, 0⟩, bold := some true },
    { Setting.empty with selector := some "b", foreground := some ⟨2, 0, 0⟩ },
    { Setting.empty with selector := some "a", bold := some false }]

def shuffledSettings : List Setting :=
  [{ Setting.empty with selector := some "a", foreground := some ⟨1, 0, 0⟩, bold := some true },
    { Setting.empty with selector := some "a", bold := some false },
    { Setting.empty with selector := some "b", foreground := some ⟨2, 0, 0⟩ }]

def layered : Theme := ofSettings none [] layeredSettings

def shuffled : Theme := ofSettings none [] shuffledSettings

def outerRank : Rank := ⟨.normal, ⟨1, 1, 1⟩⟩

def innerRank : Rank := ⟨.normal, ⟨2, 1, 1⟩⟩

def outlined (theme : Theme) : List (Option Rank × Style) :=
  theme.rules.map fun rule => (rule.target.rank? ["a", "b"], rule.style)

theorem stylesAt_outlined (theme : Theme) (rank : Rank) : theme.stylesAt ["a", "b"] rank =
    (theme.outlined.filter fun entry => entry.1 == some rank).map (·.2) := by
  simp [stylesAt, outlined, List.filter_map, Function.comp_def]

theorem layered_stylesAt (rank : Rank) :
    layered.stylesAt ["a", "b"] rank = shuffled.stylesAt ["a", "b"] rank := by
  have first : layered.outlined = [(some outerRank, ⟨some 1, none, some true, none, none, none⟩),
      (some innerRank, ⟨some 2, none, none, none, none, none⟩),
      (some outerRank, ⟨none, none, some false, none, none, none⟩)] := by cbv
  have second : shuffled.outlined = [(some outerRank, ⟨some 1, none, some true, none, none, none⟩),
      (some outerRank, ⟨none, none, some false, none, none, none⟩),
      (some innerRank, ⟨some 2, none, none, none, none, none⟩)] := by cbv
  rw [stylesAt_outlined, stylesAt_outlined, first, second]
  have apart : innerRank ≠ outerRank := by decide
  by_cases outer : outerRank = rank <;> by_cases inner : innerRank = rank <;> simp_all

theorem layered_bold : (layered.resolve ["a", "b"]).bind FontFlag.bold.ofStyle = some false := by
  cbv

theorem resolve_most_specific_shuffled :
    (∃ rule, layered.Decides ["a", "b"] (.flag .bold) rule ∧ rule.style.bold = some false) ∧
      layered.resolve ["a", "b"] = shuffled.resolve ["a", "b"] := by
  obtain ⟨-, fields, order⟩ :=
    resolve_most_specific layered none [] layeredSettings rfl ["a", "b"]
  exact ⟨((fields (.flag .bold)).2 false).mp layered_bold,
    order shuffled none [] shuffledSettings rfl layered_stylesAt⟩

end Theme

end Highlighter
