import Highlighter.Proofs.Theme.Resolution

set_option autoImplicit false

namespace Highlighter

namespace Theme

variable {α : Type} {theme : Theme} {part : Style → Option α} {scopes : List String}

def latest? (theme : Theme) (part : Style → Option α) (scopes : List String) : Option α :=
  scopes.inits.tail.reverse.findSome? fun lead => (theme.resolve lead).bind part

theorem latest?_concat (scopes : List String) (scope : String) :
    theme.latest? part (scopes ++ [scope]) =
      ((theme.resolve (scopes ++ [scope])).bind part).or (theme.latest? part scopes) := by
  have leads : (scopes ++ [scope]).inits.tail = scopes.inits.tail ++ [scopes ++ [scope]] := by
    rw [List.inits_append, List.tail_append_of_ne_nil (by cases scopes <;> simp)]
    rfl
  rw [latest?, leads, List.reverse_concat, List.findSome?_cons]
  cases (theme.resolve (scopes ++ [scope])).bind part <;> rfl

theorem latest?_eq_none (unset : ∀ lead, lead <+: scopes → (theme.resolve lead).bind part = none) :
    theme.latest? part scopes = none := by
  refine List.findSome?_eq_none_iff.mpr fun lead member => unset lead ?_
  exact (List.mem_inits lead scopes).mp (List.mem_of_mem_tail (List.mem_reverse.mp member))

theorem lead_of_latest? {value : α} (given : theme.latest? part scopes = some value) :
    ∃ lead, lead <+: scopes ∧ (theme.resolve lead).bind part = some value := by
  obtain ⟨lead, member, here⟩ := List.exists_of_findSome?_eq_some given
  exact ⟨lead, (List.mem_inits lead scopes).mp
    (List.mem_of_mem_tail (List.mem_reverse.mp member)), here⟩

theorem latest?_of_resolve (present : scopes ≠ []) {value : α}
    (resolved : (theme.resolve scopes).bind part = some value) :
    theme.latest? part scopes = some value := by
  obtain ⟨outer, last, rfl⟩ := (List.eq_nil_or_concat' scopes).resolve_left present
  rw [latest?_concat, resolved, Option.some_or]

theorem latest?_eq_resolve (present : scopes ≠ [])
    (fades : (theme.resolve scopes).bind part = none → ∀ lead, lead <+: scopes →
      (theme.resolve lead).bind part = none) :
    theme.latest? part scopes = (theme.resolve scopes).bind part := by
  cases resolved : (theme.resolve scopes).bind part with
  | some value => exact latest?_of_resolve present resolved
  | none => exact latest?_eq_none (fades resolved)

theorem latest?_color (plain : theme.isPlain = true) (present : scopes ≠ []) (field : ColorField) :
    theme.latest? field.ofStyle scopes = (theme.resolve scopes).bind field.ofStyle := by
  refine latest?_eq_resolve present ?_
  rintro unset lead ⟨more, rfl⟩
  exact resolve_bind_of_append (Style.color_isLayered field) plain more unset

theorem latest?_font? (plain : theme.isPlain = true) (present : scopes ≠ []) :
    theme.latest? (·.font?) scopes = (theme.resolve scopes).bind (·.font?) := by
  refine latest?_eq_resolve present ?_
  rintro unset lead ⟨more, rfl⟩
  exact resolve_font?_of_append plain more unset

theorem Colored.resolve (colored : theme.Colored) {field : ColorField} {id : Nat}
    (given : (theme.resolve scopes).bind field.ofStyle = some id) :
    0 < id ∧ id ≤ largestColor := by
  obtain ⟨rule, known, _, set⟩ := rule_of_resolve (Style.color_isLayered field) given
  exact colored.rules rule known field id set

theorem Colored.latest? (colored : theme.Colored) {field : ColorField} {id : Nat}
    (given : theme.latest? field.ofStyle scopes = some id) : 0 < id ∧ id ≤ largestColor := by
  obtain ⟨lead, _, resolved⟩ := lead_of_latest? given
  exact colored.resolve resolved

/-- Where the path as a whole is given no value, no lead of it was given any but the default. -/
def Forgets (theme : Theme) (part : Style → Option α) (default : Option α) (scopes : List String) :
    Prop :=
  (theme.resolve scopes).bind part = none →
    ∀ value, theme.latest? part scopes = some value → default = some value

def Gives (theme : Theme) (field : ColorField) (scopes : List String) (id : Nat) : Prop :=
  field.ofStyle theme.defaults = some id ∨
    ∃ rule ∈ theme.rules, rule.Matches scopes ∧ field.ofStyle rule.style = some id

def latestColor (theme : Theme) (field : ColorField) (scopes : List String) : Nat :=
  ((theme.latest? field.ofStyle scopes).or (field.ofStyle theme.defaults)).getD 0

def latestFont (theme : Theme) (scopes : List String) : FontStyle :=
  (theme.latest? (·.font?) scopes).getD theme.defaults.flags

theorem latestColor_concat (field : ColorField) (scopes : List String) (scope : String) :
    theme.latestColor field (scopes ++ [scope]) =
      ((theme.resolve (scopes ++ [scope])).bind field.ofStyle).getD
        (theme.latestColor field scopes) := by
  rw [latestColor, latest?_concat]
  cases (theme.resolve (scopes ++ [scope])).bind field.ofStyle <;> rfl

theorem latestFont_concat (scopes : List String) (scope : String) :
    theme.latestFont (scopes ++ [scope]) =
      ((theme.resolve (scopes ++ [scope])).bind (·.font?)).getD (theme.latestFont scopes) := by
  rw [latestFont, latest?_concat]
  cases (theme.resolve (scopes ++ [scope])).bind (·.font?) <;> rfl

theorem forgets_color (plain : theme.isPlain = true) (present : scopes ≠ []) (field : ColorField) :
    theme.Forgets field.ofStyle (field.ofStyle theme.defaults) scopes := by
  intro unset value given
  rw [latest?_color plain present, unset] at given
  exact nomatch given

theorem latestColor_eq_iff (colored : theme.Colored) (present : scopes ≠ []) (field : ColorField) :
    theme.latestColor field scopes = (field.ofStyle (theme.styleAt scopes)).getD 0 ↔
      theme.Forgets field.ofStyle (field.ofStyle theme.defaults) scopes := by
  rw [latestColor, part_styleAt (Style.color_isLayered field), Forgets]
  cases resolved : (theme.resolve scopes).bind field.ofStyle with
  | some id => simp [latest?_of_resolve present resolved]
  | none =>
    cases given : theme.latest? field.ofStyle scopes with
    | none => simp
    | some id =>
      have positive := (colored.latest? given).1
      cases default : field.ofStyle theme.defaults with
      | none => simp; omega
      | some other => simp [eq_comm]

theorem gives_iff (colored : theme.Colored) (present : scopes ≠ []) (field : ColorField) :
    (theme.latestColor field scopes ≠ 0 → theme.Gives field scopes (theme.latestColor field scopes)) ↔
      theme.Forgets field.ofStyle (field.ofStyle theme.defaults) scopes := by
  have layered := Style.color_isLayered field
  rw [latestColor]
  cases given : theme.latest? field.ofStyle scopes with
  | none =>
    refine iff_of_true (fun some => .inl ?_) fun _ _ found => nomatch given.symm.trans found
    cases default : field.ofStyle theme.defaults with
    | none => simp [default] at some
    | some id => simp
  | some id =>
    have positive := (colored.latest? given).1
    rw [Option.some_or, Option.getD_some]
    constructor
    · intro owed unset value found
      obtain rfl := Option.some.inj (given.symm.trans found)
      obtain default | ⟨rule, known, matched, set⟩ := owed positive.ne'
      · exact default
      · rw [(resolve_bind_eq_none_iff layered).mp unset rule known matched] at set
        exact nomatch set
    · intro forgets _
      cases resolved : (theme.resolve scopes).bind field.ofStyle with
      | none => exact .inl (forgets resolved id given)
      | some other =>
        obtain rfl := Option.some.inj ((latest?_of_resolve present resolved).symm.trans given)
        exact .inr (rule_of_resolve layered resolved)

/-- Where the path as a whole is given a font style, the style settles each flag that the defaults
turn on; where it is given none, no lead of it was given any but that of the defaults. -/
structure KeepsFont (theme : Theme) (scopes : List String) : Prop where
  settles : (theme.resolve scopes).bind (·.font?) ≠ none → ∀ flag : FontFlag,
    flag.ofStyle theme.defaults = some true → (theme.resolve scopes).bind flag.ofStyle ≠ none
  forgets : theme.Forgets (·.font?) (some theme.defaults.flags) scopes

theorem latestFont_eq_iff (present : scopes ≠ []) :
    theme.latestFont scopes = (theme.styleAt scopes).flags ↔ theme.KeepsFont scopes := by
  unfold latestFont
  have parts (flag : FontFlag) : flag.ofStyle (theme.styleAt scopes) = _ :=
    part_styleAt (Style.flag_isLayered flag)
  cases given : (theme.resolve scopes).bind (·.font?) with
  | some font =>
    obtain ⟨style, resolved, same⟩ := Option.bind_eq_some_iff.mp given
    obtain rfl := Style.flags_of_font? same
    rw [latest?_of_resolve present given, Option.getD_some, Style.flags_eq_iff]
    simp only [parts, resolved, Option.bind_some]
    constructor
    · intro agree
      refine ⟨fun _ flag default unset => ?_, fun none => nomatch given.symm.trans none⟩
      rw [resolved, Option.bind_some] at unset
      have turned := (agree flag).mpr (by rw [unset, Option.none_or, default])
      exact nomatch unset.symm.trans turned
    · intro keeps flag
      cases set : flag.ofStyle style with
      | some on => simp
      | none =>
        refine iff_of_false nofun fun default => ?_
        exact keeps.settles (by simp [given]) flag default (by rw [resolved, Option.bind_some, set])
  | none =>
    have flags : (theme.styleAt scopes).flags = theme.defaults.flags := by
      refine (Style.flags_eq_iff _ _).mpr fun flag => ?_
      rw [parts, resolve_font?_eq_none_iff.mp given flag, Option.none_or]
    rw [flags]
    constructor
    · intro agree
      refine ⟨fun some => absurd given some, fun _ font found => ?_⟩
      rw [found, Option.getD_some] at agree
      rw [agree]
    · intro keeps
      cases found : theme.latest? (·.font?) scopes with
      | none => rfl
      | some font => exact (Option.some.inj (keeps.forgets given font found)).symm

theorem keepsFont_of_isPlain (plain : theme.isPlain = true) (present : scopes ≠ [])
    (whole : (∀ flag : FontFlag, flag.ofStyle theme.defaults ≠ some true) ∨
      ∀ rule ∈ theme.rules, ∀ a b : FontFlag, a.ofStyle rule.style = none →
        b.ofStyle rule.style = none) : theme.KeepsFont scopes where
  settles := by
    intro given flag default unset
    obtain dark | whole := whole
    · exact dark flag default
    · refine given (resolve_font?_eq_none_iff.mpr fun other => ?_)
      refine (resolve_bind_eq_none_iff (Style.flag_isLayered other)).mpr fun rule known matched => ?_
      exact whole rule known flag other
        ((resolve_bind_eq_none_iff (Style.flag_isLayered flag)).mp unset rule known matched)
  forgets := by
    intro unset font given
    rw [latest?_font? plain present, unset] at given
    exact nomatch given

end Theme

end Highlighter
