import Highlighter.Proofs.Grammar.Painting
import Highlighter.Proofs.Line.Packing

set_option autoImplicit false

namespace Highlighter

namespace Text

theorem isSpace_of_ascii {c : Char} (blank : isAsciiSpace c = true) : isSpace c = true := by
  simp only [isAsciiSpace, Bool.or_eq_true, beq_iff_eq] at blank
  obtain (((rfl | rfl) | rfl) | rfl) | rfl := blank <;> rfl

end Text

theorem GrammarDecl.words_scopeName {decl : GrammarDecl} (valid : decl.validate = .ok ()) :
    Text.words Text.isAsciiSpace decl.scopeName.toList ≠ [] := by
  unfold validate at valid
  split at valid
  · exact nomatch valid
  · rename_i named
    obtain ⟨name, given, unblank⟩ : ∃ name, decl.scopeName? = some name ∧
        Text.isBlankText name = false := by
      cases given : decl.scopeName? with
      | none => simp [given] at named
      | some name => exact ⟨name, rfl, by simpa [given] using named⟩
    obtain ⟨c, member, visible⟩ := List.all_eq_false.mp unblank
    refine Text.wordsFrom_ne_nil _ _ _ (.inr ⟨c, by simpa [scopeName, given] using member, ?_⟩)
    by_contra blank
    exact visible (Text.isSpace_of_ascii (by simpa using blank))

namespace Grammar

variable {grammar : Grammar}

def Painted (grammar : Grammar) (path : ScopePath) : Prop :=
  grammar.Paints path ∧ path.names ≠ []

theorem painted_grows (path : ScopePath) (name : Option String) (painted : grammar.Painted path) :
    grammar.Painted (grammar.pathAfter path name) := by
  refine ⟨paints_pathAfter path name painted.1, fun bare => painted.2 ?_⟩
  have grown : path.names <+: (grammar.pathAfter path name).names := names_pathAfter path name
  exact List.prefix_nil.mp (bare ▸ grown)

theorem firstStack_painted (valid : grammar.decl.validate = .ok ()) :
    grammar.firstStack.OnPaths grammar.Painted := by
  have painted : grammar.Painted grammar.firstStack.contentScopes := by
    refine ⟨paints_pathAfter _ (some grammar.scopeName) (paints_empty grammar), ?_⟩
    rw [firstStack_names]
    exact fun bare => GrammarDecl.words_scopeName valid (List.map_eq_nil_iff.mp bare)
  intro frame member
  obtain rfl := List.mem_singleton.mp member
  exact ⟨painted, painted⟩

theorem reached_painted (valid : grammar.decl.validate = .ok ()) {stack : Stack}
    (reached : Reached (· = grammar) stack) : stack.OnPaths grammar.Painted := by
  have grounds (other : Grammar) (same : other = grammar) :
      other.Grounds grammar.Painted (·.OnPaths grammar.Painted) := by
    obtain rfl := same
    exact onPaths_grounds painted_grows
  have first (other : Grammar) (same : other = grammar) :
      other.firstStack.OnPaths grammar.Painted := by
    obtain rfl := same
    exact firstStack_painted valid
  exact reached.keeps grounds first

theorem startOfLine_painted (valid : grammar.decl.validate = .ok ()) (prior : Option Stack)
    (earlier : ∀ stack, prior = some stack → Reached (· = grammar) stack) :
    (grammar.startOfLine prior).OnPaths grammar.Painted := by
  cases prior with
  | none => exact firstStack_painted valid
  | some stack => exact reached_painted valid (earlier stack rfl)

section

variable (grammar) (valid : grammar.decl.validate = .ok ()) (theme : Theme)
  (themed : grammar.theme = some theme) (prior : Option Stack)
  (earlier : ∀ stack, prior = some stack → Reached (· = grammar) stack) (depth : Nat)
  (line : String) (checks : Option Nat) (caches : Caches grammar)

include valid earlier

theorem tokenize_painted :
    ∀ token ∈ ((tokenize depth line prior checks false).run caches).1.emitted.tokens,
      grammar.Places grammar.Painted token :=
  ((onPaths_grounds painted_grows).tokenize depth line prior checks false caches
    (startOfLine_painted valid prior earlier)).2

include themed

/-- Under a theme that excludes no paths, the colors of a token are those of its path. -/
theorem tokenize_colors_agree (name : Option String) (seed : List Color)
    (settings : List Theme.Setting) (made : theme = Theme.ofSettings name seed settings)
    (plain : theme.isPlain = true) :
    ∀ token ∈ ((tokenize depth line prior checks false).run caches).1.emitted.tokens,
      Metadata.foreground token.metadata = (theme.styleAt token.scopes).foreground.getD 0 ∧
        Metadata.background token.metadata = (theme.styleAt token.scopes).background.getD 0 := by
  intro token member
  have colored : theme.Colored := made ▸ Theme.ofSettings_colored name seed settings
  obtain ⟨path, ⟨painted, named⟩, scopes, metadata⟩ :=
    tokenize_painted grammar valid prior earlier depth line checks caches token member
  have agree (field : ColorField) : field.ofWord token.metadata =
      (field.ofStyle (theme.styleAt token.scopes)).getD 0 := by
    rw [scopes, metadata, color_tokenMetadata painted named themed colored field]
    exact (Theme.latestColor_eq_iff colored named field).mpr
      (Theme.forgets_color plain named field)
  exact ⟨agree .foreground, agree .background⟩

/-- The flags of a token are those of its path where the theme keeps its defaults there. -/
theorem tokenize_font_agrees_iff :
    ∀ token ∈ ((tokenize depth line prior checks false).run caches).1.emitted.tokens,
      Metadata.font token.metadata = (theme.styleAt token.scopes).flags ↔
        theme.KeepsFont token.scopes := by
  intro token member
  obtain ⟨path, ⟨painted, named⟩, scopes, metadata⟩ :=
    tokenize_painted grammar valid prior earlier depth line checks caches token member
  rw [scopes, metadata, font_tokenMetadata painted named themed]
  exact Theme.latestFont_eq_iff named

/-- A color of a token is that of a rule that matches its path, or the default, and what the path as
a whole is given, where no color of a lead is left over. -/
theorem tokenize_color_given_iff (name : Option String) (seed : List Color)
    (settings : List Theme.Setting) (made : theme = Theme.ofSettings name seed settings) :
    ∀ token ∈ ((tokenize depth line prior checks false).run caches).1.emitted.tokens,
      ∀ field : ColorField,
        let id := field.ofWord token.metadata
        let forgets := theme.Forgets field.ofStyle (field.ofStyle theme.defaults) token.scopes
        ((id ≠ 0 → theme.Gives field token.scopes id) ↔ forgets) ∧
          (id = (field.ofStyle (theme.styleAt token.scopes)).getD 0 ↔ forgets) := by
  intro token member field
  have colored : theme.Colored := made ▸ Theme.ofSettings_colored name seed settings
  obtain ⟨path, ⟨painted, named⟩, scopes, metadata⟩ :=
    tokenize_painted grammar valid prior earlier depth line checks caches token member
  dsimp only
  rw [scopes, metadata, color_tokenMetadata painted named themed colored field]
  exact ⟨Theme.gives_iff colored named field, Theme.latestColor_eq_iff colored named field⟩

end

end Grammar

namespace Theme

-- All text is bold, the scope `t` has a color and the scope `n` is italic.
def mixedSettings : List Setting :=
  [⟨none, none, none, none, some true, none, none, none⟩,
    ⟨some ".t", some ⟨255, 0, 0⟩, none, none, none, none, none, none⟩,
    ⟨some ".n", none, none, none, none, some true, none, none⟩]

def mixed : Theme :=
  ⟨none,
    [⟨.onClasses ["t"], { Style.empty with foreground := some 1 }, 0⟩,
      ⟨.onClasses ["n"], { Style.empty with italic := some true }, 1⟩],
    { Style.empty with bold := some true }, ⟨[(⟨255, 0, 0⟩, 1)], [⟨255, 0, 0⟩]⟩⟩

theorem mixed_made : mixed = ofSettings none [] mixedSettings := by cbv

end Theme

namespace Grammar

def mixed : Grammar := naming.withTheme (some Theme.mixed)

theorem mixed_tokens :
    ((tokenize 9 "xa" none none false).run (Caches.empty mixed)).1.emitted.tokens =
      [⟨0, 1, ["t", "n"], 262145⟩, ⟨1, 2, ["t"], 524289⟩] := by
  rw [mixed, naming_eq]
  cbv

theorem naming_valid : naming.decl.validate = .ok () := rfl

theorem tokenize_colors_agree_mixed :
    Metadata.foreground 262145 = (Theme.mixed.styleAt ["t", "n"]).foreground.getD 0 ∧
      Metadata.background 262145 = (Theme.mixed.styleAt ["t", "n"]).background.getD 0 :=
  tokenize_colors_agree mixed naming_valid Theme.mixed rfl none (fun _ => nofun) 9 "xa" none
    (Caches.empty mixed) none [] Theme.mixedSettings Theme.mixed_made (by rfl)
    ⟨0, 1, ["t", "n"], 262145⟩ (by rw [mixed_tokens]; simp)

theorem mixed_flags : Metadata.font 524289 = (Theme.mixed.styleAt ["t"]).flags := by cbv

theorem tokenize_font_agrees_iff_mixed : Theme.mixed.KeepsFont ["t"] :=
  (tokenize_font_agrees_iff mixed naming_valid Theme.mixed rfl none (fun _ => nofun) 9 "xa" none
    (Caches.empty mixed) ⟨1, 2, ["t"], 524289⟩ (by rw [mixed_tokens]; simp)).mp mixed_flags

theorem font_not_kept_mixed :
    ¬ ∀ token ∈ ((tokenize 9 "xa" none none false).run (Caches.empty mixed)).1.emitted.tokens,
      Metadata.font token.metadata = (Theme.mixed.styleAt token.scopes).flags := by
  intro agree
  rw [mixed_tokens] at agree
  have first := agree ⟨0, 1, ["t", "n"], 262145⟩ List.mem_cons_self
  have italic : Metadata.font 262145 = .italic := by cbv
  have both : (Theme.mixed.styleAt ["t", "n"]).flags = .union .bold .italic := by cbv
  exact absurd (italic.symm.trans (first.trans both)) (by decide)

end Grammar

namespace Theme

-- The scope `t` has a color outside of the scope `n`.
def outerSettings : List Setting :=
  [⟨some "t -n", some ⟨255, 0, 0⟩, none, none, none, none, none, none⟩]

def outerRule : Rule :=
  ⟨.onScopes ⟨"t -n", [⟨.and [.path ["t"], .not (.path ["n"])], .normal⟩]⟩,
    { Style.empty with foreground := some 1 }, 0⟩

def outer : Theme := ⟨none, [outerRule], Style.empty, ⟨[(⟨255, 0, 0⟩, 1)], [⟨255, 0, 0⟩]⟩⟩

theorem outer_made : outer = ofSettings none [] outerSettings := by cbv

theorem outerRule_excludes : outerRule.target.rank? ["t", "n"] = none := by cbv

end Theme

namespace Grammar

def outer : Grammar := naming.withTheme (some Theme.outer)

theorem outer_tokens :
    ((tokenize 9 "xa" none none false).run (Caches.empty outer)).1.emitted.tokens =
      [⟨0, 1, ["t", "n"], 1⟩, ⟨1, 2, ["t"], 1⟩] := by
  rw [outer, naming_eq]
  cbv

theorem outer_color : (Theme.outer.styleAt ["t"]).foreground = some 1 := by cbv

theorem tokenize_color_given_iff_outer : Theme.outer.Gives .foreground ["t"] 1 := by
  obtain ⟨given, agrees⟩ := tokenize_color_given_iff outer naming_valid Theme.outer rfl none
    (fun _ => nofun) 9 "xa" none (Caches.empty outer) none [] Theme.outerSettings Theme.outer_made
    ⟨1, 2, ["t"], 1⟩ (by rw [outer_tokens]; simp) .foreground
  exact given.mpr (agrees.mp (congrArg (·.getD 0) outer_color).symm) Nat.one_ne_zero

theorem color_left_over_outer :
    ¬ ∀ token ∈ ((tokenize 9 "xa" none none false).run (Caches.empty outer)).1.emitted.tokens,
      ∀ field : ColorField, field.ofWord token.metadata ≠ 0 →
        Theme.outer.Gives field token.scopes (field.ofWord token.metadata) := by
  intro given
  rw [outer_tokens] at given
  obtain unset | ⟨rule, known, matched, _⟩ :=
    given ⟨0, 1, ["t", "n"], 1⟩ List.mem_cons_self .foreground Nat.one_ne_zero
  · exact nomatch unset
  · obtain rfl := List.mem_singleton.mp known
    exact absurd matched (by simp [Theme.Rule.Matches, Theme.outerRule_excludes])

end Grammar

end Highlighter
