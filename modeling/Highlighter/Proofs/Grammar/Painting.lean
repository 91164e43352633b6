import Highlighter.Proofs.Grammar.Scopes
import Highlighter.Proofs.Theme.Inheritance

set_option autoImplicit false

namespace Highlighter

namespace Grammar

variable {grammar : Grammar} {theme : Theme}

theorem names_painted (scopes : List String) :
    (scopes.foldl grammar.scopeAfter ScopePath.empty).names = scopes :=
  names_foldl ScopePath.empty scopes

section

variable (themed : grammar.theme = some theme)

include themed

theorem startOf_concat (outer : List String) (scope : String) :
    grammar.startOf ((outer ++ [scope]).foldl grammar.scopeAfter ScopePath.empty) =
      (grammar.startOf (outer.foldl grammar.scopeAfter ScopePath.empty)).overlay
        (overlayOf (grammar.languages.traits scope) (theme.resolve (outer ++ [scope]))) := by
  rw [List.foldl_append]
  change Metadata.overlay _ (overlayOf _ (resolveStyle grammar.theme
    ((outer.foldl grammar.scopeAfter ScopePath.empty).names ++ [scope]))) = _
  rw [names_painted, themed]
  rfl

theorem color_startOf (colored : theme.Colored) (field : ColorField) (scopes : List String) :
    field.ofWord (grammar.startOf (scopes.foldl grammar.scopeAfter ScopePath.empty)) =
      theme.latestColor field scopes := by
  induction scopes using List.reverseRecOn with
  | nil =>
    have known := colored.defaults.number_le field
    change field.ofWord grammar.rootMetadata = (field.ofStyle theme.defaults).getD 0
    rw [rootMetadata, themed, ColorField.ofWord_encode]
    · cases field <;> rfl
    · cases field <;> exact known
  | append_singleton outer scope ih =>
    have upper : field.ofOverlay (overlayOf (grammar.languages.traits scope)
        (theme.resolve (outer ++ [scope]))) =
        ((theme.resolve (outer ++ [scope])).bind field.ofStyle).getD 0 := by
      cases field <;> rfl
    rw [startOf_concat themed, Theme.latestColor_concat]
    cases given : (theme.resolve (outer ++ [scope])).bind field.ofStyle with
    | none =>
      rw [given, Option.getD_none] at upper
      rw [Metadata.color_overlay _ _ _ (upper ▸ Nat.zero_le _), if_pos upper, ih, Option.getD_none]
    | some id =>
      obtain ⟨positive, small⟩ := colored.resolve given
      rw [given, Option.getD_some] at upper
      rw [Metadata.color_overlay _ _ _ (upper ▸ small), upper, if_neg positive.ne',
        Option.getD_some]

theorem font_startOf (scopes : List String) :
    Metadata.font (grammar.startOf (scopes.foldl grammar.scopeAfter ScopePath.empty)) =
      theme.latestFont scopes := by
  induction scopes using List.reverseRecOn with
  | nil =>
    change Metadata.font grammar.rootMetadata = theme.defaults.flags
    rw [rootMetadata, themed, Metadata.font_encode]
    exact (congrArg _ theme.defaults.font?_getD).trans theme.defaults.masked_flags
  | append_singleton outer scope ih =>
    rw [startOf_concat themed, Theme.latestFont_concat, Metadata.font_overlay]
    change (((theme.resolve (outer ++ [scope])).bind (·.font?)).map _).getD _ = _
    cases given : (theme.resolve (outer ++ [scope])).bind (·.font?) with
    | none => exact ih
    | some font =>
      obtain ⟨style, _, same⟩ := Option.bind_eq_some_iff.mp given
      obtain rfl := Style.flags_of_font? same
      exact style.masked_flags

end

section

variable {α : Type} {read : Metadata → α}
  (kept : ∀ word type, read (Metadata.overlay word ⟨none, some type, none, 0, 0⟩) = read word)

include kept

theorem read_withType (names : List String) (types : List (Selector × TokenType))
    (word : Metadata) : read (types.foldl (withType names) word) = read word := by
  induction types generalizing word with
  | nil => rfl
  | cons rule rest ih =>
    rw [List.foldl_cons, ih, withType]
    split
    · exact kept word rule.2
    · rfl

theorem read_tokenMetadata (path : ScopePath) :
    read (grammar.tokenMetadata path) = read path.metadata := by
  unfold tokenMetadata
  split
  · rfl
  · exact read_withType kept _ _ _

end

section

variable {path : ScopePath} (painted : grammar.Paints path) (named : path.names ≠ [])

include named

theorem startOf_eq_metadata : grammar.startOf path = path.metadata := by
  refine if_neg fun empty => named ?_
  rw [ScopePath.names, List.isEmpty_iff.mp empty]
  rfl

variable (themed : grammar.theme = some theme)

include painted themed

theorem color_tokenMetadata (colored : theme.Colored) (field : ColorField) :
    field.ofWord (grammar.tokenMetadata path) =
      theme.latestColor field path.names := by
  have start : grammar.startOf path = path.metadata := startOf_eq_metadata named
  obtain ⟨scopes, rfl⟩ := painted
  rw [names_painted, ← color_startOf themed colored field scopes, start]
  refine read_tokenMetadata (fun word type => ?_) _
  rw [Metadata.color_overlay] <;> cases field <;> simp [ColorField.ofOverlay]

theorem font_tokenMetadata :
    Metadata.font (grammar.tokenMetadata path) =
      theme.latestFont path.names := by
  have start : grammar.startOf path = path.metadata := startOf_eq_metadata named
  obtain ⟨scopes, rfl⟩ := painted
  rw [names_painted, ← font_startOf themed scopes, start]
  exact read_tokenMetadata (fun _ _ => Metadata.font_overlay _ _) _

end

end Grammar

end Highlighter
