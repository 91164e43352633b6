import Highlighter.Proofs.Line.Styling

set_option autoImplicit false

namespace Highlighter

namespace Grammar

variable {grammar : Grammar}

def layer (grammar : Grammar) (outer : List String) (scope : String) : Metadata.Overlay :=
  overlayOf (grammar.languages.traits scope) (resolveStyle grammar.theme (outer ++ [scope]))

def layAll (grammar : Grammar) (outer : List String) (word : Metadata) : List String → Metadata
  | [] => word
  | scope :: inner =>
    layAll grammar (outer ++ [scope]) (word.overlay (grammar.layer outer scope)) inner

def metadataOf (grammar : Grammar) (scopes : List String) : Metadata :=
  (grammar.types.filter fun rule => rule.1.applies scopes).foldl
    (fun word rule => word.overlay ⟨none, some rule.2, none, 0, 0⟩)
    (grammar.layAll [] grammar.rootMetadata scopes)

theorem startOf_foldl (path : ScopePath) (scopes : List String) :
    grammar.startOf (scopes.foldl grammar.scopeAfter path) =
      grammar.layAll path.names (grammar.startOf path) scopes := by
  induction scopes generalizing path with
  | nil => rfl
  | cons scope inner ih =>
    have names : (grammar.scopeAfter path scope).names = path.names ++ [scope] :=
      names_foldl path [scope]
    rw [List.foldl_cons, ih, names]
    rfl

theorem foldl_withType (names : List String) (types : List (Selector × TokenType))
    (word : Metadata) :
    types.foldl (withType names) word =
      (types.filter fun rule => rule.1.applies names).foldl
        (fun word rule => word.overlay ⟨none, some rule.2, none, 0, 0⟩) word :=
  List.foldl_filter.symm

theorem metadata_painted {path : ScopePath} (painted : grammar.Painted path) :
    path.metadata = grammar.layAll [] grammar.rootMetadata path.names := by
  have start : grammar.startOf path = path.metadata := startOf_eq_metadata painted.2
  obtain ⟨scopes, rfl⟩ := painted.1
  rw [← start, startOf_foldl, names_painted]
  rfl

theorem tokenMetadata_eq {path : ScopePath} (painted : grammar.Painted path) :
    grammar.tokenMetadata path = grammar.metadataOf path.names := by
  unfold tokenMetadata metadataOf
  rw [metadata_painted painted]
  split
  · rename_i untyped
    rw [List.isEmpty_iff.mp untyped]
    rfl
  · rw [foldl_withType]

def Finds (grammar : Grammar) (token : Token) : Prop :=
  ∃ (prior : Option Stack) (depth : Nat) (line : String) (checks : Option Nat)
    (caches : Caches grammar), (∀ stack, prior = some stack → Reached (· = grammar) stack) ∧
      token ∈ ((tokenize depth line prior checks false).run caches).1.emitted.tokens

theorem metadata_of_finds (valid : grammar.decl.validate = .ok ()) {token : Token}
    (found : grammar.Finds token) : token.metadata = grammar.metadataOf token.scopes := by
  obtain ⟨prior, depth, line, checks, caches, earlier, member⟩ := found
  obtain ⟨path, painted, scopes, metadata⟩ :=
    tokenize_painted grammar valid prior earlier depth line checks caches token member
  rw [metadata, scopes, tokenMetadata_eq painted]

/-- Each token has the metadata that its scopes make up, so tokens in the same scopes have the same
metadata, whatever lines they stand on. -/
theorem metadata_of_scopes (valid : grammar.decl.validate = .ok ()) :
    (∀ token, grammar.Finds token → token.metadata = grammar.metadataOf token.scopes) ∧
      ∀ one other : Token, grammar.Finds one → grammar.Finds other →
        one.scopes = other.scopes → one.metadata = other.metadata := by
  refine ⟨fun token found => metadata_of_finds valid found, fun one other first second same => ?_⟩
  rw [metadata_of_finds valid first, metadata_of_finds valid second, same]

-- The scope `n` is a string, on top of what the theme says of it.
def typed : Grammar := { mixed with types := typesOf [("n", .string)] }

def typedLine (line : String) (prior : Option Stack) : LineResult :=
  ((tokenize 9 line prior none false).run (Caches.empty typed)).1

theorem typed_first : (typedLine "xa" none).emitted.tokens =
    [⟨0, 1, ["t", "n"], 8650753⟩, ⟨1, 2, ["t"], 524289⟩] := by
  rw [typedLine, typed, mixed, naming_eq]
  cbv

theorem typed_second : (typedLine "ax" (some (typedLine "xa" none).stack)).emitted.tokens =
    [⟨0, 1, ["t"], 524289⟩, ⟨1, 2, ["t", "n"], 8650753⟩] := by
  rw [typedLine, typedLine, typed, mixed, naming_eq]
  cbv

theorem metadata_of_scopes_typed :
    let first : Token := ⟨0, 1, ["t", "n"], 8650753⟩
    let second : Token := ⟨1, 2, ["t", "n"], 8650753⟩
    typed.Finds first ∧ typed.Finds second ∧ typed.metadataOf ["t", "n"] = 8650753 ∧
      first.metadata = second.metadata := by
  have reached : Reached (· = typed) (typedLine "xa" none).stack :=
    @Reached.line (· = typed) typed rfl 9 "xa" none (fun _ => nofun) none false (Caches.empty typed)
  have first : typed.Finds ⟨0, 1, ["t", "n"], 8650753⟩ := by
    refine ⟨none, 9, "xa", none, Caches.empty typed, fun _ => nofun, ?_⟩
    exact typed_first ▸ List.mem_cons_self
  have second : typed.Finds ⟨1, 2, ["t", "n"], 8650753⟩ := by
    refine ⟨some (typedLine "xa" none).stack, 9, "ax", none, Caches.empty typed, ?_, ?_⟩
    · rintro _ ⟨⟩
      exact reached
    · exact typed_second ▸ List.mem_cons_of_mem _ List.mem_cons_self
  obtain ⟨follows, agree⟩ := @metadata_of_scopes typed naming_valid
  exact ⟨first, second, (follows _ first).symm, agree _ _ first second rfl⟩

end Grammar

end Highlighter
