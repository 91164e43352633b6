import Highlighter.Grammar.Compiled
import Highlighter.Proofs.Pattern.References

set_option autoImplicit false

namespace Highlighter

namespace Grammar

variable {grammar : Grammar}

def scopeAfter (grammar : Grammar) (path : ScopePath) (scope : String) : ScopePath :=
  path.push scope ((grammar.startOf path).overlay
    (overlayOf (grammar.languages.traits scope)
      (resolveStyle grammar.theme (path.names ++ [scope]))))

def pathAfter (grammar : Grammar) (path : ScopePath) (name : Option String) : ScopePath :=
  match name with
  | none => path
  | some name =>
    ((Text.words Text.isAsciiSpace name.toList).map String.ofList).foldl grammar.scopeAfter path

theorem pushScope_value (path : ScopePath) (scope : String) (caches : Caches grammar) :
    ((pushScope path scope).run caches).1 = grammar.scopeAfter path scope := by
  change path.push scope ((grammar.startOf path).overlay
    (overlayOf (caches.traits.get scope).1 (caches.styles.get (path.names ++ [scope])).1)) = _
  rw [Memo.get_value, Memo.get_value]
  rfl

theorem pushAll_value (path : ScopePath) (scopes : List String) (caches : Caches grammar) :
    ((pushAll path scopes).run caches).1 = scopes.foldl grammar.scopeAfter path := by
  induction scopes generalizing path caches with
  | nil => rfl
  | cons scope rest ih =>
    change ((pushAll ((pushScope path scope).run caches).1 rest).run
      ((pushScope path scope).run caches).2).1 = _
    rw [ih, pushScope_value]
    rfl

theorem pushName_value (path : ScopePath) (name : Option String) (caches : Caches grammar) :
    ((pushName path name).run caches).1 = grammar.pathAfter path name := by
  cases name with
  | none => rfl
  | some name => exact pushAll_value path _ caches

theorem resolved_value (source : String) (caches : Caches grammar) :
    ((resolved source).run caches).1 = Pattern.ofSource? source :=
  PatternCache.get_value caches.patterns source

def firstStack (grammar : Grammar) : Stack :=
  Stack.root grammar.graph.root (grammar.pathAfter ScopePath.empty (some grammar.scopeName))

theorem initialStack_value (caches : Caches grammar) :
    ((initialStack : StateM (Caches grammar) Stack).run caches).1 = grammar.firstStack := by
  change Stack.root grammar.graph.root
    ((pushName ScopePath.empty (some grammar.scopeName)).run caches).1 = _
  rw [pushName_value]
  rfl

def Paints (grammar : Grammar) (path : ScopePath) : Prop :=
  ∃ scopes : List String, path = scopes.foldl grammar.scopeAfter ScopePath.empty

theorem paints_empty (grammar : Grammar) : grammar.Paints ScopePath.empty := ⟨[], rfl⟩

theorem paints_pathAfter (path : ScopePath) (name : Option String) (painted : grammar.Paints path) :
    grammar.Paints (grammar.pathAfter path name) := by
  cases name with
  | none => exact painted
  | some name =>
    obtain ⟨scopes, rfl⟩ := painted
    exact ⟨scopes ++ _, List.foldl_append.symm⟩

theorem names_after (path : ScopePath) (scopes : List String) :
    (scopes.foldl grammar.scopeAfter path).entries.map (·.name) =
      scopes.reverse ++ path.entries.map (·.name) := by
  induction scopes generalizing path with
  | nil => rfl
  | cons scope rest ih => simp [ih, scopeAfter, ScopePath.push]

theorem names_foldl (path : ScopePath) (scopes : List String) :
    (scopes.foldl grammar.scopeAfter path).names = path.names ++ scopes := by
  rw [ScopePath.names, List.map_reverse, names_after, List.reverse_append, List.reverse_reverse,
    ScopePath.names, List.map_reverse]

theorem foldl_extends (path : ScopePath) (scopes : List String) :
    path.entries <:+ (scopes.foldl grammar.scopeAfter path).entries := by
  induction scopes generalizing path with
  | nil => exact List.suffix_rfl
  | cons scope rest ih => exact (List.suffix_cons _ _).trans (ih _)

theorem pathAfter_extends (path : ScopePath) (name : Option String) :
    path.entries <:+ (grammar.pathAfter path name).entries := by
  cases name with
  | none => exact List.suffix_rfl
  | some name => exact foldl_extends path _

theorem names_pathAfter (path : ScopePath) (name : Option String) :
    path.names <+: (grammar.pathAfter path name).names := by
  have grown : path.entries <:+ (grammar.pathAfter path name).entries := pathAfter_extends path name
  exact (List.reverse_prefix.mpr grown).map _

theorem firstStack_names (grammar : Grammar) :
    grammar.firstStack.contentScopes.names =
      (Text.words Text.isAsciiSpace grammar.scopeName.toList).map String.ofList :=
  names_foldl ScopePath.empty _

theorem paints_unique (a b : ScopePath) (first : grammar.Paints a) (second : grammar.Paints b)
    (same : a.sameNames b = true) : a = b := by
  obtain ⟨as, rfl⟩ := first
  obtain ⟨bs, rfl⟩ := second
  have names : as.reverse = bs.reverse := by
    simpa [ScopePath.sameNames, names_after, ScopePath.empty] using same
  rw [List.reverse_injective names]

end Grammar

end Highlighter
