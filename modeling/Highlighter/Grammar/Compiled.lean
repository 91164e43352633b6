import Highlighter.Grammar.Compilation
import Highlighter.Line.Stack
import Highlighter.Memo
import Highlighter.ScopeTraits
import Highlighter.Theme.Basic

set_option autoImplicit false

namespace Highlighter

structure Configuration where
  languages : Languages
  -- By selector, the type of the tokens that the selector matches.
  types : Table TokenType

def Configuration.default : Configuration := ⟨⟨0, []⟩, []⟩

structure Grammar where
  decl : GrammarDecl
  graph : RuleGraph
  languages : Languages
  types : List (Selector × TokenType)
  firstLine : Option Pattern
  theme : Option Theme

namespace Grammar

def typesOf (types : Table TokenType) : List (Selector × TokenType) :=
  types.filterMap fun (selector, type) =>
    match Selector.parse selector with
    | .ok selector => some (selector, type)
    | .error _ => none

def ofGraph (library : Library) (configuration : Configuration) (graph : RuleGraph) : Grammar :=
  { decl := library.base
    graph
    languages := configuration.languages
    types := typesOf configuration.types
    firstLine := library.base.firstLine.bind Pattern.ofSource?
    theme := none }

def compile? (library : Library) (configuration : Configuration) : Option Grammar :=
  (RuleGraph.compile? library).map (ofGraph library configuration)

def scopeName (grammar : Grammar) : String := grammar.decl.scopeName

def withTheme (grammar : Grammar) (theme : Option Theme) : Grammar := { grammar with theme }

def matchesFirstLine (grammar : Grammar) (line : String) : Bool :=
  grammar.firstLine.any fun pattern =>
    (pattern.search? (Text.Cursor.first line.toList) true true).isSome

def summary (grammar : Grammar) : String :=
  "Grammar \x7b scope_name: " ++ Text.quoted grammar.scopeName ++ ", rules: " ++
    toString grammar.graph.rules.size ++ ", .. \x7d"

def resolveStyle (theme : Option Theme) (path : List String) : Option Style :=
  theme.bind (·.resolve path)

end Grammar

/-- Resolved patterns compiled so far. A pattern is in use for as long as a frame holds it, whether
or not it is kept here. -/
structure PatternCache where
  entries : List (String × Pattern)
  correct : ∀ entry ∈ entries, Pattern.ofSource? entry.1 = some entry.2
  bounded : entries.length ≤ 256

namespace PatternCache

def empty : PatternCache := ⟨[], by simp, by simp⟩

def room : Nat := 256

theorem correct_cons {source : String} {pattern : Pattern} {entries : List (String × Pattern)}
    (correct : Pattern.ofSource? source = some pattern)
    (others : ∀ entry ∈ entries, Pattern.ofSource? entry.1 = some entry.2) :
    ∀ entry ∈ (source, pattern) :: entries, Pattern.ofSource? entry.1 = some entry.2 := by
  intro entry member
  rcases List.mem_cons.mp member with rfl | old
  · exact correct
  · exact others entry old

-- Keeps a pattern, in place of all others when there is no room left.
def keep (cache : PatternCache) (source : String) (pattern : Pattern)
    (correct : Pattern.ofSource? source = some pattern) : PatternCache :=
  if isFree : cache.entries.length < room then
    ⟨(source, pattern) :: cache.entries, correct_cons correct cache.correct, isFree⟩
  else ⟨[(source, pattern)], correct_cons correct empty.correct, Nat.le_of_ble_eq_true rfl⟩

def get (cache : PatternCache) (source : String) : Option Pattern × PatternCache :=
  match cache.entries.lookup source with
  | some pattern => (some pattern, cache)
  | none =>
    match correct : Pattern.ofSource? source with
    | some pattern => (some pattern, cache.keep source pattern correct)
    | none => (none, cache)

theorem get_value (cache : PatternCache) (source : String) :
    (cache.get source).1 = Pattern.ofSource? source := by
  unfold get
  split
  · rename_i pattern found
    exact (cache.correct (source, pattern) (Table.mem_of_lookup found)).symm
  · split <;> simp_all

end PatternCache

structure Caches (grammar : Grammar) where
  patterns : PatternCache
  traits : Memo grammar.languages.traits
  styles : Memo (Grammar.resolveStyle grammar.theme)

namespace Caches

def empty (grammar : Grammar) : Caches grammar :=
  ⟨PatternCache.empty, Memo.empty _, Memo.empty _⟩

-- A change of the theme leaves all but the styles.
def withTheme {grammar : Grammar} (caches : Caches grammar) (theme : Option Theme) :
    Caches (grammar.withTheme theme) :=
  ⟨caches.patterns, caches.traits, Memo.empty _⟩

end Caches

namespace Grammar

def rootMetadata (grammar : Grammar) : Metadata :=
  let style := (grammar.theme.map (·.defaults)).getD Style.empty
  Attributes.encode
    { language := grammar.languages.main
      type := .other
      font := style.font?.getD .empty
      foreground := style.foreground.getD 0
      background := style.background.getD 0 }

def overlayOf (traits : ScopeTraits) (style : Option Style) : Metadata.Overlay :=
  { language := some traits.language
    type := traits.type
    font := style.bind (·.font?)
    foreground := (style.bind (·.foreground)).getD 0
    background := (style.bind (·.background)).getD 0 }

def startOf (grammar : Grammar) (path : ScopePath) : Metadata :=
  if path.isEmpty then grammar.rootMetadata else path.metadata

def pushScope {grammar : Grammar} (path : ScopePath) (scope : String) :
    StateM (Caches grammar) ScopePath := do
  let traits ← modifyGet fun caches =>
    let (traits, memo) := caches.traits.get scope
    (traits, { caches with traits := memo })
  let style ← modifyGet fun caches =>
    let (style, memo) := caches.styles.get (path.names ++ [scope])
    (style, { caches with styles := memo })
  return path.push scope ((grammar.startOf path).overlay (overlayOf traits style))

def pushAll {grammar : Grammar} (path : ScopePath) :
    List String → StateM (Caches grammar) ScopePath
  | [] => return path
  | scope :: rest => do pushAll (← pushScope path scope) rest

def pushName {grammar : Grammar} (path : ScopePath) (name : Option String) :
    StateM (Caches grammar) ScopePath :=
  match name with
  | none => return path
  | some name => pushAll path ((Text.words Text.isAsciiSpace name.toList).map String.ofList)

def resolved {grammar : Grammar} (source : String) : StateM (Caches grammar) (Option Pattern) :=
  modifyGet fun caches =>
    let (pattern, cache) := caches.patterns.get source
    (pattern, { caches with patterns := cache })

def initialStack {grammar : Grammar} : StateM (Caches grammar) Stack := do
  return Stack.root grammar.graph.root (← pushName ScopePath.empty (some grammar.scopeName))

def withType (names : List String) (metadata : Metadata) (rule : Selector × TokenType) : Metadata :=
  if rule.1.applies names then metadata.overlay ⟨none, some rule.2, none, 0, 0⟩ else metadata

def tokenMetadata (grammar : Grammar) (path : ScopePath) : Metadata :=
  if grammar.types.isEmpty then path.metadata
  else grammar.types.foldl (withType path.names) path.metadata

end Grammar

end Highlighter
