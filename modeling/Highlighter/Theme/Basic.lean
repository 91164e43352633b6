import Highlighter.Color.Palette
import Highlighter.Selector.Parser
import Highlighter.Style

set_option autoImplicit false

namespace Highlighter.Theme

structure Setting where
  selector : Option String
  foreground : Option Color
  background : Option Color
  font : Option FontStyle
  bold : Option Bool
  italic : Option Bool
  underline : Option Bool
  strikethrough : Option Bool

def Setting.empty : Setting := ⟨none, none, none, none, none, none, none, none⟩

/-- What a rule applies to: scopes by a selector, or paths on which every class is a segment of some
scope. -/
inductive Target where
  | onScopes (selector : Selector)
  | onClasses (names : List String)

def isClassGap (c : Char) : Bool := c == '.' || Text.isSpace c

namespace Target

def parse (source : String) : Except SelectorError Target :=
  if source.toList.head? == some '.' then
    let names := (Text.words isClassGap source.toList).map String.ofList
    if names.isEmpty then .error .empty else .ok (.onClasses names)
  else (Selector.parse source).map .onScopes

def hasSegment (name scope : String) : Bool :=
  (Text.pieces '.' scope.toList).any (· == name.toList)

def deepest? (name : String) (depth : Nat) : List String → Option Nat
  | [] => none
  | scope :: scopes =>
    match deepest? name (depth + 1) scopes with
    | some found => some found
    | none => if hasSegment name scope then some (depth + 1) else none

def classesDepth? (scopes : List String) : List String → Option Nat
  | [] => some 0
  | name :: names =>
    match deepest? name 0 scopes, classesDepth? scopes names with
    | some depth, some others => some (max depth others)
    | _, _ => none

def rank? (scopes : List String) : Target → Option Rank
  | .onScopes selector => selector.rank? scopes
  | .onClasses names => (classesDepth? scopes names).map fun depth =>
      ⟨.normal, ⟨depth, 1, names.length⟩⟩

end Target

structure Rule where
  target : Target
  style : Style
  index : Nat

end Theme

structure Theme where
  name : Option String
  rules : List Theme.Rule
  defaults : Style
  palette : Palette

namespace Theme

def colorId? (palette : Palette) : Option Color → Option Nat × Palette
  | none => (none, palette)
  | some color =>
    match palette.number color with
    | (0, palette) => (none, palette)
    | (id + 1, palette) => (some (id + 1), palette)

def Setting.style (setting : Setting) (palette : Palette) : Style × Palette :=
  let (foreground, palette) := colorId? palette setting.foreground
  let (background, palette) := colorId? palette setting.background
  let fonts := (setting.font.map Style.ofFont).getD Style.empty
  ({ foreground
     background
     bold := setting.bold <|> fonts.bold
     italic := setting.italic <|> fonts.italic
     underline := setting.underline <|> fonts.underline
     strikethrough := setting.strikethrough <|> fonts.strikethrough }, palette)

-- A selector that cannot be read drops its rule; a blank one sets the defaults.
def add (theme : Theme) (setting : Setting) : Theme :=
  let (style, palette) := setting.style theme.palette
  let theme := { theme with palette }
  match setting.selector.map fun source => String.ofList (Text.trimmed source.toList) with
  | none | some "" => { theme with defaults := theme.defaults.overlay style }
  | some source =>
    match Target.parse source with
    | .ok target => { theme with rules := theme.rules ++ [⟨target, style, theme.rules.length⟩] }
    | .error _ => theme

def ofSettings (name : Option String) (seed : List Color) (settings : List Setting) : Theme :=
  settings.foldl add ⟨name, [], Style.empty, Palette.ofSeed seed⟩

structure Matched where
  rank : Rank
  rule : Rule

def Matched.before (a b : Matched) : Bool :=
  a.rank.before b.rank || (a.rank == b.rank && a.rule.index < b.rule.index)

def matched (theme : Theme) (scopes : List String) : List Matched :=
  theme.rules.filterMap fun rule => (rule.target.rank? scopes).map fun rank => ⟨rank, rule⟩

-- The styles of the matching rules, from the least rank to the greatest.
def ranked (theme : Theme) (scopes : List String) : List Matched :=
  (theme.matched scopes).mergeSort fun a b => !b.before a

def resolve (theme : Theme) (scopes : List String) : Option Style :=
  match theme.ranked scopes with
  | [] => none
  | ranked => some (ranked.foldl (fun style found => style.overlay found.rule.style) Style.empty)

def styleAt (theme : Theme) (scopes : List String) : Style :=
  match theme.resolve scopes with
  | some style => theme.defaults.overlay style
  | none => theme.defaults

end Theme

end Highlighter
