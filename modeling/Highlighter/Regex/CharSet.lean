import Highlighter.Text.Case

set_option autoImplicit false

namespace Highlighter.Regex

open Text

inductive Property where
  | any
  | assigned
  | ascii
  | alnum
  | alpha
  | blank
  | cntrl
  | digit
  | graph
  | lower
  | print
  | punct
  | space
  | upper
  | xdigit
  | word
  | category (category : Category)
  | letters
  | casedLetters
  | marks
  | numbers
  | punctuation
  | symbols
  | separators
  | others
  deriving Repr

namespace Property

def holds (c : Char) : Property → Bool
  | .any => true
  | .assigned => Category.of c != .cn
  | .ascii => isAscii c
  | .alnum => isAlphanumeric c
  | .alpha => isAlphabetic c
  | .blank => isBlank c
  | .cntrl => isControl c
  | .digit => isDecimal c
  | .graph => isGraphic c
  | .lower => isLowercase c
  | .print => isPrinting c
  | .punct => isPunctuation c
  | .space => isSpace c
  | .upper => isUppercase c
  | .xdigit => isHexDigit c
  | .word => isWord c
  | .category wanted => Category.of c == wanted
  | .letters => (Category.of c).isLetter
  | .casedLetters => Category.of c == .lu || Category.of c == .ll || Category.of c == .lt
  | .marks => (Category.of c).isMark
  | .numbers => (Category.of c).isNumber
  | .punctuation => (Category.of c).isPunctuation
  | .symbols => (Category.of c).isSymbol
  | .separators => (Category.of c).isSeparator
  | .others => (Category.of c).isOther

def bracketNames : List (String × Property) := [
  ("alnum", .alnum), ("alpha", .alpha), ("blank", .blank), ("cntrl", .cntrl), ("digit", .digit),
  ("graph", .graph), ("lower", .lower), ("print", .print), ("punct", .punct), ("space", .space),
  ("upper", .upper), ("xdigit", .xdigit), ("ascii", .ascii), ("word", .word)]

def categoryNames : List (String × Property) := [
  ("any", .any), ("assigned", .assigned), ("alphabetic", .alpha), ("uppercase", .upper),
  ("lowercase", .lower), ("whitespace", .space), ("hexdigit", .xdigit), ("asciihexdigit", .xdigit),
  ("l", .letters), ("letter", .letters), ("lc", .casedLetters), ("casedletter", .casedLetters),
  ("lu", .category .lu), ("uppercaseletter", .category .lu), ("ll", .category .ll),
  ("lowercaseletter", .category .ll), ("lt", .category .lt), ("titlecaseletter", .category .lt),
  ("lm", .category .lm), ("modifierletter", .category .lm), ("lo", .category .lo),
  ("otherletter", .category .lo), ("m", .marks), ("mark", .marks), ("combiningmark", .marks),
  ("mn", .category .mn), ("nonspacingmark", .category .mn), ("mc", .category .mc),
  ("spacingmark", .category .mc), ("me", .category .me), ("enclosingmark", .category .me),
  ("n", .numbers), ("number", .numbers), ("nd", .category .nd), ("decimalnumber", .category .nd),
  ("nl", .category .nl), ("letternumber", .category .nl), ("no", .category .no),
  ("othernumber", .category .no), ("p", .punctuation), ("punctuation", .punctuation),
  ("pc", .category .pc), ("connectorpunctuation", .category .pc), ("pd", .category .pd),
  ("dashpunctuation", .category .pd), ("ps", .category .ps), ("openpunctuation", .category .ps),
  ("pe", .category .pe), ("closepunctuation", .category .pe), ("pi", .category .pi),
  ("initialpunctuation", .category .pi), ("pf", .category .pf),
  ("finalpunctuation", .category .pf), ("po", .category .po),
  ("otherpunctuation", .category .po), ("s", .symbols), ("symbol", .symbols),
  ("sm", .category .sm), ("mathsymbol", .category .sm), ("sc", .category .sc),
  ("currencysymbol", .category .sc), ("sk", .category .sk), ("modifiersymbol", .category .sk),
  ("so", .category .so), ("othersymbol", .category .so), ("z", .separators),
  ("separator", .separators), ("zs", .category .zs), ("spaceseparator", .category .zs),
  ("zl", .category .zl), ("lineseparator", .category .zl), ("zp", .category .zp),
  ("paragraphseparator", .category .zp), ("c", .others), ("other", .others),
  ("cc", .category .cc), ("control", .category .cc), ("cf", .category .cf),
  ("format", .category .cf), ("cs", .category .cs), ("surrogate", .category .cs),
  ("co", .category .co), ("privateuse", .category .co), ("cn", .category .cn),
  ("unassigned", .category .cn)]

def isNameGap (c : Char) : Bool := c == ' ' || c == '-' || c == '_'

-- Case, blanks, hyphens and underscores do not count in a property's name.
def ofName? (name : List Char) : Option Property :=
  let plain := String.ofList ((name.filter fun c => !isNameGap c).map Char.toLower)
  (bracketNames ++ categoryNames).lookup plain

end Property

inductive CharSet where
  | empty
  | char (c : Char)
  | range (low high : Char)
  | property (property : Property)
  | not (inner : CharSet)
  | union (a b : CharSet)
  | inter (a b : CharSet)
  | anyCase (inner : CharSet)
  deriving Repr

namespace CharSet

-- A set in any case holds a character when it holds one that differs from it in case alone.
def mem (set : CharSet) (c : Char) : Bool :=
  match set with
  | .empty => false
  | .char d => c == d
  | .range low high => low ≤ c && c ≤ high
  | .property wanted => wanted.holds c
  | .not inner => !inner.mem c
  | .union a b => a.mem c || b.mem c
  | .inter a b => a.mem c && b.mem c
  | .anyCase inner => inner.mem c || (foldMates c).any fun mate => inner.mem mate

def all : CharSet := .not .empty

def exceptLineFeed : CharSet := .not (.char '\n')

end CharSet

end Highlighter.Regex
