import Highlighter.CommandLine.Options
import Highlighter.Line.Reader
import Highlighter.Loading

set_option autoImplicit false

namespace Highlighter.CommandLine

/-- What the program needs from where it runs. `now` is a time in milliseconds, `depth` how deep
groups may stand in groups. -/
structure World (m : Type → Type) where
  files : FileAccess m
  home : Option String
  input : m (Except FileError String)
  now : m Nat
  depth : Nat

structure Outcome where
  code : Nat
  output : String
  errors : String
  deriving DecidableEq, Repr

namespace Outcome

def success (output : String) : Outcome := ⟨0, output, ""⟩

def failure (message : String) : Outcome := ⟨1, "", "Error: " ++ message ++ "\n"⟩

end Outcome

def name : String := "tm-highlight"

def versionText : String := name ++ " 0.1.0"

def configName : String := ".tm-highlight.toml"

def usage : String := "\n".intercalate [
  versionText ++ " - TextMate grammar tokenizer",
  "",
  "Usage: " ++ name ++ " [OPTIONS] <GRAMMAR> [FILE]",
  "",
  "Tokenizes FILE (or standard input) with the JSON grammar GRAMMAR.",
  "",
  "Options:",
  "  --theme PATH        JSON or CSS theme, overrides the config file",
  "  --config PATH       Config file (default ~/" ++ configName ++ ")",
  "  --grammar-dir DIR   Load every .json grammar in DIR for includes",
  "  -h, --help          Show this help message",
  "  -V, --version       Show version information",
  "",
  "Set RUST_LOG (e.g. RUST_LOG=debug) for diagnostics on stderr.",
  ""]

def colorOf? (theme : Option Theme) (token : Token) : Option Color := do
  let theme ← theme
  theme.palette.color? (← (theme.styleAt token.scopes).foreground)

def tokenText (theme : Option Theme) (number : Nat) (token : Token) : String :=
  let color := match colorOf? theme token with
    | some color => " " ++ color.text
    | none => ""
  toString number ++ ":" ++ toString token.start ++ "-" ++ toString token.stop ++ " " ++
    " ".intercalate token.scopes ++ color ++ "\n"

variable {m : Type → Type} [Monad m] (world : World m)

def attempt (deadline : Nat) (reader : LineReader) (line : String) (prior : Option Stack) :
    Nat → Nat → m (LineResult × LineReader)
  | 0, _ => return reader.read world.depth line prior none
  | attempts + 1, checks => do
    let (result, next) := reader.read world.depth line prior (some checks)
    if result.stoppedEarly then
      let time ← world.now
      if time < deadline then attempt deadline reader line prior attempts (2 * checks)
      else return (result, next)
    else return (result, next)

def readWithin (limit : Option Nat) (reader : LineReader) (line : String) (prior : Option Stack) :
    m (LineResult × LineReader) := do
  match limit with
  | none => return reader.read world.depth line prior none
  | some limit =>
    let time ← world.now
    attempt world (time + limit) reader line prior 32 65536

-- There is no text when the program comes to its end on a line.
def linesText (theme : Option Theme) (limit : Option Nat) (reader : LineReader) (number : Nat)
    (prior : Option Stack) (written : String) : List String → m (Option String)
  | [] => return some written
  | line :: rest => do
    let (result, reader) ← readWithin world limit reader line prior
    if result.tooDeep then return none
    let text := String.join (result.emitted.tokens.map (tokenText theme number))
    linesText theme limit reader (number + 1) (some result.stack) (written ++ text) rest

def loadConfig (options : Options) : ExceptT Failure m Config :=
  match options.config, world.home with
  | some path, _ => Config.load world.files path
  | none, some home => Config.load world.files (Text.joinPath home configName)
  | none, none => return Config.default

def loadRegistry (options : Options) : ExceptT Failure m Registry := do
  match options.grammarDirectory with
  | some path => return (← Registry.empty.loadDirectory world.files path).2
  | none => return Registry.empty

def loadInput (options : Options) : ExceptT Failure m String :=
  failingWith .file (match options.input with
    | some path => world.files.read path
    | none => world.input)

def tokensText (options : Options) : ExceptT Failure m (Option String) := do
  let config ← loadConfig world options
  let registry ← loadRegistry world options
  let (scope, registry) ← registry.load world.files options.grammar
  let theme ← (options.theme <|> config.themePath).mapM (Theme.load world.files)
  match (registry.withTheme theme).grammar scope with
  | .unknown => throw (.unknownScope scope)
  | .lost => return none
  | .grammar grammar _ =>
    let lines := Text.lines (← loadInput world options)
    let reader := LineReader.ofGrammar grammar
    ExceptT.lift (linesText world theme config.tokenizerLimit reader 1 none "" lines)

-- The outcome, unless the program comes to its end before.
def run (arguments : List String) : m (Option Outcome) := do
  match parse arguments with
  | .error error => return some (.failure error.message)
  | .ok .help => return some (.success usage)
  | .ok .version => return some (.success (versionText ++ "\n"))
  | .ok (.run options) =>
    match ← (tokensText world options).run with
    | .ok text => return text.map .success
    | .error failure => return some (.failure failure.message)

end Highlighter.CommandLine
