import Highlighter.Toml.Reader

set_option autoImplicit false

namespace Highlighter

structure Config where
  timeBudget : Nat
  longestLine : Nat
  threadName : String
  lineTimeBudget : Option Nat
  themePath : Option String
  deriving DecidableEq, Repr

namespace Config

def default : Config := ⟨1000, 20000, "tm-tokenizer", none, none⟩

-- A budget of no time is no limit.
def limit (budget : Nat) : Option Nat := if budget = 0 then none else some budget

def tokenizerLimit (config : Config) : Option Nat := limit config.timeBudget

def lineLimit (config : Config) : Option Nat :=
  match config.lineTimeBudget with
  | some budget => limit budget
  | none => config.tokenizerLimit

abbrev Part := List (String × (Config → Toml → Option Config))

def nat? : Toml → Option Nat
  | .whole (.ofNat value) => some value
  | _ => none

def text? : Toml → Option String
  | .text value => some value
  | _ => none

def parts : List (String × Part) := [
  ("tokenizer", [
    ("time_budget_ms", fun config value =>
      (nat? value).map fun budget => { config with timeBudget := budget }),
    ("max_line_length", fun config value =>
      (nat? value).map fun length => { config with longestLine := length })]),
  ("scheduler", [
    ("thread_name", fun config value =>
      (text? value).map fun name => { config with threadName := name }),
    ("line_time_budget_ms", fun config value =>
      (nat? value).map fun budget => { config with lineTimeBudget := some budget })]),
  ("theme", [
    ("path", fun config value =>
      (text? value).map fun path => { config with themePath := some path })])]

def named (part : Part) (config : Config) : Toml.Entries → Option Config
  | [] => some config
  | (key, value) :: rest => do
    let set ← part.lookup key
    named part (← set config value) rest

def listed (config : Config) : Part → List Toml → Option Config
  | (_, set) :: part, value :: rest => do listed (← set config value) part rest
  | _, _ => some config

def withPart (part : Part) (config : Config) : Toml → Option Config
  | .table _ entries => named part config entries
  | .list values => listed config part values
  | _ => none

def ofEntries (config : Config) : Toml.Entries → Option Config
  | [] => some config
  | (key, value) :: rest => do
    let part ← parts.lookup key
    ofEntries (← withPart part config value) rest

-- A setting that is not known makes the whole text invalid.
def ofText? (source : String) : Option Config := Toml.read? source >>= ofEntries default

end Config

end Highlighter
