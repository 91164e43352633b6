set_option autoImplicit false

namespace Highlighter.CommandLine

structure Options where
  grammar : String
  input : Option String
  theme : Option String
  config : Option String
  grammarDirectory : Option String
  deriving DecidableEq, Repr

inductive Command where
  | run (options : Options)
  | help
  | version
  deriving DecidableEq, Repr

inductive UsageError where
  | missingValue (option : String)
  | unknownOption (option : String)
  | missingGrammar
  | unexpected (argument : String)
  deriving DecidableEq, Repr

def UsageError.message : UsageError → String
  | .missingValue option => option ++ " needs a value"
  | .unknownOption option => "unknown option " ++ option
  | .missingGrammar => "missing grammar file, see --help"
  | .unexpected argument => "unexpected argument " ++ argument

structure Given where
  paths : List String
  theme : Option String
  config : Option String
  grammarDirectory : Option String

def Given.nothing : Given := ⟨[], none, none, none⟩

def Given.command (given : Given) : Except UsageError Command :=
  let options (grammar : String) (input : Option String) : Command :=
    .run ⟨grammar, input, given.theme, given.config, given.grammarDirectory⟩
  match given.paths with
  | [] => .error .missingGrammar
  | [grammar] => .ok (options grammar none)
  | [grammar, input] => .ok (options grammar (some input))
  | _ :: _ :: extra :: _ => .error (.unexpected extra)

def isOption (argument : String) : Bool := argument.toList.take 2 == ['-', '-']

def parseFrom (given : Given) : List String → Except UsageError Command
  | [] => given.command
  | "--help" :: _ | "-h" :: _ => .ok .help
  | "--version" :: _ | "-V" :: _ => .ok .version
  | ["--theme"] => .error (.missingValue "--theme")
  | ["--config"] => .error (.missingValue "--config")
  | ["--grammar-dir"] => .error (.missingValue "--grammar-dir")
  | "--theme" :: path :: rest => parseFrom { given with theme := some path } rest
  | "--config" :: path :: rest => parseFrom { given with config := some path } rest
  | "--grammar-dir" :: path :: rest => parseFrom { given with grammarDirectory := some path } rest
  | argument :: rest =>
    if isOption argument then .error (.unknownOption argument)
    else parseFrom { given with paths := given.paths ++ [argument] } rest

def parse (arguments : List String) : Except UsageError Command :=
  parseFrom Given.nothing arguments

end Highlighter.CommandLine
