import Highlighter.CommandLine.Basic

set_option autoImplicit false

namespace Highlighter.CommandLine

def fileError : IO.Error → FileError
  | .noFileOrDirectory _ _ _ => .missing
  | .inappropriateType _ 20 _ => .notDirectory
  | .inappropriateType _ 21 _ => .isDirectory
  | .permissionDenied _ code reason =>
    .other (reason ++ " (os error " ++ toString code.toNat ++ ")")
  | .userError _ => .notText
  | error => .other (toString error)

def caught {α : Type} (action : IO α) : IO (Except FileError α) := do
  match ← action.toBaseIO with
  | .ok value => return .ok value
  | .error error => return .error (fileError error)

def systemFiles : FileAccess IO where
  read path := caught (IO.FS.readFile path)
  names path := do
    if path.isEmpty then return .error .missing
    caught do
      let entries ← ((← IO.currentDir) / path).readDir
      return (entries.map (·.fileName)).toList

def system : IO (World IO) := do
  return {
    files := systemFiles
    home := ← IO.getEnv "HOME"
    input := caught (do (← IO.getStdin).readToEnd)
    now := IO.monoMsNow
    depth := 10000 }

end Highlighter.CommandLine

open Highlighter.CommandLine in
def main (arguments : List String) : IO UInt32 := do
  match ← run (← system) arguments with
  | some outcome =>
    IO.print outcome.output
    IO.eprint outcome.errors
    return outcome.code.toUInt32
  | none => return 101
