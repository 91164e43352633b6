set_option autoImplicit false

namespace Highlighter

inductive FileError where
  | missing
  | notDirectory
  | isDirectory
  | notText
  | other (message : String)
  deriving DecidableEq, Repr

def FileError.message : FileError → String
  | .missing => "No such file or directory (os error 2)"
  | .notDirectory => "Not a directory (os error 20)"
  | .isDirectory => "Is a directory (os error 21)"
  | .notText => "stream did not contain valid UTF-8"
  | .other message => message

structure FileAccess (m : Type → Type) where
  read : String → m (Except FileError String)
  names : String → m (Except FileError (List String))

end Highlighter
