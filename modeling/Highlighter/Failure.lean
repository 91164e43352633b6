import Highlighter.Files
import Highlighter.Grammar.Validation
import Highlighter.Theme.Stylesheet

set_option autoImplicit false

namespace Highlighter

inductive Failure where
  | grammar (error : DeclarationError)
  | grammarFile (path : String) (error : FileError)
  | themeText
  | stylesheet (error : Theme.Stylesheet.Error)
  | themeFile (path : String) (error : FileError)
  | configText
  | configFile (path : String) (error : FileError)
  | file (error : FileError)
  | unknownScope (scope : String)
  deriving DecidableEq, Repr

namespace Failure

def reading (kind path : String) (error : FileError) : String :=
  "cannot read " ++ kind ++ " " ++ path ++ ": " ++ error.message

def message : Failure → String
  | .grammar error => error.message
  | .grammarFile path error => reading "grammar" path error
  | .themeText => "cannot parse theme"
  | .stylesheet error => error.message
  | .themeFile path error => reading "theme" path error
  | .configText => "invalid config"
  | .configFile path error => reading "config" path error
  | .file error => "I/O error: " ++ error.message
  | .unknownScope scope => "no grammar registered for scope " ++ scope

end Failure

end Highlighter
