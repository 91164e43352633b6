import Highlighter.Text.Split

set_option autoImplicit false

namespace Highlighter.Text

def pathParts (path : List Char) : List (List Char) :=
  match pieces '/' path with
  | [] => []
  | first :: rest =>
    let kept := rest.filter fun part => !part.isEmpty && part != ['.']
    if first.isEmpty then kept else first :: kept

def fileName? (path : String) : Option String :=
  match (pathParts path.toList).getLast? with
  | none | some ['.'] | some ['.', '.'] => none
  | some name => some (String.ofList name)

def extension? (name : String) : Option String :=
  match splitFirst? '.' name.toList.reverse with
  | none | some (_, []) => none
  | some (extension, _) => some (String.ofList extension.reverse)

def joinPath (directory name : String) : String :=
  match directory.toList.getLast? with
  | none | some '/' => directory ++ name
  | some _ => directory ++ "/" ++ name

end Highlighter.Text
