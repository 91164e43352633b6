import Highlighter.Files
import Highlighter.Text.Split

set_option autoImplicit false

namespace Highlighter

abbrev FileTree.Place := List String

structure FileTree where
  files : List (FileTree.Place × String)

namespace FileTree

def parts (path : String) : Place := (Text.pieces '/' path.toList).map String.ofList

def isStep (part : String) : Bool := part != "" && part != "."

def ofFiles (files : List (String × String)) : FileTree :=
  ⟨files.map fun (path, content) => ((parts path).filter isStep, content)⟩

def file? (tree : FileTree) (place : Place) : Option String := tree.files.lookup place

def within? : Place → Place → Option Place
  | [], rest => some rest
  | _ :: _, [] => none
  | name :: place, first :: rest => if name = first then within? place rest else none

def below (tree : FileTree) (place : Place) : List Place :=
  (tree.files.filterMap fun (other, _) => within? place other).filter (!·.isEmpty)

def isThere (tree : FileTree) (place : Place) : Bool :=
  place.isEmpty || (tree.file? place).isSome || !(tree.below place).isEmpty

def walk (tree : FileTree) (place : Place) : List String → Except FileError Place
  | [] => .ok place
  | part :: rest =>
    if (tree.file? place).isSome then .error .notDirectory
    else if !isStep part then walk tree place rest
    else if part = ".." then walk tree place.dropLast rest
    else if tree.isThere (place ++ [part]) then walk tree (place ++ [part]) rest
    else .error .missing

def place (tree : FileTree) (path : String) : Except FileError Place :=
  if path.isEmpty then .error .missing else tree.walk [] (parts path)

def seenFrom (tree : FileTree) (path : String) : FileTree :=
  if path.toList.head? = some '/' then ⟨[]⟩ else tree

def read (tree : FileTree) (path : String) : Except FileError String := do
  let tree := tree.seenFrom path
  match tree.file? (← tree.place path) with
  | some content => .ok content
  | none => .error .isDirectory

def names (tree : FileTree) (path : String) : Except FileError (List String) := do
  let tree := tree.seenFrom path
  let place ← tree.place path
  if (tree.file? place).isSome then .error .notDirectory
  else .ok ((tree.below place).filterMap (·.head?)).eraseDups

def access (tree : FileTree) : FileAccess Id := ⟨tree.read, tree.names⟩

end FileTree

end Highlighter
