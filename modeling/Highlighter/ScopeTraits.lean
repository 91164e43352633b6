import Highlighter.Metadata
import Highlighter.Table
import Highlighter.Text.Split

set_option autoImplicit false

namespace Highlighter

structure ScopeTraits where
  language : UInt8
  type : Option TokenType
  deriving DecidableEq, Repr

namespace TokenType

def words : List (List Char × TokenType) := [
  ("comment".toList, .comment), ("string".toList, .string), ("regex".toList, .regex),
  ("meta.embedded".toList, .other)]

def wordAt? (cs : List Char) : Option TokenType :=
  words.findSome? fun (word, type) =>
    match Text.afterLead? word cs with
    | some rest => if rest.head?.any Text.isIdentifier then none else some type
    | none => none

def inScope? (inWord : Bool) : List Char → Option TokenType
  | [] => none
  | c :: rest =>
    match if inWord then none else wordAt? (c :: rest) with
    | some type => some type
    | none => inScope? (Text.isIdentifier c) rest

end TokenType

structure Languages where
  main : UInt8
  embedded : Table UInt8

namespace Languages

def longer (a b : String) : Bool :=
  Text.byteLength b.toList < Text.byteLength a.toList ||
    (Text.byteLength a.toList == Text.byteLength b.toList && a < b)

def scopes (languages : Languages) : List String :=
  languages.embedded.keys.mergeSort fun a b => longer a b || a == b

def lead? (scope key : List Char) : Option (List Char) :=
  match Text.afterLead? key scope with
  | some ('.' :: _) => some (key ++ ['.'])
  | some [] => some key
  | _ => none

def language (languages : Languages) (scope : String) : UInt8 :=
  match languages.scopes.findSome? fun key => lead? scope.toList key.toList with
  | none => languages.main
  | some lead =>
    let key := String.ofList (Text.dropEnd (· == '.') lead)
    (languages.embedded.get? key).getD languages.main

def traits (languages : Languages) (scope : String) : ScopeTraits :=
  ⟨languages.language scope, TokenType.inScope? false scope.toList⟩

def mainTraits (languages : Languages) : ScopeTraits := ⟨languages.main, some .other⟩

end Languages

end Highlighter
