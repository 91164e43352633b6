import Highlighter.Table

set_option autoImplicit false

namespace Highlighter

/-- A rule matches a pattern, or spans from an opening to a closing pattern, or spans lines for as
long as a continuing pattern matches; or it refers to another rule, or only holds nested ones. -/
structure RuleDecl where
  reference : Option String
  name : Option String
  contentName : Option String
  pattern : Option String
  captures : Option (List (String × RuleDecl))
  opening : Option String
  openingCaptures : Option (List (String × RuleDecl))
  closing : Option String
  closingCaptures : Option (List (String × RuleDecl))
  continuing : Option String
  continuingCaptures : Option (List (String × RuleDecl))
  nested : Option (List RuleDecl)
  repository : Option (List (String × RuleDecl))
  closingLast : Bool

namespace RuleDecl

mutual

def size : RuleDecl → Nat
  | ⟨_, _, _, _, captures, _, openingCaptures, _, closingCaptures, _, continuingCaptures, nested,
      repository, _⟩ =>
    1 + tableSize captures + tableSize openingCaptures + tableSize closingCaptures +
      tableSize continuingCaptures + tableSize repository +
      (match nested with
        | some rules => listSize rules
        | none => 0)

def tableSize : Option (List (String × RuleDecl)) → Nat
  | none => 0
  | some table => entriesSize table

def entriesSize : List (String × RuleDecl) → Nat
  | [] => 0
  | (_, rule) :: rest => size rule + entriesSize rest

def listSize : List RuleDecl → Nat
  | [] => 0
  | rule :: rest => size rule + listSize rest

end

end RuleDecl

structure GrammarDecl where
  scopeName? : Option String
  name : Option String
  patterns : List RuleDecl
  repository : Table RuleDecl
  injections : Table RuleDecl
  injectionSelector : Option String
  injectsInto : List String
  fileTypes : List String
  firstLine : Option String

namespace GrammarDecl

def scopeName (grammar : GrammarDecl) : String := grammar.scopeName?.getD ""

def ruleCount (grammar : GrammarDecl) : Nat :=
  RuleDecl.listSize grammar.patterns + RuleDecl.entriesSize grammar.repository +
    RuleDecl.entriesSize grammar.injections

end GrammarDecl

end Highlighter
