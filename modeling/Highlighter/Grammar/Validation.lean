import Highlighter.Grammar.Reader
import Highlighter.Text.Quoted

set_option autoImplicit false

namespace Highlighter

inductive RuleFault where
  | openingAlone
  | closingAndContinuing
  | closingAlone
  | continuingAlone
  | emptyReference
  | captureKey (field key : String)
  deriving DecidableEq, Repr

def RuleFault.message : RuleFault → String
  | .openingAlone => "\x60begin\x60 without \x60end\x60 or \x60while\x60"
  | .closingAndContinuing => "both \x60end\x60 and \x60while\x60"
  | .closingAlone => "\x60end\x60 without \x60begin\x60"
  | .continuingAlone => "\x60while\x60 without \x60begin\x60"
  | .emptyReference => "empty include"
  | .captureKey field key => "non numeric " ++ field ++ " key " ++ Text.quoted key

inductive DeclarationError where
  | missingScopeName
  | malformedRule (path : String) (fault : RuleFault)
  -- The text is no JSON of the right shape.
  | malformedText
  deriving DecidableEq, Repr

def DeclarationError.message : DeclarationError → String
  | .missingScopeName => "grammar has no scope name"
  | .malformedRule path fault => "malformed rule at " ++ path ++ ": " ++ fault.message
  | .malformedText => "cannot parse grammar"

namespace RuleDecl

-- The fault of the rule's own fields, whatever its parts.
def ownFault? (rule : RuleDecl) : Option RuleFault :=
  let shape :=
    if rule.reference.isSome || rule.pattern.isSome then none
    else
      match rule.opening.isSome, rule.closing.isSome, rule.continuing.isSome with
      | true, false, false => some .openingAlone
      | true, true, true => some .closingAndContinuing
      | false, true, _ => some .closingAlone
      | false, false, true => some .continuingAlone
      | _, _, _ => none
  shape <|> if rule.reference == some "" then some .emptyReference else none

def isCaptureKey (key : String) : Bool := (Text.readIndex? key.toList).isSome

mutual

def fault? (path : String) (rule : RuleDecl) : Option (String × RuleFault) :=
  match rule with
  | ⟨reference, name, contentName, pattern, captures, opening, openingCaptures, closing,
      closingCaptures, continuing, continuingCaptures, nested, repository, closingLast⟩ =>
    (ownFault? ⟨reference, name, contentName, pattern, captures, opening, openingCaptures, closing,
      closingCaptures, continuing, continuingCaptures, nested, repository, closingLast⟩).map
        (path, ·) <|>
    (match nested with
      | some rules => listFault? (path ++ ".patterns") 0 rules
      | none => none) <|>
    (match repository with
      | some rules => tableFault? (path ++ ".repository") rules
      | none => none) <|>
    (match captures with
      | some rules => capturesFault? path "captures" rules
      | none => none) <|>
    (match openingCaptures with
      | some rules => capturesFault? path "beginCaptures" rules
      | none => none) <|>
    (match closingCaptures with
      | some rules => capturesFault? path "endCaptures" rules
      | none => none) <|>
    (match continuingCaptures with
      | some rules => capturesFault? path "whileCaptures" rules
      | none => none)

def listFault? (path : String) (index : Nat) : List RuleDecl → Option (String × RuleFault)
  | [] => none
  | rule :: rest =>
    fault? (path ++ "[" ++ toString index ++ "]") rule <|> listFault? path (index + 1) rest

def tableFault? (path : String) : List (String × RuleDecl) → Option (String × RuleFault)
  | [] => none
  | (name, rule) :: rest => fault? (path ++ "." ++ name) rule <|> tableFault? path rest

def capturesFault? (path field : String) : List (String × RuleDecl) → Option (String × RuleFault)
  | [] => none
  | (key, rule) :: rest =>
    if isCaptureKey key then
      fault? (path ++ "." ++ field ++ "." ++ key) rule <|> capturesFault? path field rest
    else some (path, .captureKey field key)

end

end RuleDecl

namespace GrammarDecl

def injectionsFault? : List (String × RuleDecl) → Option (String × RuleFault)
  | [] => none
  | (selector, rule) :: rest =>
    rule.fault? ("injections[" ++ Text.quoted selector ++ "]") <|> injectionsFault? rest

def validate (grammar : GrammarDecl) : Except DeclarationError Unit :=
  if grammar.scopeName?.all Text.isBlankText then .error .missingScopeName
  else
    match RuleDecl.listFault? "patterns" 0 grammar.patterns <|>
        RuleDecl.tableFault? "repository" grammar.repository <|>
        injectionsFault? grammar.injections with
    | some (path, fault) => .error (.malformedRule path fault)
    | none => .ok ()

def ofValidJson (json : Json) : Except DeclarationError GrammarDecl :=
  match ofJson? json with
  | none => .error .malformedText
  | some grammar => (validate grammar).map fun _ => grammar

def ofText (source : String) : Except DeclarationError GrammarDecl :=
  match Json.read? source with
  | none => .error .malformedText
  | some json => ofValidJson json

end GrammarDecl

end Highlighter
