import Highlighter.Grammar.Declaration
import Highlighter.Json.Schema

set_option autoImplicit false

namespace Highlighter

def ruleParts : List Json.Part :=
  ["include", "name", "contentName", "match", "captures", "begin", "beginCaptures", "end",
    "endCaptures", "while", "whileCaptures", "patterns", "repository"].map (⟨[·], false⟩) ++
  [⟨["applyEndPatternLast"], true⟩]

-- `depth` bounds the rules inside one another. It is never used up before the room of the shape.
def RuleDecl.shape (depth : Nat) : Json.Shape RuleDecl := fun room json =>
  match depth with
  | 0 => none
  | depth + 1 => do
    let (room, values) ← Json.Shape.parts ruleParts room json
    match values with
    | [reference, name, contentName, pattern, captures, opening, openingCaptures, closing,
        closingCaptures, continuing, continuingCaptures, nested, repository, closingLast] =>
      let text := Json.Shape.partOr none (Json.Shape.optional Json.Shape.text) room
      let rules := Json.Shape.partOr none (Json.Shape.optional (Json.Shape.tableOf (shape depth))) room
      return {
        reference := ← text reference
        name := ← text name
        contentName := ← text contentName
        pattern := ← text pattern
        captures := ← rules captures
        opening := ← text opening
        openingCaptures := ← rules openingCaptures
        closing := ← text closing
        closingCaptures := ← rules closingCaptures
        continuing := ← text continuing
        continuingCaptures := ← rules continuingCaptures
        nested := ← Json.Shape.partOr none (Json.Shape.optional (Json.Shape.listOf (shape depth))) room nested
        repository := ← rules repository
        closingLast := ← Json.Shape.partOr false Json.Shape.flag room closingLast }
    | _ => none

def grammarParts : List Json.Part :=
  [⟨["scopeName"], false⟩, ⟨["name"], false⟩, ⟨["patterns"], true⟩, ⟨["repository"], true⟩,
    ⟨["injections"], true⟩, ⟨["injectionSelector"], false⟩, ⟨["injectTo"], true⟩,
    ⟨["fileTypes"], true⟩, ⟨["firstLineMatch"], false⟩]

namespace GrammarDecl

def shape : Json.Shape GrammarDecl := fun room json => do
  let (room, values) ← Json.Shape.parts grammarParts room json
  match values with
  | [scopeName, name, patterns, repository, injections, injectionSelector, injectsInto, fileTypes,
      firstLine] =>
    let text := Json.Shape.partOr none (Json.Shape.optional Json.Shape.text) room
    let rule := RuleDecl.shape Json.wholeRoom
    return {
      scopeName? := ← text scopeName
      name := ← text name
      patterns := ← Json.Shape.partOr [] (Json.Shape.listOf rule) room patterns
      repository := ← Json.Shape.partOr [] (Json.Shape.tableOf rule) room repository
      injections := ← Json.Shape.partOr [] (Json.Shape.tableOf rule) room injections
      injectionSelector := ← text injectionSelector
      injectsInto := ← Json.Shape.partOr [] (Json.Shape.listOf Json.Shape.text) room injectsInto
      fileTypes := ← Json.Shape.partOr [] (Json.Shape.listOf Json.Shape.text) room fileTypes
      firstLine := ← text firstLine }
  | _ => none

def ofJson? (json : Json) : Option GrammarDecl := shape Json.wholeRoom json

end GrammarDecl

end Highlighter
