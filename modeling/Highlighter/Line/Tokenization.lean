import Highlighter.Line.Candidate
import Highlighter.Line.Token

set_option autoImplicit false

namespace Highlighter

open Regex (Match Region)

/-- Tokens reach from one to the next: the next one starts at `lastStop`. Once something was nested
too deep for the stack of the program, the program has ended, whatever else stands here. -/
structure Work (grammar : Grammar) where
  caches : Caches grammar
  emitted : Emitted
  lastStop : Nat
  tooDeep : Bool

abbrev Job (grammar : Grammar) := StateM (Work grammar)

/-- Where the reading of a text stands. The `fresh` topmost frames of the stack were opened on this
text. -/
structure Progress where
  offset : Nat
  stack : Stack
  fresh : Nat
  anchor : Option Nat
  onFirstLine : Bool

-- Only the start of a document's first line is the start of the document.
def Progress.moveTo (progress : Progress) (offset : Nat) : Progress :=
  if progress.offset < offset then { progress with offset, onFirstLine := false } else progress

inductive Outcome where
  | more (progress : Progress)
  | done (stack : Stack)

abbrev Retokenize (grammar : Grammar) :=
  List Char → Bool → Nat → Stack → Job grammar Unit

namespace Job

variable {grammar : Grammar}

def cached {α : Type} (action : StateM (Caches grammar) α) : Job grammar α :=
  modifyGet fun work =>
    let (value, caches) := action.run work.caches
    (value, { work with caches })

def emit (scopes : ScopePath) (stop : Nat) : Job grammar Unit :=
  modify fun work =>
    if stop ≤ work.lastStop then work
    else
      { work with
        emitted := work.emitted.add work.lastStop stop scopes (grammar.tokenMetadata scopes)
        lastStop := stop }

def overflow : Job grammar Unit := modify fun work => { work with tooDeep := true }

structure OpenGroup where
  scopes : ScopePath
  stop : Nat

def innerScopes (stack : Stack) : List OpenGroup → ScopePath
  | [] => stack.contentScopes
  | group :: _ => group.scopes

def closeUpTo (start : Nat) : List OpenGroup → Job grammar (List OpenGroup)
  | [] => return []
  | group :: rest =>
    if group.stop ≤ start then do
      emit group.scopes group.stop
      closeUpTo start rest
    else return group :: rest

def closeAll : List OpenGroup → Job grammar Unit
  | [] => return ()
  | group :: rest => do
    emit group.scopes group.stop
    closeAll rest

-- A group with rules of its own is read by them at once; any other with a name stays open.
def enterGroup (retokenize : Retokenize grammar) (text : List Char) (onFirstLine : Bool)
    (stack : Stack) (found : Match) (groups : List OpenGroup) (rule : Rule) (region : Region) :
    Job grammar (List OpenGroup) := do
  let name := rule.name.map (·.resolve text found.group?)
  match rule.kind with
  | .capturing (some inner) =>
    let nameScopes ← cached (Grammar.pushName stack.contentScopes name)
    let contentName := rule.contentName.map (·.resolve text found.group?)
    let contentScopes ← cached (Grammar.pushName nameScopes contentName)
    let frame : Frame :=
      ⟨stack.depth + 1, inner, some region.start, none, false, none, nameScopes, contentScopes⟩
    retokenize ((Text.takeBytes? region.stop text).getD [])
      (onFirstLine && region.start == 0) region.start (stack.push frame)
    return groups
  | _ =>
    match name with
    | none => return groups
    | some name =>
      let scopes ← cached (Grammar.pushName (innerScopes stack groups) (some name))
      return ⟨scopes, region.stop⟩ :: groups

-- Groups that captured nothing count for nothing, and neither do any after one that starts behind
-- the match.
def readGroups (retokenize : Retokenize grammar) (text : List Char) (onFirstLine : Bool)
    (stack : Stack) (found : Match) (groups : List OpenGroup) :
    List (Option RuleId × Option Region) → Job grammar Unit
  | [] => closeAll groups
  | (some id, some region) :: rest => do
    if region.start = region.stop then
      readGroups retokenize text onFirstLine stack found groups rest
    else if found.whole.stop < region.start then closeAll groups
    else
      let groups ← closeUpTo region.start groups
      emit (innerScopes stack groups) region.start
      match grammar.graph.rule? id with
      | none => readGroups retokenize text onFirstLine stack found groups rest
      | some rule =>
        let groups ← enterGroup retokenize text onFirstLine stack found groups rule region
        readGroups retokenize text onFirstLine stack found groups rest
  | _ :: rest => readGroups retokenize text onFirstLine stack found groups rest

def captures (retokenize : Retokenize grammar) (text : List Char) (onFirstLine : Bool)
    (stack : Stack) (rules : CaptureRules) (found : Match) : Job grammar Unit :=
  readGroups retokenize text onFirstLine stack found []
    (rules.zip (some found.whole :: found.groups))

variable (retokenize : Retokenize grammar) (text : List Char) (size : Nat)

def stepPast (progress : Progress) : Job grammar Outcome := do
  let scopes := progress.stack.contentScopes
  match (Text.Cursor.at? text progress.offset).bind (·.next?) with
  | some (_, next) =>
    emit scopes next.offset
    return .more { progress with offset := next.offset, onFirstLine := false }
  | none =>
    emit scopes size
    return .done progress.stack

def closingCaptures (grammar : Grammar) (id : RuleId) : CaptureRules :=
  match grammar.graph.rule? id with
  | some ⟨_, _, _, .spanning _ _ _ captures _ _⟩ => captures
  | _ => []

-- A rule that closes where it was opened, without a character read in between, stays open.
def close (progress : Progress) (found : Match) : Job grammar Outcome := do
  let stack := progress.stack
  emit stack.contentScopes found.whole.start
  let named := stack.withContent stack.top.nameScopes
  captures retokenize text progress.onFirstLine named (closingCaptures grammar stack.top.rule) found
  emit named.contentScopes found.whole.stop
  let isFresh := 0 < progress.fresh
  let anchor := if isFresh then stack.top.anchor else none
  if found.whole.stop ≤ progress.offset && isFresh &&
      stack.top.entered == some found.whole.start then
    stepPast text size { progress with anchor }
  else
    return .more { progress.moveTo found.whole.stop with
      stack := stack.pop
      fresh := progress.fresh - 1
      anchor }

def frameFor (progress : Progress) (id : RuleId) (found : Match) (scopes : ScopePath) : Frame :=
  ⟨progress.stack.depth + 1, id, some found.whole.start, progress.anchor, found.whole.stop == size,
    none, scopes, scopes⟩

def takeMatch (progress : Progress) (id : RuleId) (rules : CaptureRules) (found : Match)
    (nameScopes : ScopePath) : Job grammar Outcome := do
  let stack := progress.stack.push (frameFor size progress id found nameScopes)
  captures retokenize text progress.onFirstLine stack rules found
  emit nameScopes found.whole.stop
  if progress.offset < found.whole.stop then return .more (progress.moveTo found.whole.stop)
  else stepPast text size progress

-- `follow` is what closes or continues the rule. A rule that is open already is not opened again at
-- the same place.
def openRule (progress : Progress) (id : RuleId) (rule : Rule) (rules : CaptureRules)
    (follow : Pattern) (found : Match) (nameScopes : ScopePath) : Job grammar Outcome := do
  let frame := frameFor size progress id found nameScopes
  captures retokenize text progress.onFirstLine (progress.stack.push frame) rules found
  emit nameScopes found.whole.stop
  let contentName := rule.contentName.map (·.resolve text found.group?)
  let contentScopes ← cached (Grammar.pushName nameScopes contentName)
  let resolved ←
    if follow.refersBack then cached (Grammar.resolved (follow.resolve text found.group?))
    else pure none
  if found.whole.stop ≤ progress.offset &&
      progress.stack.hasOpened id (some found.whole.start) progress.fresh then
    stepPast text size { progress with anchor := none }
  else
    return .more { progress.moveTo found.whole.stop with
      stack := progress.stack.push { frame with contentScopes, resolved }
      fresh := progress.fresh + 1
      anchor := some found.whole.stop }

def takeRule (progress : Progress) (id : RuleId) (found : Match) : Job grammar Outcome := do
  emit progress.stack.contentScopes found.whole.start
  match grammar.graph.rule? id with
  | none => return .more (progress.moveTo found.whole.stop)
  | some rule =>
    let name := rule.name.map (·.resolve text found.group?)
    let nameScopes ← cached (Grammar.pushName progress.stack.contentScopes name)
    match rule.kind with
    | .matching _ rules => takeMatch retokenize text size progress id rules found nameScopes
    | .spanning _ rules follow _ _ _ | .continuing _ rules follow _ _ =>
      openRule retokenize text size progress id rule rules follow found nameScopes
    | .holding _ | .capturing _ => return .more (progress.moveTo found.whole.stop)

def advance (progress : Progress) : Job grammar Outcome :=
  let found := (Text.Cursor.at? text progress.offset).bind fun cursor =>
    Candidate.best? grammar ⟨cursor, progress.onFirstLine, progress.anchor⟩ progress.stack
  match found with
  | none => do
    emit progress.stack.contentScopes size
    return .done progress.stack
  | some ⟨.closing, found⟩ => close retokenize text size progress found
  | some ⟨.rule id, found⟩ => takeRule retokenize text size progress id found

def read : Option Nat → Nat → Progress → Job grammar (Stack × Bool)
  | some 0, _, progress => return (progress.stack, true)
  | _, 0, progress => return (progress.stack, false)
  | checks, fuel + 1, progress => do
    match ← advance retokenize text size progress with
    | .done stack => return (stack, false)
    | .more progress => read (checks.map (· - 1)) fuel progress

-- At one place there are no more rounds than frames and rules, and a round opens one rule at most.
def rounds (grammar : Grammar) (size : Nat) (stack : Stack) : Nat :=
  (size + 2) * (stack.frames.length + (size + 2) * (grammar.graph.rules.size + 2))

end Job

structure LineResult where
  emitted : Emitted
  stack : Stack
  stoppedEarly : Bool
  tooDeep : Bool

namespace Grammar

variable {grammar : Grammar}

-- Groups within groups are read one inside the other, for as many as the stack of the program has
-- room for.
def retokenize : Nat → Retokenize grammar
  | 0 => fun _ _ _ _ => Job.overflow
  | depth + 1 => fun text onFirstLine start stack => do
    let size := Text.byteLength text
    let _ ← Job.read (retokenize depth) text size none (Job.rounds grammar size stack)
      ⟨start, stack, 1, none, onFirstLine⟩

-- Checks the conditions of the rules that span lines, the outermost first, each where the last one
-- ended. The first to fail closes its rule and all rules in it.
def checkConditions (retokenize : Retokenize grammar) (text : List Char) (progress : Progress) :
    List Stack → Job grammar Progress
  | [] => return progress
  | stack :: rest =>
    match grammar.graph.rule? stack.top.rule with
    | some ⟨_, _, _, .continuing _ _ condition rules _⟩ => do
      let pattern := stack.top.resolved.getD condition
      let found := (Text.Cursor.at? text progress.offset).bind fun cursor =>
        pattern.search? cursor progress.onFirstLine (progress.anchor == some progress.offset)
      match found.filter fun found => found.whole.start == progress.offset with
      | none => return { progress with stack := stack.pop }
      | some found =>
        Job.emit stack.contentScopes found.whole.start
        Job.captures retokenize text progress.onFirstLine stack rules found
        Job.emit stack.contentScopes found.whole.stop
        checkConditions retokenize text
          { progress.moveTo found.whole.stop with anchor := some found.whole.stop } rest
    | _ => checkConditions retokenize text progress rest

-- When time runs out the rest of the line is one token and the next line starts as this one did.
-- `depth` is how deep groups may stand in groups.
def tokenize (depth : Nat) (line : String) (prior : Option Stack) (checks : Option Nat)
    (isPacked : Bool) : StateM (Caches grammar) LineResult := do
  let start ← match prior with
    | some stack => pure stack
    | none => initialStack
  let text := line.toList ++ ['\n']
  let size := Text.byteLength text
  let nested : Retokenize grammar := retokenize depth
  let anchor := if start.top.tookLineEnd then some 0 else none
  let job : Job grammar (Stack × Bool) := do
    let progress ← checkConditions nested text ⟨0, start, 0, anchor, prior.isNone⟩
      start.enclosing.reverse
    let (stack, stopped) ← Job.read nested text size checks (Job.rounds grammar size start) progress
    if stopped then Job.emit stack.contentScopes size
    return (stack, stopped)
  let ((stack, stopped), work) := job.run ⟨← get, Emitted.none isPacked, 0, false⟩
  set work.caches
  let scopes := stack.contentScopes
  let emitted := work.emitted.finish (size - 1) scopes (grammar.tokenMetadata scopes)
  return ⟨emitted, if stopped then start else stack, stopped, work.tooDeep⟩

def tokenizeLines (depth : Nat) (prior : Option Stack) :
    List String → StateM (Caches grammar) (List LineResult)
  | [] => return []
  | line :: rest => do
    let result ← tokenize depth line prior none false
    return result :: (← tokenizeLines depth (some result.stack) rest)

end Grammar

end Highlighter
