import Highlighter.Regex.Compiled
import Highlighter.Text.Cursor

set_option autoImplicit false

namespace Highlighter.Regex

open Text

structure Region where
  start : Nat
  stop : Nat
  deriving DecidableEq, Repr

-- `groups` holds what each group captured, the group numbered 1 first.
structure Match where
  whole : Region
  groups : List (Option Region)
  deriving DecidableEq, Repr

def Match.group? (found : Match) : Nat → Option Region
  | 0 => some found.whole
  | n + 1 => (found.groups[n]?).join

-- `kept` is where the match is to start, when not where it was tried; `opened` and `closed` hold
-- the places between which each group last matched.
structure State (text : List Char) where
  cursor : Cursor text
  kept : Option (Cursor text)
  opened : List (Option (Cursor text))
  closed : List (Option (Cursor text))

abbrev Run (text : List Char) :=
  (State text → Option (State text)) → State text → Option (State text)

namespace State

variable {text : List Char}

def start (groups : Nat) (cursor : Cursor text) : State text :=
  ⟨cursor, none, List.replicate groups none, List.replicate groups none⟩

def goTo (state : State text) (cursor : Cursor text) : State text :=
  { state with cursor := cursor }

def openGroup (state : State text) (n : Nat) (cursor : Cursor text) : State text :=
  { state with opened := state.opened.set (n - 1) (some cursor) }

def closeGroup (state : State text) (n : Nat) (cursor : Cursor text) : State text :=
  { state with
    opened := state.opened.set (n - 1) (some cursor)
    closed := state.closed.set (n - 1) (some state.cursor) }

def captured? (state : State text) (n : Nat) : Option (List Char) :=
  match (state.opened[n - 1]?).join, (state.closed[n - 1]?).join with
  | some opened, some closed => takeBytes? (closed.offset - opened.offset) opened.after
  | _, _ => none

def region (opened closed : Option (Cursor text)) : Option Region :=
  match opened, closed with
  | some opened, some closed => some ⟨opened.offset, closed.offset⟩
  | _, _ => none

def found (start : Cursor text) (state : State text) : Match :=
  let first := (state.kept.getD start).offset
  ⟨⟨min first state.cursor.offset, state.cursor.offset⟩,
    List.zipWith region state.opened state.closed⟩

end State

section Steps

variable {text : List Char}

def afterText? : List Char → Cursor text → Option (Cursor text)
  | [], cursor => some cursor
  | c :: rest, cursor =>
    match cursor.next? with
    | some (d, next) => if c == d then afterText? rest next else none
    | none => none

def afterFolded? (letters : List Char) (cursor : Cursor text) : Option (Cursor text) :=
  if letters.isEmpty then some cursor
  else
    match _step : cursor.next? with
    | some (c, next) =>
      match afterLead? (fold c) letters with
      | some rest => afterFolded? rest next
      | none => none
    | none => none
  termination_by cursor.after.length
  decreasing_by exact Cursor.length_of_next? _step

def afterSet? (set : CharSet) (cursor : Cursor text) : Option (Cursor text) :=
  match cursor.next? with
  | some (c, next) => if set.mem c then some next else none
  | none => none

def afterSets? (set : CharSet) : Nat → Cursor text → Option (Cursor text)
  | 0, cursor => some cursor
  | count + 1, cursor =>
    match afterSet? set cursor with
    | some next => afterSets? set count next
    | none => none

def reach (set : CharSet) (limit : Option Nat) (passed : List (Cursor text))
    (cursor : Cursor text) : List (Cursor text) :=
  if limit = some 0 then cursor :: passed
  else
    match _step : cursor.next? with
    | some (c, next) =>
      if set.mem c then reach set (limit.map (· - 1)) (cursor :: passed) next
      else cursor :: passed
    | none => cursor :: passed
  termination_by cursor.after.length
  decreasing_by exact Cursor.length_of_next? _step

def nearest (set : CharSet) (limit : Option Nat) (accept : Cursor text → Option (State text))
    (cursor : Cursor text) : Option (State text) :=
  match accept cursor with
  | some state => some state
  | none =>
    if limit = some 0 then none
    else
      match _step : cursor.next? with
      | some (c, next) =>
        if set.mem c then nearest set (limit.map (· - 1)) accept next else none
      | none => none
  termination_by cursor.after.length
  decreasing_by exact Cursor.length_of_next? _step

def wordAt (c : Option Char) : Bool := c.any isWord

def Anchor.holds (origin : Cursor text) (cursor : Cursor text) : Anchor → Bool
  | .textStart => cursor.isFirst
  | .textEnd => cursor.isLast
  | .lastLineEnd => cursor.isLast || cursor.after == ['\n']
  | .lineStart => cursor.isFirst || (cursor.lastChar? == some '\n' && !cursor.isLast)
  | .lineEnd => cursor.isLast || cursor.nextChar? == some '\n'
  | .searchStart => cursor.offset == origin.offset
  | .wordEdge => wordAt cursor.lastChar? != wordAt cursor.nextChar?
  | .notWordEdge => wordAt cursor.lastChar? == wordAt cursor.nextChar?

def times (body : Run text) : Nat → Run text
  | 0, accept, state => accept state
  | count + 1, accept, state => body (times body count accept) state

-- Rounds of `body`, as many as `limit` allows, a round that moves nowhere being the last.
def greedy (body : Run text) (accept : State text → Option (State text)) (limit : Option Nat)
    (state : State text) : Option (State text) :=
  if limit = some 0 then accept state
  else
    let again (next : State text) : Option (State text) :=
      if _moved : state.cursor.offset < next.cursor.offset then
        greedy body accept (limit.map (· - 1)) next
      else accept next
    match body again state with
    | some found => some found
    | none => accept state
  termination_by byteLength text - state.cursor.offset
  decreasing_by have := next.cursor.offset_le; omega

def reluctant (body : Run text) (accept : State text → Option (State text))
    (limit : Option Nat) (state : State text) : Option (State text) :=
  match accept state with
  | some found => some found
  | none =>
    if limit = some 0 then none
    else
      body (fun next =>
        if _moved : state.cursor.offset < next.cursor.offset then
          reluctant body accept (limit.map (· - 1)) next
        else accept next) state
  termination_by byteLength text - state.cursor.offset
  decreasing_by have := next.cursor.offset_le; omega

-- Whether `body` matches from some place before the cursor up to the cursor, the nearest place
-- being tried first. The place lies `least` to `most` characters back.
def lookBehind (body : Run text) (state : State text) (least : Nat) (most : Option Nat)
    (cursor : Cursor text) : Option (State text) :=
  let ends (next : State text) : Option (State text) :=
    if next.cursor.offset = state.cursor.offset then some next else none
  match if least = 0 then body ends (state.goTo cursor) else none with
  | some found => some found
  | none =>
    if most = some 0 then none
    else
      match _step : cursor.previous? with
      | some (_, previous) => lookBehind body state (least - 1) (most.map (· - 1)) previous
      | none => none
  termination_by cursor.before.length
  decreasing_by exact Cursor.length_of_previous? _step

def afterCapture? (state : State text) (anyCase : Bool) (n : Nat) : Option (Cursor text) :=
  match state.captured? n with
  | none => none
  | some cs =>
    if anyCase then afterFolded? (foldAll cs) state.cursor else afterText? cs state.cursor

end Steps

-- `origin` is where the search started, and `call` runs a called group.
def Expr.run {text : List Char} (origin : Cursor text) (call : Callee → Run text) :
    Expr → Run text
  | .empty, accept, state => accept state
  | .set wanted, accept, state =>
    match afterSet? wanted state.cursor with
    | some next => accept (state.goTo next)
    | none => none
  | .folded letters, accept, state =>
    match afterFolded? letters state.cursor with
    | some next => accept (state.goTo next)
    | none => none
  | .seq a b, accept, state => run origin call a (run origin call b accept) state
  | .alt a b, accept, state =>
    match run origin call a accept state with
    | some found => some found
    | none => run origin call b accept state
  | .many (.set wanted) least most isGreedy, accept, state =>
    match afterSets? wanted least state.cursor with
    | none => none
    | some cursor =>
      let limit := most.map (· - least)
      if isGreedy then (reach wanted limit [] cursor).findSome? fun next => accept (state.goTo next)
      else nearest wanted limit (fun next => accept (state.goTo next)) cursor
  | .many body least most isGreedy, accept, state =>
    let limit := most.map (· - least)
    let more :=
      if isGreedy then greedy (run origin call body) accept limit
      else reluctant (run origin call body) accept limit
    times (run origin call body) least more state
  | .group n body, accept, state =>
    run origin call body (fun next => accept (next.closeGroup n state.cursor))
      (state.openGroup n state.cursor)
  | .reference groups anyCase, accept, state =>
    match groups.findSome? (afterCapture? state anyCase) with
    | some next => accept (state.goTo next)
    | none => none
  | .call callee, accept, state => call callee accept state
  | .ahead negated body, accept, state =>
    match negated, run origin call body some state with
    | false, some found => accept (found.goTo state.cursor)
    | true, none => accept state
    | _, _ => none
  | .behind negated body, accept, state =>
    match negated, lookBehind (run origin call body) state body.width.least body.width.most
      state.cursor with
    | false, some found => accept (found.goTo state.cursor)
    | true, none => accept state
    | _, _ => none
  | .atomic body, accept, state =>
    match run origin call body some state with
    | some found => accept found
    | none => none
  | .anchor place, accept, state =>
    if place.holds origin state.cursor then accept state else none
  | .keep, accept, state => accept { state with kept := some state.cursor }

def run {text : List Char} (regex : Regex) (origin : Cursor text) : Nat → Expr → Run text
  | 0 => Expr.run origin fun _ _ _ => none
  | depth + 1 =>
    Expr.run origin fun callee =>
      match regex.target? callee with
      | some body => run regex origin depth body
      | none => fun _ _ => none

-- A group cannot call itself again before a character has been matched, so calls nest no deeper
-- than this.
def callDepth (regex : Regex) (text : List Char) : Nat :=
  if regex.expr.callees.isEmpty then 0 else (byteLength text + 2) * (regex.groupCount + 1)

def matchAt? {text : List Char} (regex : Regex) (groups depth : Nat) (origin cursor : Cursor text) :
    Option Match :=
  (run regex origin depth regex.expr some (State.start groups cursor)).map (State.found cursor)

def firstMatch? {text : List Char} (attempt : Cursor text → Option Match) (cursor : Cursor text) :
    Option Match :=
  match attempt cursor with
  | some found => some found
  | none =>
    match _step : cursor.next? with
    | some (_, next) => firstMatch? attempt next
    | none => none
  termination_by cursor.after.length
  decreasing_by exact Cursor.length_of_next? _step

def search? {text : List Char} (regex : Regex) (origin : Cursor text) : Option Match :=
  firstMatch? (regex.matchAt? regex.groupCount (regex.callDepth text) origin) origin

end Highlighter.Regex
