import Highlighter.Live.Basic

set_option autoImplicit false

namespace Highlighter.LiveDocument

open Live

def tell (live : LiveDocument) (event : Event) : LiveDocument :=
  { live with events := live.events ++ [event] }

def report (live : LiveDocument) (activity : Activity) : LiveDocument :=
  if live.reported = activity then live
  else { live with reported := activity }.tell (.turned activity)

def apply (live : LiveDocument) (request : Request) : LiveDocument :=
  match request with
  | .edited edit =>
    { live with slots := live.slots.splice edit, changed := LineRange.shift edit live.changed }
  | .line line => { live with slots := live.slots.invalidate line }
  | .theme theme =>
    { live with slots := live.slots.invalidateAll, reader := live.reader.withTheme theme }
  | .grammar grammar =>
    { live with slots := live.slots.invalidateAll, reader := LineReader.ofGrammar grammar }

def take (live : LiveDocument) (request : Request) (rest : Mailbox) : LiveDocument :=
  { live.apply request with mail := rest, phase := .choosing }

def conclude (live : LiveDocument) : LiveDocument :=
  match LineRange.merge? live.changed with
  | none => { live with lost := true }
  | some [] => live.report .done
  | some ranges => ({ live with changed := [] }.tell (.changed ranges)).report .done

-- There is nothing to tell while there are requests.
def finish (live : LiveDocument) : LiveDocument :=
  let waiting := { live with phase := .waiting }
  if live.mail.isSettled then
    { waiting with
      slots := { live.slots with firstPending := live.slots.length }
      activity := .done }.conclude
  else waiting

def choose (live : LiveDocument) : LiveDocument :=
  match live.slots.firstStale? 0, live.mail.take? with
  | none, _ => live.finish
  | some _, some (request, rest) => live.take request rest
  | some start, none => { live.report .working with phase := .checking start start }

def leave (live : LiveDocument) (start line : Nat) : LiveDocument :=
  { live with changed := live.changed ++ LineRange.between start line, phase := .choosing }

def check (live : LiveDocument) (start line : Nat) : LiveDocument :=
  if live.mail.messages.isEmpty then
    { live with phase := .asking start line (live.slots.prior? line) }
  else live.leave start line

structure Limits where
  longestLine : Nat
  depth : Nat
  checks : Option Nat

def limits (live : LiveDocument) : Limits :=
  ⟨live.longestLine, live.machine.depth, live.machine.clock live.readings⟩

-- The tokens and the stack at the end, and whether something was nested too deep.
def readLine (reader : LineReader) (limits : Limits) (text : String) (prior : Option Stack) :
    List Token × Stack × LineReader × Bool :=
  if limits.longestLine < Text.byteLength text.toList then
    let (tokens, stack, reader) := reader.skip text prior
    (tokens, stack, reader, false)
  else
    let (result, reader) := reader.read limits.depth text prior limits.checks
    (result.emitted.tokens, result.stack, reader, result.tooDeep)

-- A document may have fewer lines than it was told to have; then so have the slots.
def ask (live : LiveDocument) (start line : Nat) (prior : Option Stack) : LiveDocument :=
  match live.document.line? line with
  | none =>
    if live.mail.isSettled then
      { live with slots := live.slots.truncate line }.leave start line
    else live.leave start line
  | some text =>
    let (tokens, stack, reader, tooDeep) := readLine live.reader live.limits text prior
    { live with
      reader
      readings := live.readings + 1
      phase := .storing start line tokens stack
      lost := live.lost || tooDeep }

-- A pass ends when its line ended as it did before and the next line is up to date.
def store (live : LiveDocument) (start line : Nat) (tokens : List Token) (stack : Stack) :
    LiveDocument :=
  if !live.mail.isSettled || live.slots.length ≤ line then live.leave start line
  else
    let isSame := (live.slots.lastStack? line).any (·.same stack)
    let slots := live.slots.store line tokens stack
    let next := line + 1
    let isReady := slots.entries[next]?.all (!·.isStale)
    if (isSame && isReady) || slots.length ≤ next then
      let firstPending := (slots.firstStale? next).getD slots.length
      { live with slots := { slots with firstPending } }.leave start next
    else
      { live with
        slots := { slots with firstPending := next }
        phase := .checking start next }

def step? (live : LiveDocument) : Option LiveDocument :=
  match live.phase with
  | .waiting =>
    live.mail.take?.map fun (request, rest) => live.take request rest
  | .choosing => some live.choose
  | .checking start line => some (live.check start line)
  | .asking start line prior => some (live.ask start line prior)
  | .storing start line tokens stack => some (live.store start line tokens stack)

-- At most so many steps, and none from where `stop` holds.
def runUntil (stop : LiveDocument → Bool) : Nat → LiveDocument → LiveDocument
  | 0, live => live
  | fuel + 1, live =>
    if stop live then live
    else
      match live.step? with
      | none => live
      | some live => runUntil stop fuel live

def addedLines : Request → Nat
  | .edited edit => edit.added
  | _ => 0

-- Every pass makes a stale line current, and each of its lines takes three steps.
def rounds (live : LiveDocument) : Nat :=
  let lines := live.mail.requests.foldl (fun count request => count + addedLines request)
    live.slots.length
  2 * live.mail.requests.length + (lines + 2) * (3 * lines + 6)

def settleUntil (stop : LiveDocument → Bool) (live : LiveDocument) : LiveDocument :=
  runUntil stop live.rounds live

def settle (live : LiveDocument) : LiveDocument := live.settleUntil fun _ => false

def isAsking (line : Nat) (live : LiveDocument) : Bool :=
  match live.phase with
  | .asking _ asked _ => asked == line
  | _ => false

end Highlighter.LiveDocument
