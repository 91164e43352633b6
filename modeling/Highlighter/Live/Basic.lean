import Highlighter.Config
import Highlighter.Line.Reader
import Highlighter.Live.LineRange
import Highlighter.Live.Mailbox
import Highlighter.Live.Slots

set_option autoImplicit false

namespace Highlighter

namespace Live

inductive Activity where
  | working
  | done
  deriving DecidableEq, Repr

def Activity.name : Activity → String
  | .working => "InProgress"
  | .done => "Completed"

inductive Event where
  | turned (activity : Activity)
  -- The lines whose tokens were replaced.
  | changed (ranges : List LineRange)
  deriving DecidableEq, Repr

/-- What the worker does next. A pass reads from `start` on and has come to `line`. Callers may do
something before each of these, also between asking for a line's text and storing its tokens. -/
inductive Phase where
  | waiting
  | choosing
  | checking (start line : Nat)
  | asking (start line : Nat) (prior : Option Stack)
  | storing (start line : Nat) (tokens : List Token) (stack : Stack)

end Live

open Live

/-- What the program runs on. The time for the `n`th reading of a line runs out after `clock n`
rounds, if it does, where it is limited; `depth` is how deep groups may stand in groups. -/
structure Machine where
  depth : Nat
  clock : Nat → Option Nat

-- `mail` holds what the worker has not been told of yet, `changed` the lines that it has read
-- since it last told of them, and `events` all that it has told so far. Once the program has come
-- to its end `lost` holds, whatever else stands here.
structure LiveDocument where
  document : Document
  grammar : Grammar
  slots : Slots
  activity : Activity
  mail : Mailbox
  reader : LineReader
  longestLine : Nat
  machine : Machine
  readings : Nat
  phase : Phase
  changed : List LineRange
  reported : Activity
  events : List Event
  lost : Bool

namespace LiveDocument

def ofDocument (machine : Machine) (document : Document) (grammar : Grammar) (config : Config) :
    LiveDocument :=
  { document
    grammar
    slots := Slots.unread document.length
    activity := .working
    mail := Mailbox.empty
    reader := LineReader.ofGrammar grammar
    longestLine := config.longestLine
    machine :=
      { machine with clock := fun reading => config.lineLimit.bind fun _ => machine.clock reading }
    readings := 0
    phase := .choosing
    changed := []
    reported := .done
    events := []
    lost := false }

def notify (live : LiveDocument) (line : Nat) (request : Request) : LiveDocument :=
  { live with
    slots := live.slots.pendFrom line
    activity := .working
    mail := live.mail.send request }

def tellEdit (live : LiveDocument) (edit : Edit) : LiveDocument :=
  live.notify edit.start (.edited edit)

def replaceSilently (live : LiveDocument) (start count : Nat) (lines : List String) :
    LiveDocument × Edit :=
  let (document, edit) := live.document.replace start count lines
  ({ live with document }, edit)

def replace (live : LiveDocument) (start count : Nat) (lines : List String) : LiveDocument × Edit :=
  let (live, edit) := live.replaceSilently start count lines
  (live.tellEdit edit, edit)

def invalidate (live : LiveDocument) (line : Nat) : LiveDocument := live.notify line (.line line)

def withGrammar (live : LiveDocument) (grammar : Grammar) : LiveDocument :=
  { live with grammar }.notify 0 (.grammar grammar)

-- All lines are read again, since the stacks hold the colors of the theme before. What the worker
-- reads with the new theme before it has taken the request is thrown away.
def withTheme (live : LiveDocument) (theme : Option Theme) : LiveDocument :=
  { live with grammar := live.grammar.withTheme theme }.notify 0 (.theme theme)

def tokens? (live : LiveDocument) (line : Nat) : Option (List Token) := live.slots.tokens? line

def stack? (live : LiveDocument) (line : Nat) : Option Stack := live.slots.stack? line

def isPending (live : LiveDocument) (line : Nat) : Bool := (live.tokens? line).isNone

def summary (live : LiveDocument) : String :=
  "TokenizationModel \x7b grammar: " ++ Text.quoted live.grammar.scopeName ++ ", background: " ++
    live.activity.name ++ ", .. \x7d"

end LiveDocument

end Highlighter
