import Highlighter.Document
import Highlighter.Line.Token
import Highlighter.Line.Stack

set_option autoImplicit false

namespace Highlighter.Live

/-- A stale slot keeps the stack at the end of its line, which tells whether reading the line again
changes anything for the lines after it. -/
structure Slot where
  stack : Option Stack
  tokens : Option (List Token)
  isStale : Bool

def Slot.unread (stack : Option Stack) : Slot := ⟨stack, none, true⟩

/-- Lines from `firstPending` on may be out of date, whatever their slots say. -/
structure Slots where
  entries : List Slot
  firstPending : Nat

namespace Slots

def unread (count : Nat) : Slots := ⟨List.replicate count (Slot.unread none), 0⟩

def length (slots : Slots) : Nat := slots.entries.length

def current? (slots : Slots) (line : Nat) : Option Slot :=
  if line < slots.firstPending then slots.entries[line]?.filter (!·.isStale) else none

def tokens? (slots : Slots) (line : Nat) : Option (List Token) :=
  (slots.current? line).bind (·.tokens)

def stack? (slots : Slots) (line : Nat) : Option Stack := (slots.current? line).bind (·.stack)

-- The stack at the end of a line, also of one that is out of date.
def lastStack? (slots : Slots) (line : Nat) : Option Stack :=
  slots.entries[line]?.bind (·.stack)

def prior? (slots : Slots) : Nat → Option Stack
  | 0 => none
  | line + 1 => slots.lastStack? line

def pendFrom (slots : Slots) (line : Nat) : Slots :=
  { slots with firstPending := min slots.firstPending line }

-- The stack that the last inserted line is compared with: it was the one before the lines that
-- follow.
def carried? (slots : Slots) (edit : Edit) : Option Stack :=
  let start := min edit.start slots.length
  let stop := min edit.oldStop slots.length
  slots.prior? (if start < stop then stop else start)

def inserted (count : Nat) (carried : Option Stack) : List Slot :=
  match count with
  | 0 => []
  | count + 1 => List.replicate count (Slot.unread none) ++ [Slot.unread carried]

def markStale (slot : Slot) : Slot := { slot with isStale := true }

-- After a removal the next line follows another one than before.
def splice (slots : Slots) (edit : Edit) : Slots :=
  let entries := edit.splice (inserted edit.added (slots.carried? edit)) slots.entries
  ⟨if edit.added = 0 then entries.modify edit.start markStale else entries,
    min slots.firstPending (min edit.start slots.length)⟩

def invalidate (slots : Slots) (line : Nat) : Slots :=
  ⟨slots.entries.modify line markStale, min slots.firstPending line⟩

def invalidateAll (slots : Slots) : Slots := unread slots.length

def firstStale? (slots : Slots) (start : Nat) : Option Nat :=
  ((slots.entries.drop start).findIdx? (·.isStale)).map (· + start)

def store (slots : Slots) (line : Nat) (tokens : List Token) (stack : Stack) : Slots :=
  { slots with entries := slots.entries.set line ⟨some stack, some tokens, false⟩ }

def truncate (slots : Slots) (count : Nat) : Slots :=
  { slots with entries := slots.entries.take count }

end Slots

end Highlighter.Live
