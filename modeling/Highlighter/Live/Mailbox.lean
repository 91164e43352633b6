import Highlighter.Grammar.Compiled
import Highlighter.Document

set_option autoImplicit false

namespace Highlighter.Live

inductive Request where
  | edited (edit : Edit)
  | line (line : Nat)
  | theme (theme : Option Theme)
  | grammar (grammar : Grammar)

structure Message where
  seq : Nat
  request : Request

-- `counted` says that the messages have the numbers from `appliedSeq` up to `seq`.
structure Mailbox where
  messages : List Message
  seq : Nat
  appliedSeq : Nat
  counted : messages.map (·.seq) = List.range' (appliedSeq + 1) messages.length
  last : seq = appliedSeq + messages.length

namespace Mailbox

def empty : Mailbox where
  messages := []
  seq := 0
  appliedSeq := 0
  counted := by rw [List.map_nil, List.length_nil, List.range'_zero]
  last := by rw [List.length_nil]

def requests (mail : Mailbox) : List Request := mail.messages.map (·.request)

def send (mail : Mailbox) (request : Request) : Mailbox where
  messages := mail.messages ++ [⟨mail.seq + 1, request⟩]
  seq := mail.seq + 1
  appliedSeq := mail.appliedSeq
  counted := by
    rw [List.map_append, mail.counted, List.length_append, List.length_singleton, mail.last,
      List.range'_1_concat, Nat.add_right_comm mail.appliedSeq]
    rfl
  last := by
    rw [mail.last, List.length_append, List.length_singleton, Nat.add_assoc]

def take? (mail : Mailbox) : Option (Request × Mailbox) :=
  match kept : mail.messages with
  | [] => none
  | message :: rest =>
    have numbers : message.seq :: rest.map (·.seq) =
        (mail.appliedSeq + 1) :: List.range' (mail.appliedSeq + 1 + 1) rest.length := by
      have counted := mail.counted
      rwa [kept, List.map_cons, List.length_cons, List.range'_succ] at counted
    have first : message.seq = mail.appliedSeq + 1 := (List.cons.inj numbers).1
    some (message.request,
      { messages := rest
        seq := mail.seq
        appliedSeq := message.seq
        counted := first ▸ (List.cons.inj numbers).2
        last := by rw [mail.last, kept, List.length_cons, first]; omega })

def isSettled (mail : Mailbox) : Bool := mail.seq == mail.appliedSeq

end Mailbox

end Highlighter.Live
