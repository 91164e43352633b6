import Highlighter.Live.Worker

set_option autoImplicit false

namespace Highlighter

open Live

namespace Live.Mailbox

variable {mail rest : Mailbox} {request : Request}

theorem requests_send (mail : Mailbox) (request : Request) :
    (mail.send request).requests = mail.requests ++ [request] :=
  List.map_append

theorem requests_of_take? (taken : mail.take? = some (request, rest)) :
    mail.requests = request :: rest.requests := by
  unfold take? at taken
  split at taken
  · exact nomatch taken
  · rename_i message others kept
    obtain ⟨rfl, rfl⟩ := Prod.mk.inj (Option.some.inj taken)
    exact congrArg (List.map (·.request)) kept

theorem seq_of_take? (taken : mail.take? = some (request, rest)) : rest.seq = mail.seq := by
  unfold take? at taken
  split at taken
  · exact nomatch taken
  · obtain ⟨rfl, rfl⟩ := Prod.mk.inj (Option.some.inj taken)
    rfl

theorem take?_eq_none_iff : mail.take? = none ↔ mail.requests = [] := by
  unfold take? requests
  split
  · rename_i kept
    simp [kept]
  · rename_i message others kept
    simp [kept]

theorem isEmpty_messages_iff : mail.messages.isEmpty = true ↔ mail.requests = [] := by
  rw [List.isEmpty_iff, requests, List.map_eq_nil_iff]

theorem seq_eq (mail : Mailbox) : mail.seq = mail.appliedSeq + mail.requests.length := by
  rw [mail.last, requests, List.length_map]

theorem isSettled_iff : mail.isSettled = true ↔ mail.requests = [] := by
  rw [isSettled, beq_iff_eq, mail.seq_eq, ← List.length_eq_zero_iff]
  omega

end Live.Mailbox

namespace LiveDocument

def queue (live : LiveDocument) : List Request := live.mail.requests

variable {live : LiveDocument}

theorem settled_iff : live.mail.isSettled = true ↔ live.queue = [] := Mailbox.isSettled_iff

theorem settled_of_empty (empty : live.queue = []) : live.mail.isSettled = true :=
  settled_iff.mpr empty

theorem unsettled_of_busy (busy : live.queue ≠ []) : live.mail.isSettled = false :=
  Bool.eq_false_iff.mpr (mt settled_iff.mp busy)

theorem take?_of_empty (empty : live.queue = []) : live.mail.take? = none :=
  Mailbox.take?_eq_none_iff.mpr empty

theorem exists_take? {request : Request} {others : List Request}
    (queued : live.queue = request :: others) :
    ∃ rest, live.mail.take? = some (request, rest) ∧ rest.requests = others := by
  cases taken : live.mail.take? with
  | none => exact nomatch queued.symm.trans (Mailbox.take?_eq_none_iff.mp taken)
  | some first =>
    obtain ⟨rfl, rfl⟩ := List.cons.inj ((Mailbox.requests_of_take? taken).symm.trans queued)
    exact ⟨first.2, rfl, rfl⟩

end LiveDocument

end Highlighter
