import Highlighter.Regex.Escape

set_option autoImplicit false

namespace Highlighter.Regex.Class

/-- What stands before the next item of a class. A lone character waits, since a hyphen may make it
the start of a range; `named` says that a set of characters came after something else. -/
inductive Pending where
  | start
  | lone (c : Char)
  | named
  | openRange (low : Char)
  | complete

/-- The part of a class since its last intersection sign, and the part before that sign. -/
structure Draft where
  earlier : Option CharSet
  found : CharSet
  pending : Pending

namespace Draft

def fresh : Draft := ⟨none, .empty, .start⟩

def insert (draft : Draft) (set : CharSet) : Draft :=
  match draft.found with
  | .empty => { draft with found := set }
  | found => { draft with found := .union found set }

def settle (draft : Draft) : Draft :=
  match draft.pending with
  | .lone c => draft.insert (.char c)
  | _ => draft

def char? (draft : Draft) (c : Char) : Option Draft :=
  match draft.pending with
  | .openRange low =>
    if low ≤ c then some { draft.insert (.range low c) with pending := .complete } else none
  | _ => some { draft.settle with pending := .lone c }

-- A set of characters, which may not end a range.
def set? (draft : Draft) (set : CharSet) : Option Draft :=
  match draft.pending with
  | .openRange _ => none
  | .start => some (draft.insert set)
  | _ => some { draft.settle.insert set with pending := .named }

def nested (draft : Draft) (set : CharSet) : Draft :=
  { draft.settle.insert set with pending := .complete }

def whole (draft : Draft) : CharSet :=
  match draft.earlier with
  | none => draft.settle.found
  | some earlier => .inter earlier draft.settle.found

def intersect (draft : Draft) : Draft := ⟨some draft.whole, .empty, .start⟩

end Draft

def closesName : List Char → Bool
  | [] => false
  | '\\' :: _ :: rest => closesName rest
  | ':' :: ']' :: _ => true
  | ']' :: _ => false
  | _ :: rest => closesName rest

-- A name between `[:` and `:]`; the inner result is absent when the brackets hold no such name.
def bracket? (cs : List Char) : Option (Option (CharSet × List Char)) :=
  let (negated, cs) := match cs with
    | '^' :: rest => (true, rest)
    | _ => (false, cs)
  let found := Property.bracketNames.findSome? fun (name, property) =>
    (Text.afterLead? name.toList cs).map fun rest => (property, rest)
  match found with
  | some (property, rest) =>
    match rest with
    | ':' :: ']' :: rest =>
      some (some (if negated then .not (.property property) else .property property, rest))
    | _ => none
  | none =>
    match (cs.dropWhile fun c => c != ':' && c != ']') with
    | ':' :: ']' :: _ =>
      if (cs.takeWhile fun c => c != ':' && c != ']').length ≤ 20 then none else some none
    | _ => some none

def hasClosing : List Char → Bool
  | [] => false
  | '\\' :: _ :: rest => hasClosing rest
  | ']' :: _ => true
  | _ :: rest => hasClosing rest

-- Whether a hyphen before `cs` can only stand for itself.
def endsPart : List Char → Bool
  | ']' :: _ => true
  | '&' :: '&' :: _ => true
  | _ => false

mutual

def items? (fuel : Nat) (draft : Draft) (cs : List Char) : Option (CharSet × List Char) :=
  match fuel with
  | 0 => none
  | fuel + 1 =>
    match cs with
    | [] => none
    | ']' :: rest => some (draft.whole, rest)
    | '&' :: '&' :: rest => items? fuel draft.intersect rest
    | '-' :: rest =>
      match draft.pending with
      | .lone c =>
        if endsPart rest then draft.char? '-' >>= fun next => items? fuel next rest
        else items? fuel { draft with pending := .openRange c } rest
      | .named =>
        if endsPart rest then draft.char? '-' >>= fun next => items? fuel next rest else none
      | _ => draft.char? '-' >>= fun next => items? fuel next rest
    | '[' :: ':' :: rest =>
      if closesName rest then
        match bracket? rest with
        | none => none
        | some (some (set, rest)) => draft.set? set >>= fun next => items? fuel next rest
        | some none => draft.char? '[' >>= fun next => items? fuel next (':' :: rest)
      else
        nested? fuel (':' :: rest) >>= fun (set, rest) => items? fuel (draft.nested set) rest
    | '[' :: rest => nested? fuel rest >>= fun (set, rest) => items? fuel (draft.nested set) rest
    | '\\' :: rest =>
      match Escape.set? rest with
      | some none => none
      | some (some (set, rest)) => draft.set? set >>= fun next => items? fuel next rest
      | none => do
        let (letter, rest) ← Escape.letter? rest
        let next ← draft.char? letter.char
        items? fuel next rest
    | c :: rest => draft.char? c >>= fun next => items? fuel next rest

def nested? (fuel : Nat) (cs : List Char) : Option (CharSet × List Char) :=
  match fuel with
  | 0 => none
  | fuel + 1 =>
    let (negated, cs) := match cs with
      | '^' :: rest => (true, rest)
      | _ => (false, cs)
    let found := match cs with
      | ']' :: rest =>
        if hasClosing rest then
          Draft.fresh.char? ']' >>= fun draft => items? fuel draft rest
        else none
      | _ => items? fuel Draft.fresh cs
    found.map fun (set, rest) => (if negated then .not set else set, rest)

end

def read? (cs : List Char) : Option (Bool × CharSet × List Char) :=
  (nested? (2 * cs.length + 2) cs).map fun (set, rest) =>
    match set, cs with
    | .not inner, '^' :: _ => (true, inner, rest)
    | _, _ => (false, set, rest)

end Highlighter.Regex.Class
