import Highlighter.Selector.Basic
import Highlighter.Selector.Token
import Highlighter.Text.Quoted

set_option autoImplicit false

namespace Highlighter

inductive SelectorError where
  | empty
  | unexpected (token selector : String)
  | unbalanced (selector : String)
  deriving DecidableEq, Repr

def SelectorError.message : SelectorError → String
  | .empty => "empty selector"
  | .unexpected token selector =>
    "unexpected " ++ Text.quoted token ++ " in selector " ++ Text.quoted selector
  | .unbalanced selector => "unbalanced parenthesis in selector " ++ Text.quoted selector

namespace Selector

/-- What a reader found at the start of `tokens`, and the tokens it left. -/
structure Taken (tokens : List Token) (α : Type) where
  value : α
  rest : List Token
  shorter : rest.length < tokens.length

structure Left (tokens : List Token) (α : Type) where
  value : α
  rest : List Token
  within : rest.length ≤ tokens.length

def chain : List Token → List String × List Token
  | .identifier name :: rest => (name :: (chain rest).1, (chain rest).2)
  | tokens => ([], tokens)

theorem chain_length (tokens : List Token) : (chain tokens).2.length ≤ tokens.length := by
  induction tokens with
  | nil => simp [chain]
  | cons token rest ih => cases token <;> simp only [chain, List.length_cons] <;> omega

def afterSeparators : List Token → List Token
  | [] => []
  | token :: rest => if token.isSeparator then afterSeparators rest else token :: rest

theorem afterSeparators_length (tokens : List Token) :
    (afterSeparators tokens).length ≤ tokens.length := by
  induction tokens with
  | nil => simp [afterSeparators]
  | cons token rest ih =>
    simp only [afterSeparators]
    split <;> simp only [List.length_cons] <;> omega

def missingOperand (source : String) : List Token → SelectorError
  | token :: _ => .unexpected token.text source
  | [] => .empty

def joined : List Matcher → Matcher
  | [matcher] => matcher
  | all => .and all

mutual

def operand (source : String) (tokens : List Token) :
    Except SelectorError (Option (Taken tokens Matcher)) :=
  match tokens with
  | .minus :: rest | .bang :: rest =>
    match operand source rest with
    | .error error => .error error
    | .ok none => .error (missingOperand source rest)
    | .ok (some inner) =>
      .ok (some ⟨.not inner.value, inner.rest, by have := inner.shorter; simp; omega⟩)
  | .opening :: rest =>
    match group source rest with
    | .error error => .error error
    | .ok ⟨[], _, _⟩ => .error .empty
    | .ok ⟨first :: others, .closing :: after, within⟩ =>
      .ok (some ⟨if others.isEmpty then first else .or (first :: others), after, by
        simp at within ⊢; omega⟩)
    | .ok _ => .error (.unbalanced source)
  | .identifier name :: rest =>
    .ok (some ⟨.path (name :: (chain rest).1), (chain rest).2, by
      have := chain_length rest; simp; omega⟩)
  | _ => .ok none
  termination_by (tokens.length, 0)

def conjunction (source : String) (tokens : List Token) :
    Except SelectorError (Left tokens (List Matcher)) :=
  match operand source tokens with
  | .error error => .error error
  | .ok none => .ok ⟨[], tokens, by simp⟩
  | .ok (some first) =>
    have := first.shorter
    match conjunction source first.rest with
    | .error error => .error error
    | .ok others => .ok ⟨first.value :: others.value, others.rest, by have := others.within; omega⟩
  termination_by (tokens.length, 1)

def group (source : String) (tokens : List Token) :
    Except SelectorError (Left tokens (List Matcher)) :=
  match conjunction source tokens with
  | .error error => .error error
  | .ok ⟨[], rest, within⟩ => .ok ⟨[], rest, within⟩
  | .ok ⟨first :: others, [], within⟩ => .ok ⟨[joined (first :: others)], [], within⟩
  | .ok ⟨first :: others, token :: rest, within⟩ =>
    if token.isSeparator then
      have := afterSeparators_length rest
      have : (afterSeparators rest).length < tokens.length := by simp at within; omega
      match group source (afterSeparators rest) with
      | .error error => .error error
      | .ok more => .ok ⟨joined (first :: others) :: more.value, more.rest, by
          have := more.within; omega⟩
    else .ok ⟨[joined (first :: others)], token :: rest, within⟩
  termination_by (tokens.length, 2)

end

def side : List Token → Priority × List Token
  | .left :: rest => (.low, rest)
  | .right :: rest => (.high, rest)
  | tokens => (.normal, tokens)

theorem side_length (tokens : List Token) : (side tokens).2.length ≤ tokens.length := by
  unfold side
  split <;> simp

def alternative (priority : Priority) (matcher : Matcher) : Alternative :=
  ⟨matcher, if priority == .normal && matcher.leadsWithNegation then .low else priority⟩

def readAlternatives (source : String) (tokens : List Token) :
    Except SelectorError (List Alternative) :=
  have := side_length tokens
  match conjunction source (side tokens).2 with
  | .error error => .error error
  | .ok ⟨[], _, _⟩ => .error (missingOperand source (side tokens).2)
  | .ok ⟨first :: others, [], _⟩ => .ok [alternative (side tokens).1 (joined (first :: others))]
  | .ok ⟨first :: others, token :: rest, within⟩ =>
    if token.isSeparator then
      have : rest.length < tokens.length := by simp at within; omega
      (readAlternatives source rest).map (alternative (side tokens).1 (joined (first :: others)) :: ·)
    else if token = .closing then .error (.unbalanced source)
    else .error (.unexpected token.text source)
  termination_by tokens.length

def parse (source : String) : Except SelectorError Selector :=
  match tokens source with
  | .error stray => .error (.unexpected stray source)
  | .ok found => (readAlternatives source found).map fun all => ⟨source, all⟩

end Selector

end Highlighter
