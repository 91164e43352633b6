import Highlighter.Text.Split

set_option autoImplicit false

namespace Highlighter.Selector

inductive Token where
  | identifier (name : String)
  | left
  | right
  | comma
  | bar
  | minus
  | bang
  | opening
  | closing
  deriving DecidableEq, Repr

namespace Token

def text : Token → String
  | .identifier name => name
  | .left => "L:"
  | .right => "R:"
  | .comma => ","
  | .bar => "|"
  | .minus => "-"
  | .bang => "!"
  | .opening => "("
  | .closing => ")"

def isSeparator : Token → Bool
  | .comma | .bar => true
  | _ => false

end Token

def startsIdentifier (c : Char) : Bool := Text.isIdentifier c || c == '.' || c == ':'

def continuesIdentifier (c : Char) : Bool := startsIdentifier c || c == '+' || c == '-'

def punctuation? : Char → Option Token
  | ',' => some .comma
  | '|' => some .bar
  | '-' => some .minus
  | '!' => some .bang
  | '(' => some .opening
  | ')' => some .closing
  | _ => none

def token? : List Char → Option (Token × List Char)
  | [] => none
  | 'L' :: ':' :: rest => some (.left, rest)
  | 'R' :: ':' :: rest => some (.right, rest)
  | c :: rest =>
    if startsIdentifier c then
      some (.identifier (String.ofList (c :: rest.takeWhile continuesIdentifier)),
        rest.dropWhile continuesIdentifier)
    else (punctuation? c).map fun token => (token, rest)

theorem token?_shorter {cs rest : List Char} {token : Token} (found : token? cs = some (token, rest)) :
    rest.length < cs.length := by
  unfold token? at found
  split at found
  · simp at found
  · simp only [Option.some.injEq, Prod.mk.injEq] at found
    rw [← found.2]
    simp only [List.length_cons]
    omega
  · simp only [Option.some.injEq, Prod.mk.injEq] at found
    rw [← found.2]
    simp only [List.length_cons]
    omega
  · next c tail _ _ =>
    split at found
    · simp only [Option.some.injEq, Prod.mk.injEq] at found
      have := List.Sublist.length_le (List.dropWhile_sublist continuesIdentifier (l := tail))
      rw [← found.2]
      simp only [List.length_cons]
      omega
    · obtain ⟨_, _, same⟩ := Option.map_eq_some_iff.mp found
      simp only [Prod.mk.injEq] at same
      simp [← same.2]

-- The tokens of a text, or the first stray piece of it. `gap` holds, last first, the characters
-- since the last token.
def tokensFrom (gap : List Char) (cs : List Char) : Except String (List Token) :=
  let stray? := (Text.words Text.isSpace gap.reverse).head?.map String.ofList
  match _known : token? cs with
  | some (token, rest) =>
    match stray? with
    | some stray => .error stray
    | none => (tokensFrom [] rest).map (token :: ·)
  | none =>
    match cs with
    | [] =>
      match stray? with
      | some stray => .error stray
      | none => .ok []
    | c :: rest => tokensFrom (c :: gap) rest
  termination_by cs.length
  decreasing_by
    · exact token?_shorter ‹_›
    · simp

def tokens (source : String) : Except String (List Token) := tokensFrom [] source.toList

end Highlighter.Selector
