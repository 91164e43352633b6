import Highlighter.ScopePath
import Highlighter.Theme.Basic

set_option autoImplicit false

namespace Highlighter

structure Token where
  start : Nat
  stop : Nat
  scopes : List String
  metadata : Metadata
  deriving DecidableEq, Repr

namespace Token

def length (token : Token) : Nat := token.stop - token.start

def isEmpty (token : Token) : Bool := token.start == token.stop

def innermost? (token : Token) : Option String := token.scopes.getLast?

def clip (limit : Nat) (token : Token) : Token := { token with stop := min token.stop limit }

end Token

structure PackedToken where
  start : UInt32
  metadata : Metadata
  deriving DecidableEq, Repr

/-- What has been found on a line so far, the last token first. -/
inductive Emitted where
  | plain (tokens : List Token)
  | packed (tokens : List PackedToken)

namespace Emitted

def none (isPacked : Bool) : Emitted := if isPacked then .packed [] else .plain []

-- A packed token goes on where its neighbour has the same metadata.
def add (emitted : Emitted) (start stop : Nat) (scopes : ScopePath) (metadata : Metadata) :
    Emitted :=
  match emitted with
  | .plain tokens => .plain (⟨start, stop, scopes.names, metadata⟩ :: tokens)
  | .packed [] => .packed [⟨UInt32.ofNat start, metadata⟩]
  | .packed (last :: rest) =>
    if last.metadata = metadata then .packed (last :: rest)
    else .packed (⟨UInt32.ofNat start, metadata⟩ :: last :: rest)

-- Drops the token of the line feed at `size`, gives an empty line a token, and ends all tokens
-- with the line. Tokens are then in order.
def finish (emitted : Emitted) (size : Nat) (scopes : ScopePath) (metadata : Metadata) : Emitted :=
  match emitted with
  | .plain tokens =>
    let kept := match tokens with
      | last :: rest => if last.start = size then rest else last :: rest
      | [] => []
    let filled := if kept.isEmpty then [⟨0, size + 1, scopes.names, metadata⟩] else kept
    .plain (filled.reverse.map (Token.clip size))
  | .packed tokens =>
    let kept := match tokens with
      | last :: rest => if last.start.toNat = size then rest else last :: rest
      | [] => []
    let filled := if kept.isEmpty then [⟨0, metadata⟩] else kept
    .packed filled.reverse

def tokens : Emitted → List Token
  | .plain tokens => tokens
  | .packed _ => []

def packedTokens : Emitted → List PackedToken
  | .plain _ => []
  | .packed tokens => tokens

end Emitted

namespace Theme

structure StyledSpan where
  span : Span
  style : Style

def spans (theme : Theme) (tokens : List Token) : List StyledSpan :=
  tokens.map fun token => ⟨⟨token.start, token.stop⟩, theme.styleAt token.scopes⟩

end Theme

end Highlighter
