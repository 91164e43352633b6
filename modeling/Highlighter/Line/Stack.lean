import Highlighter.Grammar.Rule
import Highlighter.ScopePath
import Highlighter.Text.Quoted

set_option autoImplicit false

namespace Highlighter

open Regex (Region)

/-- An open rule. `depth` counts the frames from the outermost one, `entered` is where its opening
match started, `anchor` the search anchor to go back to when the rule closes, these two on the line
that it was opened on; `resolved` is its closing or continuing pattern with the captures of the
opening match written out. -/
structure Frame where
  depth : Nat
  rule : RuleId
  entered : Option Nat
  anchor : Option Nat
  tookLineEnd : Bool
  resolved : Option Pattern
  nameScopes : ScopePath
  contentScopes : ScopePath

namespace Frame

def sameEnd (a b : Option Pattern) : Bool := a.map (·.source) == b.map (·.source)

-- Places on the line and metadata do not count.
def same (a b : Frame) : Bool :=
  a.depth == b.depth && a.rule == b.rule && sameEnd a.resolved b.resolved &&
    a.nameScopes.sameNames b.nameScopes && a.contentScopes.sameNames b.contentScopes

end Frame

structure Stack where
  top : Frame
  below : List Frame

namespace Stack

def root (rule : RuleId) (scopes : ScopePath) : Stack :=
  ⟨⟨1, rule, none, none, false, none, scopes, scopes⟩, []⟩

def frames (stack : Stack) : List Frame := stack.top :: stack.below

def depth (stack : Stack) : Nat := stack.top.depth

def push (stack : Stack) (frame : Frame) : Stack := ⟨frame, stack.frames⟩

def pop? (stack : Stack) : Option Stack :=
  match stack.below with
  | [] => none
  | frame :: rest => some ⟨frame, rest⟩

def pop (stack : Stack) : Stack := stack.pop?.getD stack

def contentScopes (stack : Stack) : ScopePath := stack.top.contentScopes

def withContent (stack : Stack) (scopes : ScopePath) : Stack :=
  { stack with top := { stack.top with contentScopes := scopes } }

def sameFrames : List Frame → List Frame → Bool
  | [], [] => true
  | a :: as, b :: bs => a.same b && sameFrames as bs
  | _, _ => false

def same (a b : Stack) : Bool := sameFrames a.frames b.frames

def stacksFrom (top : Frame) : List Frame → List Stack
  | [] => [⟨top, []⟩]
  | frame :: rest => ⟨top, frame :: rest⟩ :: stacksFrom frame rest

def enclosing (stack : Stack) : List Stack := stacksFrom stack.top stack.below

-- Whether one of the `fresh` topmost frames, all entered at `place`, is for the rule.
def hasOpened (stack : Stack) (rule : RuleId) (place : Option Nat) (fresh : Nat) : Bool :=
  ((stack.frames.take fresh).takeWhile fun frame => frame.entered == place).any fun frame =>
    frame.rule == rule

def frameSummary (frame : Frame) : String :=
  let scope := match frame.contentScopes.innermost? with
    | some name => "Some(" ++ Text.quoted name ++ ")"
    | none => "None"
  toString frame.rule ++ scope

def summary (stack : Stack) : String :=
  "[" ++ ", ".intercalate (stack.frames.reverse.map frameSummary) ++ "]"

end Stack

end Highlighter
