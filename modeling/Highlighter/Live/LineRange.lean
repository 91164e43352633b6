import Highlighter.Document
import Highlighter.Text.Number

set_option autoImplicit false

namespace Highlighter.Live

structure LineRange where
  first : Nat
  last : Nat
  deriving DecidableEq, Repr

namespace LineRange

def between (start stop : Nat) : List LineRange :=
  if start < stop then [⟨start, stop - 1⟩] else []

def before (edit : Edit) (range : LineRange) : List LineRange :=
  if range.first < edit.start then [⟨range.first, min range.last (edit.start - 1)⟩] else []

def behind (edit : Edit) (range : LineRange) : List LineRange :=
  if edit.oldStop ≤ range.last then
    [⟨max range.first edit.oldStop - edit.removed + edit.added,
      range.last - edit.removed + edit.added⟩]
  else []

def shift (edit : Edit) (ranges : List LineRange) : List LineRange :=
  ranges.flatMap fun range => before edit range ++ behind edit range

-- Takes one more range into a list, of which none starts later. No number comes after the largest
-- one of 64 bits.
def join? (range : LineRange) : List LineRange → Option (List LineRange)
  | [] => some [range]
  | last :: rest =>
    (Text.nextIndex? last.last).map fun next =>
      if range.first ≤ next then ⟨last.first, max last.last range.last⟩ :: rest
      else range :: last :: rest

def joinAll? (merged : List LineRange) : List LineRange → Option (List LineRange)
  | [] => some merged
  | range :: rest =>
    match join? range merged with
    | none => none
    | some merged => joinAll? merged rest

def merge? (ranges : List LineRange) : Option (List LineRange) :=
  (joinAll? [] (ranges.mergeSort fun a b => a.first ≤ b.first)).map (·.reverse)

end LineRange

end Highlighter.Live
