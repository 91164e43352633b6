import Highlighter.Text.Quoted

set_option autoImplicit false

namespace Highlighter

structure Color where
  red : UInt8
  green : UInt8
  blue : UInt8
  deriving DecidableEq, Repr

namespace Color

def channelText (channel : UInt8) : String :=
  let digits := Text.hex channel.toNat
  String.ofList (if digits.length == 1 then '0' :: digits else digits)

def text (color : Color) : String :=
  "#" ++ channelText color.red ++ channelText color.green ++ channelText color.blue

end Color

end Highlighter
