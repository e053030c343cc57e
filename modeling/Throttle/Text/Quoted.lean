import Throttle.Text.Unprintable

/-!
# Text in quotes

A text as it is shown inside a message: in double quotes, with a backslash before what would end or
disturb it.
-/

set_option autoImplicit false

namespace Throttle.Text

def codePoint (c : Char) : String :=
  "\\u" ++ String.ofList ('\x7b' :: Nat.toDigits 16 c.toNat ++ ['\x7d'])

def escaped (c : Char) : String :=
  match c with
  | '\x00' => "\\0"
  | '\t' => "\\t"
  | '\r' => "\\r"
  | '\n' => "\\n"
  | '\\' => "\\\\"
  | '"' => "\\\""
  | _ =>
    if isUnprintable c then codePoint c else String.singleton c

def quoted (text : String) : String :=
  "\"" ++ String.join (text.toList.map escaped) ++ "\""

end Throttle.Text
