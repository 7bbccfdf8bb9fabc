import Switchboard.Text.Shown

/-!
# Text/Quoted — a text between quotation marks, for people

The quoted form shows every character as it is, except a quotation mark, a backslash, and the
characters that could not be seen: these are written as an escape, `\n` and its like where there is
a short one and `\u` with the code point in braces otherwise.
-/

namespace Switchboard.Text

/-- The lowercase hexadecimal digits of a number, without leading zeros. -/
def hexNumeral (n : Nat) : List Char := Nat.toDigits 16 n

/-- One character of a quoted text. -/
def quotedChar (c : Char) : List Char :=
  match c with
  | '\x00' => ['\\', '0']
  | '\t' => ['\\', 't']
  | '\r' => ['\\', 'r']
  | '\n' => ['\\', 'n']
  | '"' => ['\\', '"']
  | '\\' => ['\\', '\\']
  | _ => if isShown c then [c] else ['\\', 'u', '\x7b'] ++ hexNumeral c.toNat ++ ['\x7d']

/-- The text between quotation marks, escaped where it could not be read otherwise. -/
def quoted (s : String) : String :=
  String.ofList ('"' :: s.toList.flatMap quotedChar ++ ['"'])

end Switchboard.Text
