import Switchboard.Bytes
import Switchboard.Json
import Switchboard.Shortest

/-!
# Json/Printer — the compact text of a JSON value

A value is written without any blank, fields in the order they are listed.  Strings are written in
UTF-8 with escapes only where JSON requires one.  A double is written with the fewest digits that
name it, positionally for exponents from `-5` to `15` and always with a point there, otherwise in
scientific form.
-/

namespace Switchboard

namespace Number

/-! ## Numbers -/

/-- The digits of a natural number. -/
def decimal (n : Nat) : List Char := Nat.toDigits 10 n

/-- The smallest exponent that is written positionally. -/
def leastPositional : Int := -5

/-- The largest exponent that is written positionally. -/
def greatestPositional : Int := 15

/-- A shortest decimal, positionally if its exponent is in range and in scientific form if not. -/
def layout (s : Shortest) : List Char :=
  if s.exponent < leastPositional ∨ greatestPositional < s.exponent then
    let mantissa := match s.digits with
      | d :: e :: rest => d :: '.' :: e :: rest
      | short => short
    let sign := if s.exponent < 0 then '-' else '+'
    mantissa ++ 'e' :: sign :: decimal s.exponent.natAbs
  else if s.exponent < 0 then
    '0' :: '.' :: (List.replicate (s.exponent.natAbs - 1) '0' ++ s.digits)
  else
    let whole := s.exponent.toNat + 1
    if s.digits.length ≤ whole then
      s.digits ++ List.replicate (whole - s.digits.length) '0' ++ ['.', '0']
    else s.digits.take whole ++ '.' :: s.digits.drop whole

/-- The text of a double given by its bits. -/
def realText (bits : UInt64) : List Char :=
  let magnitude := bits.toNat % 0x8000_0000_0000_0000
  let digits := if magnitude = 0 then ['0', '.', '0'] else layout (Shortest.ofBits bits)
  if bits.toNat / 0x8000_0000_0000_0000 = 1 then '-' :: digits else digits

/-- The text of a number. -/
def chars : Number → List Char
  | natural n => decimal n.toNat
  | negative n => '-' :: decimal (n.val + 1)
  | real bits => realText bits

/-- The text of a number, as octets. -/
def bytes (n : Number) : Bytes := n.chars.map fun c => UInt8.ofNat c.toNat

end Number

namespace Json

/-! ## Strings -/

/-- The octet of an ASCII character. -/
def ascii (c : Char) : UInt8 := UInt8.ofNat c.toNat

/-- The octet of a hexadecimal digit. -/
def hexOctet (n : Nat) : UInt8 := ascii (Bytes.hexDigit n)

/-- One octet of a string: a quotation mark, a backslash and the control octets are escaped. -/
def escaped (b : UInt8) : Bytes :=
  if b = 0x22 then [0x5c, 0x22]
  else if b = 0x5c then [0x5c, 0x5c]
  else if 0x20 ≤ b then [b]
  else if b = 0x08 then [0x5c, ascii 'b']
  else if b = 0x0c then [0x5c, ascii 'f']
  else if b = 0x0a then [0x5c, ascii 'n']
  else if b = 0x0d then [0x5c, ascii 'r']
  else if b = 0x09 then [0x5c, ascii 't']
  else [0x5c, ascii 'u', 0x30, 0x30, hexOctet (b.toNat / 16), hexOctet (b.toNat % 16)]

/-- A text between quotation marks. -/
def stringBytes (s : String) : Bytes :=
  0x22 :: ((Bytes.ofText s).flatMap escaped ++ [0x22])

/-! ## Values -/

mutual

/-- **The compact text of a value.** -/
def bytes : Json → Bytes
  | null => "null".toList.map ascii
  | bool true => "true".toList.map ascii
  | bool false => "false".toList.map ascii
  | number n => n.bytes
  | string s => stringBytes s
  | array items => 0x5b :: (itemsBytes items ++ [0x5d])
  | object fields => 0x7b :: (fieldsBytes fields ++ [0x7d])

/-- The items with commas between them. -/
def itemsBytes : List Json → Bytes
  | [] => []
  | [v] => v.bytes
  | v :: w :: rest => v.bytes ++ 0x2c :: itemsBytes (w :: rest)

/-- The fields with commas between them. -/
def fieldsBytes : List (String × Json) → Bytes
  | [] => []
  | [(k, v)] => stringBytes k ++ 0x3a :: v.bytes
  | (k, v) :: f :: rest => stringBytes k ++ 0x3a :: (v.bytes ++ 0x2c :: fieldsBytes (f :: rest))

end

/-- The compact text of a value, as a text. -/
def compact (v : Json) : String := (Bytes.text? v.bytes).getD ""

end Json

end Switchboard
