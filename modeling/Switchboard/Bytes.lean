/-!
# Bytes — octet sequences, their big-endian words and their text

Everything on the wire is a sequence of octets.  A 32-bit word is written most significant octet
first (`be32`), and `word32` reads such a word back: `word32_be32` for the value and
`length_be32` for the width.  Text is UTF-8 (`Bytes.ofText`, `Bytes.text?`), and an octet sequence
is shown to people as two lowercase hexadecimal digits per octet (`Bytes.hex`, read back by
`Bytes.ofHex?`).
-/

namespace Switchboard

/-- A finite sequence of octets. -/
abbrev Bytes := List UInt8

/-! ## Words -/

/-- The four octets of a word, most significant first; a number above 32 bits keeps its low
word. -/
def be32 (n : Nat) : Bytes :=
  [UInt8.ofNat (n / 16777216), UInt8.ofNat (n / 65536), UInt8.ofNat (n / 256), UInt8.ofNat n]

/-- The word four octets stand for, most significant first. -/
def word32 (a b c d : UInt8) : Nat :=
  ((a.toNat * 256 + b.toNat) * 256 + c.toNat) * 256 + d.toNat

@[simp] theorem length_be32 (n : Nat) : (be32 n).length = 4 := rfl

theorem word32_lt (a b c d : UInt8) : word32 a b c d < 0x1_0000_0000 := by
  have ha := a.toNat_lt
  have hb := b.toNat_lt
  have hc := c.toNat_lt
  have hd := d.toNat_lt
  simp only [word32]
  omega

/-- **A word reads back** as long as it fits 32 bits. -/
theorem word32_be32 {n : Nat} (h : n < 0x1_0000_0000) :
    word32 (UInt8.ofNat (n / 16777216)) (UInt8.ofNat (n / 65536)) (UInt8.ofNat (n / 256))
      (UInt8.ofNat n) = n := by
  simp only [word32, UInt8.toNat_ofNat']
  omega

/-- Four octets are the word they stand for, written out. -/
theorem be32_word32 (a b c d : UInt8) : be32 (word32 a b c d) = [a, b, c, d] := by
  have ha := a.toNat_lt
  have hb := b.toNat_lt
  have hc := c.toNat_lt
  have hd := d.toNat_lt
  simp only [be32, word32, List.cons.injEq, and_true, ← UInt8.toNat_inj, UInt8.toNat_ofNat']
  omega

namespace Bytes

/-! ## Text -/

/-- The UTF-8 octets of a text. -/
def ofText (s : String) : Bytes := s.toUTF8.data.toList

/-- The text whose UTF-8 octets these are, if they are UTF-8. -/
def text? (bs : Bytes) : Option String := String.fromUTF8? ⟨bs.toArray⟩

/-- **A text reads back** from its octets. -/
@[simp] theorem text?_ofText (s : String) : (ofText s).text? = some s := by
  simp only [text?, ofText, String.fromUTF8?, String.toUTF8_eq_toByteArray, dif_pos s.isValidUTF8]
  rfl

/-! ## Hexadecimal display -/

/-- The lowercase digit of a number below sixteen. -/
def hexDigit (n : Nat) : Char :=
  if n < 10 then Char.ofNat (48 + n) else Char.ofNat (87 + n)

/-- The two digits of an octet. -/
def hexPair (b : UInt8) : List Char := [hexDigit (b.toNat / 16), hexDigit (b.toNat % 16)]

/-- Two lowercase hexadecimal digits per octet. -/
def hex (bs : Bytes) : String := String.ofList (bs.flatMap hexPair)

/-- The number of a lowercase digit. -/
def digit? (c : Char) : Option Nat :=
  if '0' ≤ c ∧ c ≤ '9' then some (c.toNat - 48)
  else if 'a' ≤ c ∧ c ≤ 'f' then some (c.toNat - 87)
  else none

/-- Reads pairs of digits behind the octets read before, newest first. -/
def readHex (before : Bytes) : List Char → Option Bytes
  | [] => some before.reverse
  | [_] => none
  | a :: b :: rest =>
    match digit? a, digit? b with
    | some m, some n => readHex (UInt8.ofNat (m * 16 + n) :: before) rest
    | _, _ => none

/-- The octets that hexadecimal digits write. -/
def ofHex? (s : String) : Option Bytes := readHex [] s.toList

end Bytes

end Switchboard
