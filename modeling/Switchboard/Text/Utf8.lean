import Switchboard.Bytes

/-!
# Text/Utf8 — where an octet sequence stops being text

`wholeCharacters` counts the octets up to the first one at which no UTF-8 character starts.
A sequence is UTF-8 when that count is its length.
-/

namespace Switchboard.Text

/-- Is this an octet that continues a character? -/
def isTail (b : UInt8) : Bool := 0x80 ≤ b && b ≤ 0xbf

/-- Do these two octets write one character? -/
def isPair (a b : UInt8) : Bool := 0xc2 ≤ a && a ≤ 0xdf && isTail b

/-- Do these three octets write one character?  Overlong forms and surrogates do not. -/
def isTriple (a b c : UInt8) : Bool :=
  0xe0 ≤ a && a ≤ 0xef && isTail b && isTail c &&
    (a != 0xe0 || 0xa0 ≤ b) && (a != 0xed || b ≤ 0x9f)

/-- Do these four octets write one character?  It is neither overlong nor above U+10FFFF. -/
def isQuadruple (a b c d : UInt8) : Bool :=
  0xf0 ≤ a && a ≤ 0xf4 && isTail b && isTail c && isTail d &&
    (a != 0xf0 || 0x90 ≤ b) && (a != 0xf4 || b ≤ 0x8f)

/-- `n` plus the number of octets before the first one at which no character starts. -/
def wholeCharacters (n : Nat) : Bytes → Nat
  | [] => n
  | a :: rest =>
    if a < 0x80 then wholeCharacters (n + 1) rest
    else match rest with
      | [] => n
      | b :: rest₂ =>
        if isPair a b then wholeCharacters (n + 2) rest₂
        else match rest₂ with
          | [] => n
          | c :: rest₃ =>
            if isTriple a b c then wholeCharacters (n + 3) rest₃
            else match rest₃ with
              | [] => n
              | d :: rest₄ => if isQuadruple a b c d then wholeCharacters (n + 4) rest₄ else n

end Switchboard.Text
