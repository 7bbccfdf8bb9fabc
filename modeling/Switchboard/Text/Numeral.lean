/-!
# Text/Numeral — decimal numerals

A numeral is one or more ASCII digits; it is read as the number it writes (`digitsValue`) and
refused when that number is above a bound.  An unsigned numeral may start with one `+`
(`natural?`), a signed one with `+` or `-` (`integer?`).
-/

namespace Switchboard.Text

/-- The number a run of decimal digits writes. -/
def digitsValue (cs : List Char) : Nat :=
  cs.foldl (fun n c => n * 10 + (c.toNat - 48)) 0

/-- The number of a nonempty run of digits, if nothing else is there. -/
def digits? (cs : List Char) : Option Nat :=
  if cs ≠ [] ∧ cs.all Char.isDigit then some (digitsValue cs) else none

/-- An unsigned numeral, at most `max`: an optional `+` and digits. -/
def natural? (max : Nat) (cs : List Char) : Option Nat :=
  let digits := match cs with
    | '+' :: rest => rest
    | _ => cs
  (digits? digits).filter (· ≤ max)

/-- A signed numeral between `-(max + 1)` and `max`: an optional sign and digits. -/
def integer? (max : Nat) (cs : List Char) : Option Int :=
  match cs with
  | '-' :: rest => ((digits? rest).filter (· ≤ max + 1)).map fun n => -(n : Int)
  | _ => (natural? max cs).map fun n => (n : Int)

end Switchboard.Text
