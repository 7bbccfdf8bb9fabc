/-!
# Shortest — the fewest decimal digits that name a double

A positive double stands for the interval of reals that round to it; its ends belong to it when the
mantissa is even.  Of all decimals in the interval `Shortest.ofBits` picks one with the fewest
digits, and of those the one nearest to the double, an exact half going to the even digit.
Everything is computed on natural numbers: the double is `m · 2^q`, and the numbers `m ± 1/2` are
kept at a quarter of a unit.
-/

namespace Switchboard

/-- A decimal in scientific form: digits, the first of them before the point, and the power of ten.
-/
structure Shortest where
  /-- The digits, the last of them not `0` unless it is the only one. -/
  digits : List Char
  /-- The power of ten of the first digit. -/
  exponent : Int
deriving Repr, DecidableEq

namespace Shortest

/-- A positive real given as a quotient, with the ends of the interval that rounds to it over the
same denominator. -/
structure Target where
  /-- The lower end. -/
  low : Nat
  /-- The real itself. -/
  value : Nat
  /-- The upper end. -/
  high : Nat
  /-- The common denominator. -/
  den : Nat
  /-- Do the ends themselves round to the real? -/
  closed : Bool

/-- The interval of a finite positive double given by its bits (the sign is not looked at). -/
def Target.ofBits (bits : UInt64) : Target :=
  let fraction := bits.toNat % 0x10_0000_0000_0000
  let biased := bits.toNat / 0x10_0000_0000_0000 % 0x800
  let m := if biased = 0 then fraction else fraction + 0x10_0000_0000_0000
  let shift := if biased = 0 then 1 else biased
  -- a unit of the last place, counted in quarters, is `2 ^ (shift - 1077)`
  let scale := Nat.pow 2 (shift - 1077)
  let below := if fraction = 0 ∧ 1 < biased then 1 else 2
  ⟨(4 * m - below) * scale, 4 * m * scale, (4 * m + 2) * scale, Nat.pow 2 (1077 - shift),
    m % 2 = 0⟩

/-- The number of decimal digits. -/
def decimalLength (n : Nat) : Nat := (Nat.toDigits 10 n).length

/-- The power of ten of the first digit of a positive quotient. -/
def leadingExponent (num den : Nat) : Int :=
  if den ≤ num then (decimalLength (num / den) : Int) - 1
  else -(decimalLength ((den + num - 1) / num - 1) : Int)

/-- The decimal of exactly `n` digits that the interval holds, if it holds one: the value's
neighbours on the grid of `n` digits are tried, and of two hits the nearer is taken. -/
def onGrid (t : Target) (lead : Int) (n : Nat) : Option Shortest :=
  let places : Int := n - 1 - lead
  let up := Nat.pow 10 places.toNat
  let den := t.den * Nat.pow 10 (-places).toNat
  let value := t.value * up
  let inside (d : Nat) : Bool :=
    if t.closed then t.low * up ≤ d * den && d * den ≤ t.high * up
    else t.low * up < d * den && d * den < t.high * up
  let below := value / den
  let above := below + 1
  let nearer :=
    if 2 * (value % den) < den then below
    else if den < 2 * (value % den) then above
    else if below % 2 = 0 then below else above
  let pick :=
    if inside below then (if inside above then some nearer else some below)
    else if inside above then some above else none
  pick.map fun d =>
    let digits := Nat.toDigits 10 d
    let kept := (digits.reverse.dropWhile (· == '0')).reverse
    ⟨if kept.isEmpty then ['0'] else kept, (digits.length : Int) - 1 - places⟩

/-- The shortest decimal of a finite nonzero double, its sign left out.  Seventeen digits always
suffice. -/
def ofBits (bits : UInt64) : Shortest :=
  let t := Target.ofBits bits
  let lead := leadingExponent t.value t.den
  ((List.range' 1 17).findSome? (onGrid t lead)).getD ⟨['0'], 0⟩

end Shortest

end Switchboard
