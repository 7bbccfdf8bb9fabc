import Switchboard.KeyMap

/-!
# Json — JSON values

Integers are kept exactly while they fit 64 bits, with the sign counted in; every other number is a
double, kept by its bits.  An object's fields are a list; a value is `Canonical` when every object
in it lists its keys rising, each once, which is how the reader leaves them and how a `KeyMap` has
them.  `depth` counts nested arrays and objects, and `Integral` says that no number is a double.
-/

namespace Switchboard

/-- A number: an exact 64-bit integer, or a finite double. -/
inductive Number where
  /-- An integer from `0` to `2^64 - 1`. -/
  | natural (n : UInt64)
  /-- The integer `-(n + 1)`, from `-2^63` to `-1`. -/
  | negative (n : Fin 0x8000_0000_0000_0000)
  /-- The double with these bits. -/
  | real (bits : UInt64)
deriving Repr, DecidableEq

/-- A JSON value. -/
inductive Json where
  | null
  | bool (b : Bool)
  | number (n : Number)
  | string (s : String)
  | array (items : List Json)
  | object (fields : List (String × Json))
deriving Repr, Inhabited

namespace Json

/-- The text of a string value. -/
def text? : Json → Option String
  | string s => some s
  | _ => none

/-! ## Shape -/

mutual

/-- How many arrays and objects enclose the innermost value, at most. -/
def depth : Json → Nat
  | array items => depthItems items + 1
  | object fields => depthFields fields + 1
  | _ => 0

/-- The greatest depth of the items. -/
def depthItems : List Json → Nat
  | [] => 0
  | v :: rest => max v.depth (depthItems rest)

/-- The greatest depth of the values of the fields. -/
def depthFields : List (String × Json) → Nat
  | [] => 0
  | (_, v) :: rest => max v.depth (depthFields rest)

end

mutual

/-- No number in the value is a double. -/
def Integral : Json → Prop
  | number (.real _) => False
  | array items => IntegralItems items
  | object fields => IntegralFields fields
  | _ => True

/-- No number in the items is a double. -/
def IntegralItems : List Json → Prop
  | [] => True
  | v :: rest => v.Integral ∧ IntegralItems rest

/-- No number in the fields is a double. -/
def IntegralFields : List (String × Json) → Prop
  | [] => True
  | (_, v) :: rest => v.Integral ∧ IntegralFields rest

end

mutual

/-- Every object in the value lists its keys rising, each once. -/
def Canonical : Json → Prop
  | array items => CanonicalItems items
  | object fields => Rising fields ∧ CanonicalFields fields
  | _ => True

/-- Every item is canonical. -/
def CanonicalItems : List Json → Prop
  | [] => True
  | v :: rest => v.Canonical ∧ CanonicalItems rest

/-- Every field's value is canonical. -/
def CanonicalFields : List (String × Json) → Prop
  | [] => True
  | (_, v) :: rest => v.Canonical ∧ CanonicalFields rest

end

/-- A value whose text names it: no number is a double, objects are canonical, and at most so many
arrays and objects enclose one another. -/
structure Plain (levels : Nat) (v : Json) : Prop where
  integral : v.Integral
  canonical : v.Canonical
  depth_le : v.depth ≤ levels

end Json

end Switchboard
