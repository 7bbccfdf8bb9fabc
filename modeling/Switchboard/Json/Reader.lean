import Switchboard.Json.Fault
import Switchboard.Text.Utf8

/-!
# Json/Reader — reading a JSON value

Each reader takes the unread octets and returns what it read with the octets it left, or the first
fault.  `value` reads one value with at most the given number of levels of arrays and objects in it;
`parse`, `parseObject` and `parseString` read a whole text.  Of fields with one key the last counts,
and fields end up in key order.

A number without point and exponent is an exact integer while it fits 64 bits.  Every other number
is a double computed from the leading digits that fit 64 bits and one power of ten, which is fast
but not always the nearest double.
-/

namespace Switchboard.Json.Reader

/-- What a reader returns: what it read and the octets it left, or the fault it met. -/
abbrev Reading (α : Type) := Except Fault (α × Bytes)

/-- Is this octet a blank between tokens? -/
def isSpace (b : UInt8) : Bool := b = 0x20 || b = 0x09 || b = 0x0a || b = 0x0d

/-- The input without the blanks in front. -/
def skipSpace (input : Bytes) : Bytes := input.dropWhile isSpace

/-- Is this octet a decimal digit? -/
def isDigit (b : UInt8) : Bool := 0x30 ≤ b && b ≤ 0x39

/-- The value of a decimal digit. -/
def digit (b : UInt8) : Nat := b.toNat - 0x30

/-! ## Words -/

/-- Reads the rest of a word such as `null` and answers with what the word stands for. -/
def word (meaning : Json) : Bytes → Bytes → Reading Json
  | [], input => .ok (meaning, input)
  | _ :: _, [] => .error (.here .endInValue [])
  | w :: letters, b :: rest =>
    if b = w then word meaning letters rest else .error (.here .wordExpected rest)

/-! ## Numbers -/

/-- Reads digits onto the number `n` while the result stays at most `max`, counting them. -/
def collect (max : Nat) (n count : Nat) : Bytes → Nat × Nat × Bytes
  | [] => (n, count, [])
  | b :: rest =>
    if isDigit b && n * 10 + digit b ≤ max then collect max (n * 10 + digit b) (count + 1) rest
    else (n, count, b :: rest)

/-- The double nearest to a power of ten. -/
def tenToThe (n : Nat) : Float := Float.ofScientific 1 false n

/-- Divides by `10^308` so many times, or until nothing is left. -/
def divideDown : Nat → Float → Float
  | 0, x => x
  | n + 1, x => if x == 0 then x else divideDown n (x / tenToThe 308)

/-- The double of a significand and a power of ten, or nothing where it would be infinite. -/
def scale (significand : Nat) (exponent : Int) : Option Float :=
  let x := (UInt64.ofNat significand).toFloat
  if 308 < exponent then
    if significand = 0 then some x else none
  else if 0 ≤ exponent then
    let y := x * tenToThe exponent.toNat
    if y.isInf then none else some y
  else
    let times := (exponent.natAbs - 1) / 308
    some (divideDown times x / tenToThe (exponent.natAbs - 308 * times))

/-- A double with a sign. -/
def signed (negative : Bool) (x : Float) : Number :=
  .real (if negative then x.toBits ||| 0x8000000000000000 else x.toBits)

/-- The double of a significand and a power of ten, read just before `rest`. -/
def scaled (negative : Bool) (significand : Nat) (exponent : Int) (rest : Bytes) :
    Reading Number :=
  match scale significand exponent with
  | some x => .ok (signed negative x, rest)
  | none => .error (.here .numberTooLarge rest)

/-- The integer of a significand, as a double where 64 bits cannot hold it with its sign. -/
def whole (negative : Bool) (significand : Nat) : Number :=
  if !negative then .natural (UInt64.ofNat significand)
  else if h : 0 < significand ∧ significand ≤ 0x8000_0000_0000_0000 then
    .negative ⟨significand - 1, by omega⟩
  else signed true (UInt64.ofNat significand).toFloat

/-- The greatest exponent whose digits are all looked at. -/
def maxExponent : Nat := 2147483647

/-- Reads a written exponent, the `e` having been read, onto the exponent counted so far. -/
def exponentPart (negative : Bool) (significand : Nat) (exponent : Int) (input : Bytes) :
    Reading Number :=
  let below := input.head? = some 0x2d
  let digits := if below || input.head? = some 0x2b then input.tail else input
  match digits with
  | [] => .error (.here .endInValue [])
  | b :: rest =>
    if isDigit b then
      match collect maxExponent (digit b) 1 rest with
      | (n, _, rest) =>
        match rest with
        | c :: more =>
          if isDigit c then
            if significand ≠ 0 ∧ !below then .error (.here .numberTooLarge more)
            else .ok (signed negative 0, more.dropWhile isDigit)
          else scaled negative significand (if below then exponent - n else exponent + n) rest
        | [] => scaled negative significand (if below then exponent - n else exponent + n) rest
    else .error (.here .malformedNumber rest)

/-- Reads what follows the digits of a fraction. -/
def afterFraction (negative : Bool) (significand : Nat) (exponent : Int) (input : Bytes) :
    Reading Number :=
  match input with
  | b :: rest =>
    if b = 0x65 || b = 0x45 then exponentPart negative significand exponent rest
    else scaled negative significand exponent input
  | [] => scaled negative significand exponent input

/-- Reads a fraction, the point having been read.  Digits that do not fit the significand are
passed over. -/
def fractionPart (negative : Bool) (significand : Nat) (exponent : Int) (input : Bytes) :
    Reading Number :=
  match input with
  | [] => .error (.next .endInValue [])
  | b :: _ =>
    if isDigit b then
      match collect (0xFFFF_FFFF_FFFF_FFFF) significand 0 input with
      | (n, count, rest) =>
        afterFraction negative n (exponent - count) (rest.dropWhile isDigit)
    else .error (.next .malformedNumber input)

/-- Reads what follows the digits before the point.  `extra` digits did not fit the significand. -/
def afterInteger (negative : Bool) (significand extra : Nat) (input : Bytes) : Reading Number :=
  let plain : Reading Number :=
    if extra = 0 then .ok (whole negative significand, input)
    else scaled negative significand extra input
  match input with
  | b :: rest =>
    if b = 0x2e then fractionPart negative significand extra rest
    else if b = 0x65 || b = 0x45 then exponentPart negative significand extra rest
    else plain
  | [] => plain

/-- Reads a number, the sign having been read. -/
def number (negative : Bool) : Bytes → Reading Number
  | [] => .error (.here .endInValue [])
  | b :: rest =>
    if b = 0x30 then
      if (rest.head?.map isDigit).getD false then .error (.next .malformedNumber rest)
      else afterInteger negative 0 0 rest
    else if isDigit b then
      match collect (0xFFFF_FFFF_FFFF_FFFF) (digit b) 1 rest with
      | (n, _, rest) =>
        let extra := rest.takeWhile isDigit
        afterInteger negative n extra.length (rest.drop extra.length)
    else .error (.here .malformedNumber rest)

/-! ## Strings -/

/-- The value of a hexadecimal digit. -/
def hexValue? (b : UInt8) : Option Nat :=
  if isDigit b then some (digit b)
  else if 0x61 ≤ b && b ≤ 0x66 then some (b.toNat - 0x57)
  else if 0x41 ≤ b && b ≤ 0x46 then some (b.toNat - 0x37)
  else none

/-- Reads four hexadecimal digits as one number. -/
def hexQuad : Bytes → Reading Nat
  | a :: b :: c :: d :: rest =>
    match hexValue? a, hexValue? b, hexValue? c, hexValue? d with
    | some w, some x, some y, some z => .ok (((w * 16 + x) * 16 + y) * 16 + z, rest)
    | _, _, _, _ => .error (.here .unknownEscape rest)
  | _ => .error (.here .endInString [])

/-- Reads one given octet in the middle of a surrogate pair. -/
def pairOctet (wanted : UInt8) : Bytes → Reading Unit
  | [] => .error (.here .endInString [])
  | b :: rest => if b = wanted then .ok ((), rest) else .error (.here .unfinishedSurrogate rest)

/-- Reads the digits of a `\u` escape, and of the second one where the first is half a pair, as a
code point. -/
def codePoint (input : Bytes) : Except Fault (Nat × Bytes) := do
  let (first, rest) ← hexQuad input
  if 0xdc00 ≤ first ∧ first ≤ 0xdfff then .error (.here .loneSurrogate rest)
  else if first < 0xd800 ∨ 0xdbff < first then .ok (first, rest)
  else
    let (_, rest) ← pairOctet 0x5c rest
    let (_, rest) ← pairOctet 0x75 rest
    let (second, rest) ← hexQuad rest
    if second < 0xdc00 ∨ 0xdfff < second then .error (.here .loneSurrogate rest)
    else .ok ((first - 0xd800) * 0x400 + (second - 0xdc00) + 0x10000, rest)

/-- The octet an escape letter stands for. -/
def escapeLetter? (b : UInt8) : Option UInt8 :=
  if b = 0x22 || b = 0x5c || b = 0x2f then some b
  else if b = 0x62 then some 0x08
  else if b = 0x66 then some 0x0c
  else if b = 0x6e then some 0x0a
  else if b = 0x72 then some 0x0d
  else if b = 0x74 then some 0x09
  else none

/-- Reads an escape, the backslash having been read, as the octets it stands for. -/
def escape : Bytes → Except Fault (Bytes × Bytes)
  | [] => .error (.here .endInString [])
  | b :: rest =>
    match escapeLetter? b with
    | some c => .ok ([c], rest)
    | none =>
      if b = 0x75 then do
        let (n, rest) ← codePoint rest
        .ok (Bytes.ofText (String.singleton (Char.ofNat n)), rest)
      else .error (.here .unknownEscape rest)

/-- Reads up to the closing quotation mark and returns the octets meant, last first.  The first
argument bounds the number of characters; the length of the input is enough. -/
def content : Nat → Bytes → Bytes → Reading Bytes
  | _, _, [] => .error (.here .endInString [])
  | 0, _, input => .error (.here .endInString input)
  | n + 1, before, b :: rest =>
    if b = 0x22 then .ok (before, rest)
    else if b = 0x5c then
      match escape rest with
      | .ok (octets, rest) => content n (octets.reverse ++ before) rest
      | .error f => .error f
    else if b < 0x20 then .error (.here .controlCharacter rest)
    else content n (b :: before) rest

/-- Reads a string, the opening quotation mark having been read.  Its octets must be UTF-8. -/
def stringBody (input : Bytes) : Reading String :=
  match content input.length [] input with
  | .error f => .error f
  | .ok (reversed, rest) =>
    let octets := reversed.reverse
    match Bytes.text? octets with
    | some s => .ok (s, rest)
    | none =>
      .error ⟨.notUtf8, rest.length, false, octets.length - Text.wholeCharacters 0 octets⟩

/-! ## Arrays and objects -/

/-- Reads the items of an array from the first item on, given the items before in reverse.  The
first argument bounds the number of items. -/
def items (item : Bytes → Reading Json) : Nat → List Json → Bytes → Reading (List Json)
  | 0, _, input => .error (.next .endInArray input)
  | n + 1, before, input =>
    match item input with
    | .error f => .error f
    | .ok (v, rest) =>
      match skipSpace rest with
      | [] => .error (.next .endInArray [])
      | b :: rest =>
        if b = 0x5d then .ok ((v :: before).reverse, rest)
        else if b = 0x2c then
          match skipSpace rest with
          | [] => .error (.next .endInValue [])
          | c :: more =>
            if c = 0x5d then .error (.next .trailingComma (c :: more))
            else items item n (v :: before) (c :: more)
        else .error (.next .arrayCommaExpected (b :: rest))

/-- Reads an array, the bracket having been read. -/
def arrayBody (item : Bytes → Reading Json) (input : Bytes) : Reading (List Json) :=
  match skipSpace input with
  | [] => .error (.next .endInArray [])
  | b :: rest =>
    if b = 0x5d then .ok ([], rest) else items item input.length [] (b :: rest)

/-- Reads the colon after a key. -/
def colon (input : Bytes) : Reading Unit :=
  match skipSpace input with
  | [] => .error (.next .endInObject [])
  | b :: rest => if b = 0x3a then .ok ((), rest) else .error (.next .colonExpected (b :: rest))

/-- Reads the fields of an object from the first key on, its quotation mark having been read, onto
the fields before.  The first argument bounds the number of fields. -/
def fields (item : Bytes → Reading Json) :
    Nat → KeyMap Json → Bytes → Reading (KeyMap Json)
  | 0, _, input => .error (.next .endInObject input)
  | n + 1, before, input =>
    match stringBody input with
    | .error f => .error f
    | .ok (key, rest) =>
      match colon rest with
      | .error f => .error f
      | .ok (_, rest) =>
        match item rest with
        | .error f => .error f
        | .ok (v, rest) =>
          match skipSpace rest with
          | [] => .error (.next .endInObject [])
          | b :: rest =>
            if b = 0x7d then .ok (before.insert key v, rest)
            else if b = 0x2c then
              match skipSpace rest with
              | [] => .error (.next .endInValue [])
              | c :: more =>
                if c = 0x22 then fields item n (before.insert key v) more
                else if c = 0x7d then .error (.next .trailingComma (c :: more))
                else .error (.next .keyExpected (c :: more))
            else .error (.next .objectCommaExpected (b :: rest))

/-- Reads an object, the brace having been read. -/
def objectBody (item : Bytes → Reading Json) (input : Bytes) : Reading (KeyMap Json) :=
  match skipSpace input with
  | [] => .error (.next .endInObject [])
  | b :: rest =>
    if b = 0x7d then .ok (.empty, rest)
    else if b = 0x22 then fields item input.length .empty rest
    else .error (.next .keyExpected (b :: rest))

/-! ## Values -/

/-- Reads a value whose nested values are read by `nested`; without it no array or object may
start. -/
def valueWith (nested : Option (Bytes → Reading Json)) (input : Bytes) : Reading Json :=
  match skipSpace input with
  | [] => .error (.next .endInValue [])
  | b :: rest =>
    if b = 0x6e then word .null [0x75, 0x6c, 0x6c] rest
    else if b = 0x74 then word (.bool true) [0x72, 0x75, 0x65] rest
    else if b = 0x66 then word (.bool false) [0x61, 0x6c, 0x73, 0x65] rest
    else if b = 0x2d then (number true rest).map fun r => (.number r.1, r.2)
    else if isDigit b then (number false (b :: rest)).map fun r => (.number r.1, r.2)
    else if b = 0x22 then (stringBody rest).map fun r => (.string r.1, r.2)
    else if b = 0x5b then
      match nested with
      | none => .error (.next .tooDeep (b :: rest))
      | some item => (arrayBody item rest).map fun r => (.array r.1, r.2)
    else if b = 0x7b then
      match nested with
      | none => .error (.next .tooDeep (b :: rest))
      | some item => (objectBody item rest).map fun r => (.object r.1.entries, r.2)
    else .error (.next .valueExpected (b :: rest))

/-- **Reads one value** with at most so many levels of arrays and objects. -/
def value : Nat → Bytes → Reading Json
  | 0 => valueWith none
  | levels + 1 => valueWith (some (value levels))

/-- How many levels of arrays and objects a text may have. -/
def maxDepth : Nat := 127

/-! ## Whole texts -/

/-- Reads a whole input, blanks allowed at the end. -/
def whollyRead {α : Type} (reader : Bytes → Reading α) (input : Bytes) : Except Error α :=
  match reader input with
  | .error f => .error (f.locate input)
  | .ok (v, rest) =>
    match skipSpace rest with
    | [] => .ok v
    | b :: more => .error ((Fault.next .trailing (b :: more)).locate input)

/-- The kind of a value that was not asked for. -/
def found : Json → Found
  | null => .null
  | bool b => .bool b
  | Json.number (.natural n) => .integer n.toNat
  | Json.number (.negative n) => .integer (-(n.val + 1 : Nat))
  | Json.number (.real bits) => .real bits
  | string s => .string s
  | array _ => .array
  | object _ => .object

/-- Refuses a value of another kind than expected: arrays and objects at once, other values after
reading them. -/
def otherKind {α : Type} (expected : String) (input : Bytes) : Reading α :=
  let rest := skipSpace input
  if rest.head? = some 0x5b then .error (.here (.otherKind .array expected) rest)
  else if rest.head? = some 0x7b then .error (.here (.otherKind .object expected) rest)
  else match valueWith none rest with
    | .error f => .error f
    | .ok (v, rest) => .error (.here (.otherKind (found v) expected) rest)

/-- Reads a value that must be an object. -/
def objectOnly (input : Bytes) : Reading (KeyMap Json) :=
  match skipSpace input with
  | [] => otherKind "a map" input
  | b :: rest =>
    if b = 0x7b then objectBody (value (maxDepth - 1)) rest else otherKind "a map" input

/-- Reads a value that must be a string. -/
def stringOnly (input : Bytes) : Reading String :=
  match skipSpace input with
  | [] => otherKind "a string" input
  | b :: rest => if b = 0x22 then stringBody rest else otherKind "a string" input

end Reader

/-- **The value a text writes.** -/
def parse (input : Bytes) : Except Error Json :=
  Reader.whollyRead (Reader.value Reader.maxDepth) input

/-- The fields of the object a text writes. -/
def parseObject (input : Bytes) : Except Error (KeyMap Json) :=
  Reader.whollyRead Reader.objectOnly input

/-- The string a text writes. -/
def parseString (input : Bytes) : Except Error String :=
  Reader.whollyRead Reader.stringOnly input

end Switchboard.Json
