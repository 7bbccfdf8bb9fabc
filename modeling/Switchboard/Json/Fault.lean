import Switchboard.Json.Printer
import Switchboard.Text.Quoted

/-!
# Json/Fault — what is wrong with a text, and where

Reading stops at the first fault.  A `Cause` says what is wrong; a `Fault` adds how much of the
input was unread there and whether the next octet was looked at; `Fault.locate` turns that into the
line and column that people are shown.  Lines and columns count octets, both starting at the last
line feed read.
-/

namespace Switchboard.Json

/-- A value of a kind that was not asked for. -/
inductive Found where
  | null
  | bool (b : Bool)
  | integer (n : Int)
  | real (bits : UInt64)
  | string (s : String)
  | array
  | object
deriving Repr, DecidableEq

/-- What is wrong with a text that should be JSON. -/
inductive Cause where
  | endInValue
  | endInArray
  | endInObject
  | endInString
  | valueExpected
  | wordExpected
  | trailing
  | malformedNumber
  | numberTooLarge
  | arrayCommaExpected
  | objectCommaExpected
  | trailingComma
  | keyExpected
  | colonExpected
  | controlCharacter
  | unknownEscape
  | loneSurrogate
  | unfinishedSurrogate
  | notUtf8
  | tooDeep
  | otherKind (found : Found) (expected : String)
deriving Repr, DecidableEq

/-- The words for a value of a kind that was not asked for. -/
def Found.words : Found → String
  | null => "null"
  | bool b => if b then "boolean `true`" else "boolean `false`"
  | integer n => "integer `" ++ toString n ++ "`"
  | real bits => "floating point `" ++ String.ofList (Number.realText bits) ++ "`"
  | string s => "string " ++ Text.quoted s
  | array => "sequence"
  | object => "map"

/-- The words for a cause. -/
def Cause.words : Cause → String
  | endInValue => "EOF while parsing a value"
  | endInArray => "EOF while parsing a list"
  | endInObject => "EOF while parsing an object"
  | endInString => "EOF while parsing a string"
  | valueExpected => "expected value"
  | wordExpected => "expected ident"
  | trailing => "trailing characters"
  | malformedNumber => "invalid number"
  | numberTooLarge => "number out of range"
  | arrayCommaExpected => "expected `,` or `]`"
  | objectCommaExpected => "expected `,` or `\x7d`"
  | trailingComma => "trailing comma"
  | keyExpected => "key must be a string"
  | colonExpected => "expected `:`"
  | controlCharacter => "control character (\\u0000-\\u001F) found while parsing a string"
  | unknownEscape => "invalid escape"
  | loneSurrogate => "lone leading surrogate in hex escape"
  | unfinishedSurrogate => "unexpected end of hex escape"
  | notUtf8 => "invalid unicode code point"
  | tooDeep => "recursion limit exceeded"
  | otherKind found expected => "invalid type: " ++ found.words ++ ", expected " ++ expected

/-- A fault as the reader meets it. -/
structure Fault where
  /-- What is wrong. -/
  cause : Cause
  /-- How many octets were not read. -/
  unread : Nat
  /-- Was the next octet looked at, if there is one? -/
  ahead : Bool
  /-- How many octets of the last line the fault lies before the last one read. -/
  back : Nat
deriving Repr, DecidableEq

namespace Fault

/-- A fault right after the octets read so far. -/
def here (cause : Cause) (rest : Bytes) : Fault := ⟨cause, rest.length, false, 0⟩

/-- A fault at the next octet. -/
def next (cause : Cause) (rest : Bytes) : Fault := ⟨cause, rest.length, true, 0⟩

end Fault

/-- A fault with its place in the input. -/
structure Error where
  /-- What is wrong. -/
  cause : Cause
  /-- The line, from `1`. -/
  line : Nat
  /-- The number of octets after the last line feed. -/
  column : Nat
deriving Repr, DecidableEq

/-- The text people are shown. -/
def Error.message (e : Error) : String :=
  e.cause.words ++ " at line " ++ toString e.line ++ " column " ++ toString e.column

/-- The place of a fault in the input it was met in. -/
def Fault.locate (f : Fault) (input : Bytes) : Error :=
  let read := input.length - f.unread
  let upto := input.take (if f.ahead then read + 1 else read)
  let column := (upto.reverse.takeWhile (· != 0x0a)).length
  ⟨f.cause, upto.count 0x0a + 1, column - f.back⟩

end Switchboard.Json
