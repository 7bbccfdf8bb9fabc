import Switchboard.Command.Failure
import Switchboard.Wire.Header

/-!
# Command/Entry — header entries and durations as they are typed

A header entry is a key and a value with the first `=` between them; a value that is JSON keeps its
type and every other value is a string.  A duration is a whole number of seconds, or of
milliseconds with `ms` after it.
-/

namespace Switchboard

namespace Entries

/-- What stands before and after the first `=` of an entry. -/
def cut (entry : String) : Option (String × String) :=
  let cs := entry.toList
  let key := cs.takeWhile (· ≠ '=')
  if key.length = cs.length then none
  else some (String.ofList key, String.ofList (cs.drop (key.length + 1)))

/-- The value an entry writes. -/
def value (text : String) : Json :=
  match Json.parse (Bytes.ofText text) with
  | .ok v => v
  | .error _ => .string text

/-- Adds an entry to a header. -/
def add (h : Header) (entry : String) : Except Failure Header :=
  match cut entry with
  | none => .error (.ofUsage ("header must be key=value: " ++ entry))
  | some (key, text) =>
    if key = "" then .error (.ofUsage ("header key must not be empty: " ++ entry))
    else .ok (h.insert key (value text))

/-- **The header of some entries**, later ones winning.  The first bad entry is refused. -/
def header (entries : List String) : Except Failure Header := entries.foldlM add KeyMap.empty

end Entries

/-- A positive time span. -/
structure Duration where
  /-- Its milliseconds. -/
  milliseconds : Nat
deriving Repr, DecidableEq

namespace Duration

/-- The largest number a duration is written with. -/
def maxNumeral : Nat := 0xFFFF_FFFF_FFFF_FFFF

/-- What stands before an ending, if the text has it. -/
def before (ending : List Char) (cs : List Char) : Option (List Char) :=
  if ending.isSuffixOf cs then some (cs.take (cs.length - ending.length)) else none

/-- The numeral of a duration and what it counts, in milliseconds. -/
def cut (cs : List Char) : List Char × Nat :=
  match before ['m', 's'] cs with
  | some number => (number, 1)
  | none => ((before ['s'] cs).getD cs, 1000)

/-- **Reads a duration**, white space around it aside.  Zero is refused. -/
def parse (input : String) : Except Failure Duration :=
  let cs := Text.trim input.toList
  if cs = [] then .error (.ofUsage "duration must not be empty")
  else
    let (number, unit) := cut cs
    match Text.natural? maxNumeral number with
    | none => .error (.ofUsage ("invalid duration value: " ++ String.ofList cs))
    | some 0 => .error (.ofUsage "duration must be greater than zero")
    | some n => .ok ⟨n * unit⟩

end Duration

end Switchboard
