import Switchboard.IoFault
import Switchboard.Json.Fault
import Switchboard.Wire.Marshaller

/-!
# Wire/Error — why a block cannot be packed, read or written

`Malformed` lists the ways in which declared lengths and octets disagree.  `WireError` adds limits,
headers, bodies and the stream below; `WireError.message` is the text people are shown.
-/

namespace Switchboard

/-- How lengths and octets disagree. -/
inductive Malformed where
  /-- Too few octets for the length in front. -/
  | noLength (size : Nat)
  /-- Too few octets for the fixed fields. -/
  | noFields (size : Nat)
  /-- The declared length exceeds the octets there are. -/
  | cut (declared available : Nat)
  /-- The lengths of header and body do not add up to the declared length. -/
  | disagree (header body declared : Nat)
  /-- The declared length cannot hold the fixed fields. -/
  | tooSmall (declared : Nat)
  /-- A pipeline of no message. -/
  | emptyPipeline
deriving Repr, DecidableEq

/-- The words for a disagreement. -/
def Malformed.words : Malformed → String
  | noLength size => "block is " ++ toString size ++ " bytes, the length prefix needs 4"
  | noFields size => "block is " ++ toString size ++ " bytes, the fixed header needs 16"
  | cut declared available =>
    "frame length " ++ toString declared ++ " exceeds the " ++ toString available ++
      " bytes available"
  | disagree header body declared =>
    "header (" ++ toString header ++ ") and body (" ++ toString body ++
      ") lengths disagree with frame length " ++ toString declared
  | tooSmall declared =>
    "frame length " ++ toString declared ++ " is smaller than the 12 fixed bytes"
  | emptyPipeline => "empty pipeline"

/-- Why a body cannot be encoded or decoded. -/
inductive BodyFault where
  /-- The octets are not JSON, or not of the kind asked for. -/
  | json (e : Json.Error)
  /-- The encoding is not built in. -/
  | disabled
deriving Repr, DecidableEq

/-- Why a block cannot be packed, read or written. -/
inductive WireError where
  /-- The input ended inside a block. -/
  | truncated (expected actual : Nat)
  /-- The declared length is above the limit. -/
  | tooLarge (size max : Nat)
  /-- The head of a pipeline announces more blocks than allowed. -/
  | pipelineTooLong (count max : Nat)
  /-- Lengths and octets disagree. -/
  | malformed (why : Malformed)
  /-- The header is not a JSON object. -/
  | header (e : Json.Error)
  /-- The body cannot be encoded or decoded. -/
  | body (marshaller : Marshaller) (why : BodyFault)
  /-- No encoding has this name. -/
  | unknownMarshaller (name : String)
  /-- The encoding is known but bodies must come encoded. -/
  | externalMarshaller (name : String)
  /-- The header sets a key that only the library may set. -/
  | reservedKey (key : String)
  /-- The stream below failed. -/
  | io (fault : IoFault)
deriving Repr, DecidableEq

/-- The words for a body fault. -/
def BodyFault.words (m : Marshaller) : BodyFault → String
  | json e => e.message
  | disabled => "support not compiled in (enable the `" ++ m.name ++ "` feature)"

/-- The text people are shown. -/
def WireError.message : WireError → String
  | truncated expected actual =>
    "truncated block (expected " ++ toString expected ++ " bytes, got " ++ toString actual ++ ")"
  | tooLarge size max =>
    "frame too large (" ++ toString size ++ " bytes, max " ++ toString max ++ ")"
  | pipelineTooLong count max =>
    "pipeline too long (" ++ toString count ++ " blocks, max " ++ toString max ++ ")"
  | malformed why => "malformed block: " ++ why.words
  | header e => "header JSON error: " ++ e.message
  | body m why => m.name ++ " marshaller error: " ++ why.words m
  | unknownMarshaller name => "unknown marshaller '" ++ name ++ "'"
  | externalMarshaller name =>
    "marshaller '" ++ name ++ "' is not built in; send pre-encoded bodies instead"
  | reservedKey key => "header key '" ++ key ++ "' is reserved"
  | io fault => "frame I/O error: " ++ fault.message

end Switchboard
