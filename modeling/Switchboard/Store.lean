import Switchboard.KeyMap
import Switchboard.Text.Quoted

/-!
# Store — values of several types under text keys

Handlers keep values in a store under keys of their choice.  A value is found only by asking for
its own type.
-/

namespace Switchboard

/-- A stored value. -/
inductive Stored where
  | int64 (n : Int64)
  | word32 (n : UInt32)
  | bool (b : Bool)
  | text (s : String)
deriving Repr, DecidableEq

/-- The type of a stored value. -/
inductive StoredType where
  | int64
  | word32
  | bool
  | text
deriving Repr, DecidableEq

/-- The type a value was stored with. -/
def Stored.type : Stored → StoredType
  | int64 _ => .int64
  | word32 _ => .word32
  | bool _ => .bool
  | text _ => .text

/-- Values under text keys. -/
abbrev Store := KeyMap Stored

namespace Store

/-- The value under a key, if it was stored with this type. -/
def find? (s : Store) (key : String) (type : StoredType) : Option Stored :=
  (KeyMap.get? s key).filter fun v => v.type = type

/-- The store as people are shown it: its keys. -/
def display (s : Store) : String :=
  let keys := (KeyMap.keys s).map Text.quoted
  "Store \x7b keys: [" ++ ", ".intercalate keys ++ "] \x7d"

end Store

end Switchboard
