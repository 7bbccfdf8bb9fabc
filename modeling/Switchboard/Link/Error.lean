import Switchboard.IoFault
import Switchboard.Link.Network

/-!
# Link/Error — why a listener or a client cannot be had

The faults of binding and connecting name the network and the address as they were given.
-/

namespace Switchboard

/-- Why a transport operation fails. -/
inductive LinkError where
  /-- The address cannot be bound. -/
  | bind (network : Network) (address : String) (fault : IoFault)
  /-- The address cannot be connected to. -/
  | connect (network : Network) (address : String) (fault : IoFault)
  /-- No network has this name. -/
  | unknownNetwork (name : String)
  /-- The network has no transport. -/
  | unavailable (network : Network)
  /-- The network carries something else. -/
  | wrongKind (network : Network)
  /-- The path does not fit a socket address. -/
  | pathTooLong (path : String) (size : Nat)
deriving Repr, DecidableEq

/-- How many octets a path must stay below. -/
def maxPathSize : Nat := 108

/-- The text people are shown. -/
def LinkError.message : LinkError → String
  | bind network address fault =>
    "failed to bind " ++ network.name ++ " " ++ address ++ ": " ++ fault.message
  | connect network address fault =>
    "failed to connect to " ++ network.name ++ " " ++ address ++ ": " ++ fault.message
  | unknownNetwork name => "network '" ++ name ++ "' is not supported"
  | unavailable network => "network '" ++ network.name ++ "' is recognised but not available"
  | wrongKind network =>
    "network '" ++ network.name ++ "' is a " ++ network.kind.name ++ " transport"
  | pathTooLong path size =>
    "socket path too long (" ++ toString size ++ " bytes, max " ++ toString maxPathSize ++ "): " ++
      path

/-- The network with a name, or why there is none. -/
def Network.parse (name : String) : Except LinkError Network :=
  match Network.ofName? name with
  | some n => .ok n
  | none => .error (.unknownNetwork name)

end Switchboard
