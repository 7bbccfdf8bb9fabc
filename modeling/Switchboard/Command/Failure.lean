import Switchboard.Link.Error
import Switchboard.Service.Error
import Switchboard.Wire.Error

/-!
# Command/Failure — how a command fails

A failed command says what it was doing and why it failed, and ends with an exit code that tells
usage errors, unreachable peers, timeouts and invalid data apart.
-/

namespace Switchboard

/-- A failed command. -/
structure Failure where
  /-- The exit code. -/
  code : Nat
  /-- What is written to the error output. -/
  message : String
deriving Repr, DecidableEq

namespace Failure

/-! ## Exit codes -/

/-- The command did what was asked. -/
def success : Nat := 0

/-- The command failed for another reason than those below. -/
def general : Nat := 1

/-- The arguments were not understood. -/
def notUnderstood : Nat := 2

/-- The peer or the network could not be used. -/
def transport : Nat := 3

/-- The data is not valid. -/
def invalidData : Nat := 60

/-- The arguments were understood but make no sense. -/
def usage : Nat := 64

/-- Nothing happened in time. -/
def timeout : Nat := 124

/-- The system failed. -/
def internal : Nat := 125

/-! ## Failures -/

/-- The exit code for a failed input or output operation. -/
def codeOfFault : IoFault → Nat
  | .timedOut | .wouldBlock | .tryAgain => timeout
  | .connectionRefused | .connectionReset | .addressInUse | .addressUnavailable
  | .noSuchFamily => transport
  | _ => internal

/-- An input or output operation failed while something was done. -/
def ofFault (doing : String) (f : IoFault) : Failure := ⟨codeOfFault f, doing ++ ": " ++ f.message⟩

/-- The arguments make no sense. -/
def ofUsage (message : String) : Failure := ⟨usage, message⟩

/-- A transport operation failed while something was done. -/
def ofLink (doing : String) (e : LinkError) : Failure :=
  match e with
  | .bind _ _ f | .connect _ _ f => ofFault doing f
  | .unknownNetwork _ | .wrongKind _ => ⟨usage, doing ++ ": " ++ e.message⟩
  | .unavailable _ | .pathTooLong .. => ⟨transport, doing ++ ": " ++ e.message⟩

/-- A block could not be packed, read or written while something was done. -/
def ofWire (doing : String) (e : WireError) : Failure :=
  match e with
  | .io f => ofFault doing f
  | .reservedKey _ | .unknownMarshaller _ | .externalMarshaller _ =>
    ⟨usage, doing ++ ": " ++ e.message⟩
  | .truncated .. => ⟨general, doing ++ ": " ++ e.message⟩
  | _ => ⟨invalidData, doing ++ ": " ++ e.message⟩

/-- An operation on a service failed while something was done. -/
def ofService (doing : String) (e : ServiceError) : Failure :=
  match e with
  | .link e => ofLink doing e
  | _ => ⟨internal, doing ++ ": " ++ e.message⟩

end Failure

end Switchboard
