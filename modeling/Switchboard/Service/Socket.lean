import Switchboard.Bytes

/-!
# Service/Socket — the service's end of a stream

What the peer sends waits in `arrived` until it is read.  What the service writes is added to
`sent`, and the peer reads it from there in its own time; while too much waits for the peer the
service cannot write.  Either side can finish sending, and the peer can go away altogether.
-/

namespace Switchboard

/-- The service's end of a stream. -/
structure Socket where
  /-- What the peer sent and was not read. -/
  arrived : Bytes
  /-- Does the peer send nothing more? -/
  peerFinished : Bool
  /-- Has the peer gone away? -/
  peerGone : Bool
  /-- Everything written for the peer, oldest first. -/
  sent : Bytes
  /-- How many octets of it the peer has read. -/
  taken : Nat
  /-- Will the peer find the end after what was written? -/
  finished : Bool
  /-- Has the service let go of its end? -/
  released : Bool
deriving Repr, DecidableEq, Inhabited

namespace Socket

/-- A stream just opened. -/
def opened : Socket := ⟨[], false, false, [], 0, false, false⟩

/-- How many octets wait for the peer. -/
def waiting (s : Socket) : Nat := s.sent.length - s.taken

/-- Nothing can be written while so many octets wait for the peer. -/
def room : Nat := 212992

/-- How many octets are written at once at most. -/
def piece : Nat := 106432

/-- **Writes as much as there is room for** and returns what is left, in at most `budget` pieces. -/
def writeUpTo : Nat → Bytes → Socket → Bytes × Socket
  | 0, bs, s => (bs, s)
  | budget + 1, bs, s =>
    if bs = [] ∨ room ≤ s.waiting then (bs, s)
    else writeUpTo budget (bs.drop piece) { s with sent := s.sent ++ bs.take piece }

/-- Writes as much as there is room for and returns what is left. -/
def write (bs : Bytes) (s : Socket) : Bytes × Socket := writeUpTo (bs.length / piece + 1) bs s

/-- What is written is what was there, up to what is left. -/
theorem sent_writeUpTo (budget : Nat) (bs : Bytes) (s : Socket) :
    (writeUpTo budget bs s).2.sent ++ (writeUpTo budget bs s).1 = s.sent ++ bs := by
  induction budget generalizing bs s with
  | zero => rfl
  | succ budget ih =>
    unfold writeUpTo
    split
    · rfl
    · rw [ih]
      simp only [List.append_assoc, List.take_append_drop]

/-- **Nothing is lost by writing.** -/
theorem sent_write (bs : Bytes) (s : Socket) :
    (write bs s).2.sent ++ (write bs s).1 = s.sent ++ bs :=
  sent_writeUpTo _ bs s

/-- Lets go of the service's end; the peer will find the end after what was written. -/
def release (s : Socket) : Socket := { s with finished := true, released := true, arrived := [] }

/-- The peer sends octets, unless it cannot. -/
def receive (bs : Bytes) (s : Socket) : Bool × Socket :=
  if s.peerFinished || s.peerGone || s.released then (false, s)
  else (true, { s with arrived := s.arrived ++ bs })

/-- The peer finishes sending. -/
def finishPeer (s : Socket) : Socket := { s with peerFinished := true }

/-- The peer goes away. -/
def losePeer (s : Socket) : Socket := { s with peerFinished := true, peerGone := true }

/-- The peer reads everything that waits for it. -/
def readByPeer (s : Socket) : Bytes × Socket :=
  (s.sent.drop s.taken, { s with taken := s.sent.length })

end Socket

end Switchboard
