import Switchboard.Service.Exchange

/-!
# Service/Datagram — serving a datagram socket

Every datagram is a request of its own: the block in front of it is dispatched on a connection that
is made for it, which has no pool to register in.  Octets beyond the block are ignored, and a
datagram without a block is dropped without using up a number.  All datagrams are read into one
buffer, one after another; octets that do not fit are lost.  Replies to all of them wait in one
queue, each with its receiver, and leave in the order they were queued.
-/

namespace Switchboard

/-- A datagram on its way to a peer. -/
structure Letter where
  /-- The socket it leaves from. -/
  sender : Nat
  /-- The address it goes to. -/
  receiver : String
  /-- Its octets. -/
  octets : Bytes
deriving Repr, DecidableEq

namespace Datagram

/-- The largest datagram that can be sent. -/
def maxSize : Nat := 65507

/-- The block in front of what was read of a datagram. -/
def block? (received : Bytes) : Option Bytes := (Block.trim received).toOption

/-- **Takes in what was read of a datagram**: it is dispatched on a connection of its own, or
dropped. -/
def receive (network : Network) (queue : Nat) (peer : String) (received : Bytes) (x : Exchange) :
    Exchange :=
  match block? received with
  | none => x
  | some block =>
    let (place, x) := x.enroll network peer queue true
    x.dispatch place [block]

/-- The letter for a reply, unless it is too large to be sent. -/
def letter? (sender : Nat) (r : Reply) : Option Letter :=
  if r.block.length ≤ maxSize then some ⟨sender, r.receiver.getD "", r.block⟩ else none

/-- **Sends the oldest reply** of those that are queued. -/
def send (sender queue : Nat) (x : Exchange) : Option Letter × Exchange :=
  match (x.hub.queue queue).take? with
  | none => (none, x)
  | some (r, rest) => (letter? sender r, x.withHub (x.hub.modifyQueue queue fun _ => rest))

end Datagram

/-- What a datagram socket reads into and writes from. -/
structure Mailbox where
  /-- The queue of the replies to all its requests. -/
  queue : Nat
  /-- The buffer; behind what was read last there are octets of earlier datagrams. -/
  buffer : Bytes
deriving Repr, DecidableEq

namespace Mailbox

/-- The mailbox of a socket just bound, with room for so many octets. -/
def ofSize (queue size : Nat) : Mailbox := ⟨queue, List.replicate size 0⟩

/-- **Reads a datagram** into the front of the buffer, and returns how many octets fit. -/
def read (m : Mailbox) (datagram : Bytes) : Nat × Mailbox :=
  (min datagram.length m.buffer.length,
    { m with buffer := datagram.take m.buffer.length ++ m.buffer.drop datagram.length })

/-- **Reads a datagram and takes it in.** -/
def receive (m : Mailbox) (network : Network) (peer : String) (datagram : Bytes) (x : Exchange) :
    Mailbox × Exchange :=
  let (n, m) := m.read datagram
  (m, Datagram.receive network m.queue peer (m.buffer.take n) x)

end Mailbox

end Switchboard
