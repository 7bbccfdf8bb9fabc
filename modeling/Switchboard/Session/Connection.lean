import Switchboard.Link.Network
import Switchboard.Store
import Switchboard.Wire.Error

/-!
# Session/Connection — connections and their reply queues

A connection is what the requests of one peer share: an identity, an encoding of bodies, values, a
name once it is online, and a queue of replies.  Replies are queued in bounded queues and written
by somebody else; a datagram socket has one queue for all its connections, so a reply there carries
its receiver.
-/

namespace Switchboard

/-- A packed reply waiting to be written. -/
structure Reply where
  /-- The block. -/
  block : Bytes
  /-- Who it goes to, where the queue has many receivers. -/
  receiver : Option String
deriving Repr, DecidableEq

/-- A bounded first-in first-out queue of replies. -/
structure ReplyQueue where
  /-- How many replies it can hold. -/
  capacity : Nat
  /-- The replies waiting, oldest first. -/
  replies : List Reply
  /-- Is somebody still taking replies out? -/
  hasReader : Bool
deriving Repr, DecidableEq, Inhabited

/-- What became of a reply offered to a queue. -/
inductive Offer where
  /-- It was queued. -/
  | taken
  /-- There is no room for it. -/
  | full
  /-- Nobody takes replies any more. -/
  | gone
deriving Repr, DecidableEq

namespace ReplyQueue

/-- A queue that holds nothing yet. -/
def ofCapacity (capacity : Nat) : ReplyQueue := ⟨capacity, [], true⟩

/-- Offers a reply; it is queued at the end or not at all. -/
def offer (q : ReplyQueue) (r : Reply) : Offer × ReplyQueue :=
  if !q.hasReader then (.gone, q)
  else if q.capacity ≤ q.replies.length then (.full, q)
  else (.taken, { q with replies := q.replies ++ [r] })

/-- Takes the oldest reply out. -/
def take? (q : ReplyQueue) : Option (Reply × ReplyQueue) :=
  match q.replies with
  | [] => none
  | r :: rest => some (r, { q with replies := rest })

/-- The queue once nobody takes replies out; those waiting are lost. -/
def abandon (q : ReplyQueue) : ReplyQueue := { q with replies := [], hasReader := false }

end ReplyQueue

/-- How far the authentication of a connection has come. -/
inductive AuthState where
  | pending
  | passed
  | denied
deriving Repr, DecidableEq, Inhabited

/-- The name of a state. -/
def AuthState.title : AuthState → String
  | pending => "Pending"
  | passed => "Passed"
  | denied => "Denied"

/-- All states. -/
def AuthState.all : List AuthState := [pending, passed, denied]

/-- What the requests of one peer share. -/
structure Connection where
  /-- The number of the connection. -/
  id : Nat
  /-- The network it came over. -/
  network : Network
  /-- The peer's address. -/
  peer : String
  /-- The encoding of its bodies. -/
  marshaller : Marshaller
  /-- The queue its replies go to. -/
  queue : Nat
  /-- Does its queue have other receivers too? -/
  sharesQueue : Bool
  /-- May it be registered in the pool? -/
  pooled : Bool
  /-- The values its handlers keep. -/
  values : Store
  /-- The name it is registered under, or was. -/
  username : Option String
  /-- Has it been closed? -/
  closed : Bool
  /-- How far its authentication has come. -/
  auth : AuthState
  /-- How often the state of its authentication was set. -/
  authSettings : Nat
  /-- Has it sent a heartbeat that nobody took note of? -/
  heartbeat : Bool
deriving Inhabited

namespace Connection

/-- A connection just made. -/
def ofPeer (id : Nat) (network : Network) (peer : String) (marshaller : Marshaller)
    (queue : Nat) (sharesQueue pooled : Bool) : Connection :=
  ⟨id, network, peer, marshaller, queue, sharesQueue, pooled, .empty, none, false, .pending, 0,
    false⟩

/-- The receiver that a reply of the connection carries. -/
def receiver (c : Connection) : Option String := if c.sharesQueue then some c.peer else none

/-- The connection as people are shown it. -/
def display (c : Connection) : String :=
  "Connection \x7b id: " ++ toString c.id ++ ", network: " ++ c.network.title ++ ", peer: " ++
    Text.quoted c.peer ++ ", marshaller: " ++ c.marshaller.title ++ ", closed: " ++
    toString c.closed ++ ", .. \x7d"

end Connection

end Switchboard
