import Switchboard.Wire.Block

/-!
# Service/Settings — how a service treats its connections

The limits of a service, the two rules by which it closes connections of its own accord, and what
it does when connections open and close.  Times are in milliseconds.
-/

namespace Switchboard

/-- The limits of a service. -/
structure Settings where
  /-- The encoding of bodies. -/
  marshaller : Marshaller
  /-- The largest length that a block may declare. -/
  maxFrame : Nat
  /-- How many further blocks the head of a pipeline may announce. -/
  maxFollowers : Nat
  /-- How many replies wait for one peer, or on one datagram socket. -/
  replyQueue : Nat
  /-- How many octets of a datagram are looked at. -/
  datagramBuffer : Nat
  /-- Is there a pool of users online? -/
  hasPool : Bool
  /-- Are all connections closed by one signal to all of them, rather than by way of the pool? -/
  closesBySignal : Bool
deriving Repr, DecidableEq, Inhabited

namespace Settings

/-- The settings of a service that was asked for nothing else. -/
def standard : Settings := ⟨.json, Block.defaultMax, 64, 1024, 65536, false, false⟩

/-- The capacity of a reply queue: there is room for one reply at least. -/
def queueCapacity (s : Settings) : Nat := max s.replyQueue 1

end Settings

/-- How a service watches for heartbeats. -/
structure HeartbeatRule where
  /-- How long it waits for one. -/
  interval : Nat
  /-- The message id of heartbeats. -/
  messageId : Int32
  /-- Do heartbeats pass through middleware? -/
  through : Bool
  /-- How often in a row it may wait in vain before the connection is closed. -/
  maxMisses : Nat
deriving Repr, DecidableEq

/-- The rule for heartbeats that was asked for nothing else. -/
def HeartbeatRule.standard : HeartbeatRule := ⟨10000, 1392, false, 3⟩

/-- How a service demands authentication. -/
structure AuthRule where
  /-- How long a peer has for it. -/
  patience : Nat
  /-- The message id of requests for authentication. -/
  messageId : Int32
  /-- Do these requests pass through middleware? -/
  through : Bool
  /-- What a peer is told before its connection is closed. -/
  denial : Option String
deriving Repr, DecidableEq

/-- The rule for authentication that was asked for nothing else. -/
def AuthRule.standard : AuthRule := ⟨10000, 1393, false, none⟩

/-- What is done when a connection opens. -/
inductive OpeningHook where
  /-- It is noted. -/
  | note
  /-- The hook breaks down, which does no harm. -/
  | breakDown
  /-- The connection is closed at once. -/
  | close
deriving Repr, DecidableEq

/-- What is done beside serving. -/
structure Hooks where
  /-- When a connection opens. -/
  opening : Option OpeningHook
  /-- Is it noted that a connection was closed? -/
  closing : Bool
  /-- How many things are done when the service shuts down. -/
  leaving : Nat
deriving Repr, DecidableEq, Inhabited

/-- Nothing is done. -/
def Hooks.none : Hooks := ⟨.none, false, 0⟩

end Switchboard
