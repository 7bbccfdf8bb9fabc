import Switchboard.Session.Connection
import Switchboard.Wire.Packer

/-!
# Session/Hub — all connections, their queues and the client pool

The hub holds what handlers on different connections can reach of each other.  A connection is
known by its place in the hub, which never changes; the pool maps user names to places.

A newer registration of a name replaces the older one without closing it, and the replaced
connection keeps the name in mind.  A connection registers again under another name by giving up
its entry, if the entry is still its own.  Whether an entry is a connection's own is told by the
connection's number.

Entries are read and changed under a lock, which is not held for what is done to a connection after
its entry was removed.  So each operation of the pool is put together from steps (`evict`, `giveUp`,
`enter`, `removeEntry`, `setName`, `close`), between which other operations may come.
-/

namespace Switchboard

/-- Why an operation on a connection fails. -/
inductive SessionError where
  /-- The connection has no pool to register in. -/
  | poolDisabled
  /-- Nobody is online under this name. -/
  | unknownUser (user : String)
  /-- The connection with this number is closed. -/
  | closed (id : Nat)
  /-- The queue of the connection with this number is full. -/
  | queueFull (id : Nat)
  /-- A block cannot be packed or read. -/
  | wire (e : WireError)
deriving Repr, DecidableEq

/-- The text people are shown. -/
def SessionError.message : SessionError → String
  | poolDisabled => "client pool is not enabled"
  | unknownUser user => "user '" ++ user ++ "' is not online"
  | closed id => "connection " ++ toString id ++ " is closed"
  | queueFull id => "connection " ++ toString id ++ " reply queue is full"
  | wire e => e.message

/-- The place of a connection in the hub. -/
abbrev Place := Nat

/-- Connections by user name. -/
abbrev Pool := KeyMap Place

/-- All connections, their queues and the pool. -/
structure Hub where
  /-- The connections, by place. -/
  connections : List Connection
  /-- The reply queues, by number. -/
  queues : List ReplyQueue
  /-- The pool, while there is one. -/
  pool : Option Pool
deriving Inhabited

namespace Hub

/-- The hub without connections, with or without a pool. -/
def empty (withPool : Bool) : Hub := ⟨[], [], if withPool then some .empty else none⟩

/-! ## Connections and queues -/

/-- The connection at a place. -/
def connection (hub : Hub) (c : Place) : Connection := hub.connections.getD c default

/-- The hub with one connection changed. -/
def modify (hub : Hub) (c : Place) (f : Connection → Connection) : Hub :=
  { hub with connections := hub.connections.modify c f }

/-- The queue with a number. -/
def queue (hub : Hub) (q : Nat) : ReplyQueue := hub.queues.getD q default

/-- The hub with one queue changed. -/
def modifyQueue (hub : Hub) (q : Nat) (f : ReplyQueue → ReplyQueue) : Hub :=
  { hub with queues := hub.queues.modify q f }

/-- Adds a queue and returns its number. -/
def addQueue (hub : Hub) (capacity : Nat) : Nat × Hub :=
  (hub.queues.length, { hub with queues := hub.queues ++ [ReplyQueue.ofCapacity capacity] })

/-- Adds a connection and returns its place. -/
def addConnection (hub : Hub) (c : Connection) : Place × Hub :=
  (hub.connections.length, { hub with connections := hub.connections ++ [c] })

/-- Takes the oldest reply out of the queue of a connection. -/
def takeReply (hub : Hub) (c : Place) : Option (Reply × Hub) :=
  let q := (hub.connection c).queue
  (hub.queue q).take?.map fun (r, rest) => (r, hub.modifyQueue q fun _ => rest)

/-- Nobody takes replies out of the queue of a connection any more. -/
def abandonQueue (hub : Hub) (c : Place) : Hub :=
  hub.modifyQueue (hub.connection c).queue ReplyQueue.abandon

/-- Closes a connection; what is queued stays queued. -/
def close (hub : Hub) (c : Place) : Hub := hub.modify c fun conn => { conn with closed := true }

/-- **Queues a packed block.**  A full queue means that the peer stopped reading: the block is
dropped and the connection closed. -/
def send (hub : Hub) (c : Place) (block : Bytes) : Except SessionError Unit × Hub :=
  let conn := hub.connection c
  if conn.closed then (.error (.closed conn.id), hub)
  else
    match (hub.queue conn.queue).offer ⟨block, conn.receiver⟩ with
    | (.taken, q) => (.ok (), hub.modifyQueue conn.queue fun _ => q)
    | (.gone, _) => (.error (.closed conn.id), hub)
    | (.full, _) => (.error (.queueFull conn.id), hub.close c)

/-- Queues a block as it was packed, if it could be packed. -/
def sendPacked (hub : Hub) (c : Place) (packed : Except WireError Bytes) :
    Except SessionError Unit × Hub :=
  match packed with
  | .error e => (.error (.wire e), hub)
  | .ok block => hub.send c block

/-- Packs a body in the connection's encoding and queues the block. -/
def reply (hub : Hub) (c : Place) (id : Int32) (body : Json) (headers : List Header) :
    Except SessionError Unit × Hub :=
  hub.sendPacked c (Packer.pack ⟨(hub.connection c).marshaller⟩ id body headers)

/-- Notes the outcome of an authentication. -/
def setAuth (hub : Hub) (c : Place) (state : AuthState) : Hub :=
  hub.modify c fun conn => { conn with auth := state, authSettings := conn.authSettings + 1 }

/-- Notes a heartbeat. -/
def noteHeartbeat (hub : Hub) (c : Place) : Hub :=
  hub.modify c fun conn => { conn with heartbeat := true }

/-! ## The pool -/

/-- Do two places hold connections of the same number? -/
def sameConnection (hub : Hub) (c d : Place) : Bool :=
  (hub.connection c).id = (hub.connection d).id

/-- Is the entry under this name the connection's own? -/
def owns (hub : Hub) (pool : Pool) (c : Place) (user : String) : Bool :=
  match pool.get? user with
  | some d => hub.sameConnection d c
  | none => false

/-- The connection online under a name. -/
def onlineAt (hub : Hub) (user : String) : Option Place :=
  hub.pool.bind fun pool => pool.get? user

/-- **Removes the entry under a name, if it is the connection's own.** -/
def evict (hub : Hub) (user : String) (c : Place) : Hub :=
  match hub.pool with
  | some pool => if hub.owns pool c user then { hub with pool := some (pool.erase user) } else hub
  | none => hub

/-- Gives up the entry under the name a connection has in mind, unless it keeps the name. -/
def giveUp (hub : Hub) (user : String) (c : Place) : Hub :=
  match (hub.connection c).username with
  | some previous => if previous ≠ user then hub.evict previous c else hub
  | none => hub

/-- The connection has the name in mind. -/
def setName (hub : Hub) (name : Option String) (c : Place) : Hub :=
  hub.modify c fun conn => { conn with username := name }

/-- Puts a connection under a name, which it has in mind then. -/
def enter (hub : Hub) (user : String) (c : Place) : Hub :=
  let hub := hub.setName (some user) c
  { hub with pool := hub.pool.map fun (pool : Pool) => pool.insert user c }

/-- **Registers a connection under a name**, giving up the entry under its previous one.  Nobody
else changes entries in between. -/
def online (hub : Hub) (user : String) (c : Place) : Hub :=
  match hub.pool with
  | none => hub
  | some _ => (hub.giveUp user c).enter user c

/-- Removes the entry under a name and returns whose it was. -/
def removeEntry (hub : Hub) (user : String) : Option Place × Hub :=
  match hub.onlineAt user with
  | none => (none, hub)
  | some c => (some c, { hub with pool := hub.pool.map fun (pool : Pool) => pool.erase user })

/-- **Removes an entry, and then closes its connection**, whichever that is.  Between these, and
before the connection forgets its name, others may do anything. -/
def offline (hub : Hub) (user : String) : Option Place × Hub :=
  match hub.removeEntry user with
  | (none, hub) => (none, hub)
  | (some c, hub) => (some c, (hub.setName none c).close c)

/-- Queues a packed block for whoever is online under a name. -/
def sendTo (hub : Hub) (user : String) (block : Bytes) : Except SessionError Unit × Hub :=
  match hub.onlineAt user with
  | some c => hub.send c block
  | none => (.error (.unknownUser user), hub)

/-- Removes the entry of a connection that goes away, if the entry is still its own. -/
def forget (hub : Hub) (c : Place) : Hub :=
  match (hub.connection c).username with
  | some user => hub.evict user c
  | none => hub

/-- Closes every connection in the pool. -/
def closeAll (hub : Hub) : Hub :=
  match hub.pool with
  | none => hub
  | some pool => pool.entries.foldl (fun hub e => hub.close e.2) hub

/-- The names online, in order. -/
def users (hub : Hub) : List String := (hub.pool.map KeyMap.keys).getD []

/-- Can the connection reach the pool? -/
def reachesPool (hub : Hub) (c : Place) : Bool := (hub.connection c).pooled && hub.pool.isSome

end Hub

end Switchboard
