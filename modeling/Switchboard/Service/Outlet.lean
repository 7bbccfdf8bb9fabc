import Switchboard.Service.Socket
import Switchboard.Session.Hub
import Switchboard.Stream.Sink

/-!
# Service/Outlet — writing queued replies to a stream

An outlet takes the replies of one connection out of their queue, oldest first, and writes them one
by one.  When it finds the queue empty it looks whether the connection is closed; if so, it gathers
what may have been queued in between, writes that, and ends the stream.  A peer that does not read
cannot hold it up for ever: a block that is being written when the connection is closed is given
`patience` to get through, and so are the replies gathered after it and the end of the stream.

`step` is one step of the outlet; it is none while there is nothing to do or the stream is full.
-/

namespace Switchboard

/-- What an outlet is doing. -/
inductive Outlet.Phase where
  /-- It is ready for the next reply. -/
  | ready
  /-- It writes what is left of a block, and gives up at a time if the connection was closed. -/
  | writing (left : Bytes) (until? : Option Nat)
  /-- It gathers what is still queued after the connection was closed. -/
  | gathering (held : Bytes) (deadline : Nat)
  /-- It writes what is left of the replies gathered, and gives up at a time. -/
  | flushing (left : Bytes) (deadline : Nat)
  /-- It writes what is left and ends the stream, and gives up at a time. -/
  | ending (left : Bytes) (deadline : Nat)
  /-- It has ended. -/
  | ended
deriving Repr, DecidableEq, Inhabited

/-- The writing side of a connection. -/
structure Outlet where
  /-- The largest length that a block may declare. -/
  maxFrame : Nat
  /-- What it is doing. -/
  phase : Outlet.Phase
deriving Repr, DecidableEq, Inhabited

namespace Outlet

/-- How long, in milliseconds, a peer that does not read can hold up the end. -/
def patience : Nat := 1000

/-- So many octets are gathered at least, if there are as many, before they are written. -/
def boundary : Nat := 8192

/-- An outlet that has written nothing. -/
def start (maxFrame : Nat) : Outlet := ⟨maxFrame, .ready⟩

/-- What an outlet moves replies between. -/
structure Channel where
  /-- The connections and their queues. -/
  hub : Hub
  /-- The stream. -/
  socket : Socket
deriving Inhabited

/-- The outlet as it begins to end the stream. -/
def beginEnd (o : Outlet) (now : Nat) (left : Bytes) : Outlet :=
  { o with phase := .ending left (now + patience) }

/-- A step of an outlet that found the queue empty: it looks whether the connection is closed. -/
def stepClosed (o : Outlet) (now : Nat) (place : Place) (c : Channel) :
    Option (Outlet × Channel) :=
  if (c.hub.connection place).closed then
    some ({ o with phase := .gathering [] (now + patience) }, c)
  else none

/-- A step of an outlet that is ready: it takes a reply, if there is one.  A block above the limit
closes the connection. -/
def stepReady (o : Outlet) (now : Nat) (place : Place) (c : Channel) : Option (Outlet × Channel) :=
  match c.hub.takeReply place with
  | some (reply, hub) =>
    if o.maxFrame < Sink.lengthOf reply.block then
      some (o.beginEnd now [], { c with hub := hub.close place })
    else some ({ o with phase := .writing reply.block none }, { c with hub := hub })
  | none => o.stepClosed now place c

/-- A step of an outlet that writes a block.  Once the connection is closed the time it has left is
counted. -/
def stepWriting (o : Outlet) (now : Nat) (place : Place) (c : Channel) (left : Bytes)
    (until? : Option Nat) : Option (Outlet × Channel) :=
  if c.socket.peerGone then some (o.beginEnd now left, { c with hub := c.hub.close place })
  else
    let (rest, socket) := c.socket.write left
    let c' : Channel := { c with socket := socket }
    let closed := (c.hub.connection place).closed
    if rest = [] then some ({ o with phase := .ready }, c')
    else if closed && until? = none then
      some ({ o with phase := .writing rest (some (now + patience)) }, c')
    else if closed && until?.any (· ≤ now) then some (o.beginEnd now rest, c')
    else if rest.length = left.length then none
    else some ({ o with phase := .writing rest until? }, c')

/-- A step of an outlet that gathers replies: it takes one until it holds enough or there is none.
A block above the limit ends the gathering. -/
def stepGathering (o : Outlet) (now : Nat) (place : Place) (c : Channel) (held : Bytes)
    (deadline : Nat) : Option (Outlet × Channel) :=
  match if held.length < boundary then c.hub.takeReply place else none with
  | some (reply, hub) =>
    if o.maxFrame < Sink.lengthOf reply.block then
      some (o.beginEnd now held, { c with hub := hub })
    else some ({ o with phase := .gathering (held ++ reply.block) deadline }, { c with hub := hub })
  | none =>
    if held = [] then some (o.beginEnd now [], c)
    else some ({ o with phase := .flushing held deadline }, c)

/-- A step of an outlet that writes what it gathered; when all is written it gathers again. -/
def stepFlushing (o : Outlet) (now : Nat) (c : Channel) (left : Bytes) (deadline : Nat) :
    Option (Outlet × Channel) :=
  if c.socket.peerGone then some (o.beginEnd now left, c)
  else
    let (rest, socket) := c.socket.write left
    let c' : Channel := { c with socket := socket }
    if rest = [] then some ({ o with phase := .gathering [] deadline }, c')
    else if deadline ≤ now then some (o.beginEnd now rest, c')
    else if rest.length = left.length then none
    else some ({ o with phase := .flushing rest deadline }, c')

/-- A step of an outlet that ends the stream. -/
def stepEnding (o : Outlet) (now : Nat) (c : Channel) (left : Bytes) (deadline : Nat) :
    Option (Outlet × Channel) :=
  if c.socket.peerGone then some ({ o with phase := .ended }, c)
  else
    let (rest, socket) := c.socket.write left
    if rest = [] then
      some ({ o with phase := .ended }, { c with socket := { socket with finished := true } })
    else if deadline ≤ now then some ({ o with phase := .ended }, { c with socket := socket })
    else if rest.length = left.length then none
    else some ({ o with phase := .ending rest deadline }, { c with socket := socket })

/-- **One step of an outlet**, if there is something to do. -/
def step (o : Outlet) (now : Nat) (place : Place) (c : Channel) : Option (Outlet × Channel) :=
  match o.phase with
  | .ready => o.stepReady now place c
  | .writing left until? => o.stepWriting now place c left until?
  | .gathering held deadline => o.stepGathering now place c held deadline
  | .flushing left deadline => o.stepFlushing now c left deadline
  | .ending left deadline => o.stepEnding now c left deadline
  | .ended => none

/-- Steps until there is nothing to do, at most so often. -/
def run (budget : Nat) (o : Outlet) (now : Nat) (place : Place) (c : Channel) : Outlet × Channel :=
  match budget with
  | 0 => (o, c)
  | budget + 1 =>
    match o.step now place c with
    | none => (o, c)
    | some (o, c) => run budget o now place c

/-- How many steps there can be: three for each reply, and those that end the stream. -/
def budgetOf (place : Place) (c : Channel) : Nat :=
  3 * (c.hub.queue (c.hub.connection place).queue).replies.length + 8

/-- Steps until there is nothing to do. -/
def proceed (o : Outlet) (now : Nat) (place : Place) (c : Channel) : Outlet × Channel :=
  o.run (budgetOf place c) now place c

/-- Will the outlet give up at this time or before? -/
def isDue (o : Outlet) (now : Nat) : Bool :=
  match o.phase with
  | .writing _ (some t) => t ≤ now
  | .flushing _ t => t ≤ now
  | .ending _ t => t ≤ now
  | _ => false

end Outlet

end Switchboard
