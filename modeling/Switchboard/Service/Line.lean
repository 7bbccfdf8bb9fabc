import Switchboard.Service.Exchange
import Switchboard.Service.Intake
import Switchboard.Service.Outlet
import Switchboard.Service.Watch

/-!
# Service/Line — serving one stream connection

A line joins the stream of a peer to a connection: an intake reads blocks from it, an outlet writes
replies to it, and watches may close it.  A line is greeted first, which runs the hook and sets up
the watches; then it reads, watches and writes until its connection is closed; when the outlet has
ended too, the connection leaves the pool and the stream is let go of.

Each of these is a function of the line and of what all lines share, so that the steps of
different lines can come in any order.
-/

namespace Switchboard

/-- How far a line has come. -/
inductive Line.Stage where
  /-- The connection was accepted. -/
  | accepted
  /-- It is served. -/
  | served
  /-- It has left the pool. -/
  | left
  /-- It is over. -/
  | over
deriving Repr, DecidableEq, Inhabited

/-- A stream connection being served. -/
structure Line where
  /-- The place of the connection. -/
  place : Place
  /-- How far it has come. -/
  stage : Line.Stage
  /-- The stream. -/
  socket : Socket
  /-- What is read from the peer, as long as something is. -/
  intake : Option Intake
  /-- What is written to the peer. -/
  outlet : Outlet
  /-- The watch for heartbeats. -/
  heartbeat : Option HeartbeatWatch
  /-- The watch over authentication. -/
  auth : Option AuthWatch
  /-- How many signals to close there had been when it was set up, if it obeys them. -/
  signal : Option Nat
deriving Inhabited

namespace Line

/-- **Accepts a stream**: the connection gets its number. -/
def accept (network : Network) (peer : String) (x : Exchange) : Line × Exchange :=
  let s := x.plan.settings
  let (q, x) := x.addQueue
  let (place, x) := x.enroll network peer q false
  (⟨place, .accepted, .opened, some (.start s.maxFrame s.maxFollowers), .start s.maxFrame, none,
    none, none⟩, x)

/-- Is the connection closed? -/
def isClosed (l : Line) (x : Exchange) : Bool := (x.connection l.place).closed

/-- Runs the hook for connections that open. -/
def runOpeningHook (l : Line) (x : Exchange) : Exchange :=
  match x.plan.hooks.opening with
  | some .note => x.note (.opened (x.connection l.place).id (x.connection l.place).network)
  | some .close => x.close l.place
  | some .breakDown | none => x

/-- The line with its watches set up. -/
def setWatches (l : Line) (x : Exchange) : Line :=
  { l with
    stage := .served
    heartbeat := x.plan.heartbeat.map fun rule => .start rule x.clock
    auth := x.plan.auth.map fun rule => .start rule x.clock
    signal := if x.plan.settings.closesBySignal then some x.signals else none }

/-- **Greets the peer**: the hook runs, then the watches are set up. -/
def greet (l : Line) (x : Exchange) : Line × Exchange :=
  match l.stage with
  | .accepted =>
    let x := l.runOpeningHook x
    (l.setWatches x, x)
  | _ => (l, x)

/-- Ends reading and closes the connection. -/
def endReading (l : Line) (x : Exchange) : Line × Exchange :=
  ({ l with intake := none }, x.close l.place)

/-- Takes in what has arrived; a fault or the end of input closes the connection. -/
def takeIn (l : Line) (i : Intake) (x : Exchange) : Line × Exchange :=
  let (blocks, next) := i.feed l.socket.arrived
  let l := { l with socket := { l.socket with arrived := [] } }
  let x := x.dispatch l.place blocks
  match next with
  | .error _ => l.endReading x
  | .ok i =>
    if l.socket.peerFinished then l.endReading x else ({ l with intake := some i }, x)

/-- **Reads what has arrived** and dispatches it, unless the connection is closed. -/
def read (l : Line) (x : Exchange) : Line × Exchange :=
  match l.stage, l.intake with
  | .served, some i =>
    if l.isClosed x then ({ l with intake := none }, x) else l.takeIn i x
  | _, _ => (l, x)

/-! ## Watches -/

/-- Looks at the heartbeats: one that was noted starts the watch over. -/
def watchHeartbeat (l : Line) (x : Exchange) : Line × Exchange :=
  match l.heartbeat, x.plan.heartbeat with
  | some w, some rule =>
    if l.isClosed x then ({ l with heartbeat := none }, x)
    else if (x.connection l.place).heartbeat then
      ({ l with heartbeat := some (.start rule x.clock) },
        x.withHub (x.hub.modify l.place fun c => { c with heartbeat := false }))
    else
      match w.pass rule x.clock with
      | .ok w => ({ l with heartbeat := some w }, x)
      | .error _ => ({ l with heartbeat := none }, x.close l.place)
  | _, _ => (l, x)

/-- Tells the peer that it is denied, if it is to be told, and closes the connection. -/
def reject (rule : AuthRule) (l : Line) (x : Exchange) : Exchange :=
  let hub := match rule.denial with
    | some text => (x.hub.reply l.place rule.messageId (.string text) []).2
    | none => x.hub
  x.withHub (hub.close l.place)

/-- Looks at the authentication. -/
def watchAuth (l : Line) (x : Exchange) : Line × Exchange :=
  match l.auth, x.plan.auth with
  | some w, some rule =>
    if l.isClosed x then ({ l with auth := none }, x)
    else
      match w.look x.clock (x.connection l.place).auth with
      | .undecided => (l, x)
      | .passed => ({ l with auth := none }, x)
      | .rejected => ({ l with auth := none }, l.reject rule x)
  | _, _ => (l, x)

/-- Obeys a signal to close that came after the watch was set up. -/
def watchSignal (l : Line) (x : Exchange) : Line × Exchange :=
  match l.signal with
  | some n => if n < x.signals then ({ l with signal := none }, x.close l.place) else (l, x)
  | none => (l, x)

/-- **Looks at everything the line is watched for.** -/
def watch (l : Line) (x : Exchange) : Line × Exchange :=
  let (l, x) := l.watchHeartbeat x
  let (l, x) := l.watchAuth x
  l.watchSignal x

/-! ## Writing and ending -/

/-- **Writes what can be written.**  Once the outlet has ended nobody takes replies any more. -/
def write (l : Line) (x : Exchange) : Line × Exchange :=
  let (outlet, c) := l.outlet.proceed x.clock l.place ⟨x.hub, l.socket⟩
  let hub := if outlet.phase = .ended then c.hub.abandonQueue l.place else c.hub
  ({ l with outlet := outlet, socket := c.socket }, x.withHub hub)

/-- **Leaves the pool**, once nothing is read any more and the outlet has ended. -/
def leave (l : Line) (x : Exchange) : Line × Exchange :=
  if l.stage = .served ∧ l.intake = none ∧ l.outlet.phase = .ended then
    ({ l with stage := .left }, x.withHub (x.hub.forget l.place))
  else (l, x)

/-- Runs the hook for connections that close and lets go of the stream, once the connection has left
the pool. -/
def depart (l : Line) (x : Exchange) : Line × Exchange :=
  if l.stage = .left ∧ l.intake = none then
    let c := x.connection l.place
    let x := if x.plan.hooks.closing then x.note (.closed c.id c.closed c.username) else x
    ({ l with
      stage := .over, socket := l.socket.release, heartbeat := none, auth := none, signal := none },
      x)
  else (l, x)

/-- **Ends a line** that reads no more and whose outlet has ended. -/
def finish (l : Line) (x : Exchange) : Line × Exchange :=
  let (l, x) := l.leave x
  l.depart x

/-- Does something happen to the line at this time of its own accord? -/
def isDue (l : Line) (now : Nat) : Bool :=
  l.heartbeat.any (·.due ≤ now) || l.auth.any (·.deadline ≤ now) || l.outlet.isDue now

end Line

end Switchboard
