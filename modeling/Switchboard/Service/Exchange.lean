import Switchboard.Service.Error
import Switchboard.Service.Plan
import Switchboard.Session.Run

/-!
# Service/Exchange — what all connections of a service share

The exchange holds the plan of the service, the connections with what their handlers read and
change, the requests that were dispatched, and the log.  Requests run one after another in the
order they were dispatched (`runRequests`); a handler that breaks down costs its connection and
nothing else.
-/

namespace Switchboard

/-- An entry of the log of a service. -/
inductive Event where
  /-- A handler logged something. -/
  | handled (entry : Entry)
  /-- A connection opened. -/
  | opened (id : Nat) (network : Network)
  /-- A connection was closed. -/
  | closed (id : Nat) (isClosed : Bool) (user : Option String)
  /-- The service is between stop and start. -/
  | restarting
  /-- The service shut down. -/
  | leaving
  /-- A call that was to serve until it is stopped came to an end. -/
  | served (result : Except ServiceError Unit)
deriving Inhabited

/-- What all connections of a service share. -/
structure Exchange where
  /-- What never changes. -/
  plan : Plan
  /-- The connections and what handlers read and change. -/
  desk : Desk
  /-- The time in milliseconds. -/
  clock : Nat
  /-- How often all connections were told to close. -/
  signals : Nat
  /-- The number of the next connection. -/
  nextId : Nat
  /-- The requests that were dispatched and have not run, oldest first. -/
  requests : List (Place × Bytes)
  /-- The log, newest first. -/
  log : List Event
deriving Inhabited

namespace Exchange

/-- The exchange of a service that has not served. -/
def ofPlan (plan : Plan) : Exchange :=
  ⟨plan, ⟨.empty plan.settings.hasPool, [], []⟩, 0, 0, 1, [], []⟩

/-- The connections, queues and the pool. -/
def hub (x : Exchange) : Hub := x.desk.hub

/-- The exchange with another hub. -/
def withHub (x : Exchange) (hub : Hub) : Exchange := { x with desk := { x.desk with hub := hub } }

/-- The connection at a place. -/
def connection (x : Exchange) (place : Place) : Connection := x.hub.connection place

/-- Adds an entry to the log. -/
def note (x : Exchange) (e : Event) : Exchange := { x with log := e :: x.log }

/-- Closes a connection. -/
def close (x : Exchange) (place : Place) : Exchange := x.withHub (x.hub.close place)

/-- Adds a reply queue and returns its number. -/
def addQueue (x : Exchange) : Nat × Exchange :=
  let (q, hub) := x.hub.addQueue x.plan.settings.queueCapacity
  (q, x.withHub hub)

/-- **Adds a connection** with the next number and returns its place. -/
def enroll (x : Exchange) (network : Network) (peer : String) (queue : Nat)
    (sharesQueue : Bool) : Place × Exchange :=
  let c := Connection.ofPeer x.nextId network peer x.plan.settings.marshaller queue sharesQueue
    (!sharesQueue)
  let (place, hub) := x.hub.addConnection c
  (place, { x.withHub hub with nextId := x.nextId + 1 })

/-- **Dispatches blocks** that came over a connection. -/
def dispatch (x : Exchange) (place : Place) (blocks : List Bytes) : Exchange :=
  { x with requests := x.requests ++ blocks.map fun b => (place, b) }

/-- **Runs one request** and says whether its handler broke down. -/
def runRequest (x : Exchange) (place : Place) (block : Bytes) : Bool × Exchange :=
  let (outcome, desk) := ({ x.desk with log := [] } : Desk).dispatch x.plan.router place block
  (decide (outcome = .brokeDown),
    { x with
      desk := { desk with log := [] }
      log := desk.log.map .handled ++ x.log })

/-- Runs requests in order and returns where a handler broke down. -/
def runAll (x : Exchange) : List (Place × Bytes) → List Place × Exchange
  | [] => ([], x)
  | (place, block) :: rest =>
    let (broken, x) := x.runRequest place block
    let (places, x) := x.runAll rest
    (if broken then place :: places else places, x)

/-- **Runs every request dispatched so far**, in order.  Connections whose handler broke down are
closed afterwards. -/
def runRequests (x : Exchange) : Exchange :=
  let (broken, x) := ({ x with requests := [] } : Exchange).runAll x.requests
  broken.foldl close x

/-- Tells all connections to close: by signal, or those in the pool. -/
def closeAll (x : Exchange) : Exchange :=
  if x.plan.settings.closesBySignal then { x with signals := x.signals + 1 }
  else x.withHub x.hub.closeAll

end Exchange

end Switchboard
