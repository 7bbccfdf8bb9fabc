import Switchboard.Service.Error

/-!
# Service/Lifecycle — starting and stopping the listeners of a service

A service remembers its listeners across stop and start.  Stopping tells every listener to end; a
listener that was told ends a little later and only then lets go of its address.  Starting
therefore takes time: it takes all remembered listeners, waits for each to end, and binds their
addresses again, one after another.  Between two of these steps anything else can happen, so a
start in progress is a value of its own, `Start`, and each step is a function of the state the
others have left: `beginStart`, `awaitEnd`, then for each address `record` or `giveUp`, and
`finish`.  A stop that comes in between wins: `finish` then tells all listeners to end.
-/

namespace Switchboard

/-- Whether a service serves. -/
inductive Phase where
  | stopped
  /-- A start is binding addresses again. -/
  | starting
  | running
deriving Repr, DecidableEq, Inhabited

/-- A listener as a service remembers it. -/
structure Listener where
  /-- Its number; every binding has a new one. -/
  serial : Nat
  /-- Its network. -/
  network : Network
  /-- The address it was bound to. -/
  address : String
deriving Repr, DecidableEq

/-- The listeners of a service and what became of them. -/
structure Lifecycle where
  /-- Whether the service serves. -/
  phase : Phase
  /-- The listeners remembered, in the order they were bound. -/
  cache : List Listener
  /-- The number of the next listener. -/
  fresh : Nat
  /-- The numbers of the listeners told to end. -/
  told : List Nat
  /-- The numbers of the listeners that have ended. -/
  ended : List Nat
deriving Repr, Inhabited

/-- A start in progress. -/
inductive Start where
  /-- It took the listeners `taken` and waits for those in `rest` to end. -/
  | waiting (taken rest : List Listener)
  /-- It binds the addresses of these listeners again. -/
  | binding (rest : List Listener)
deriving Repr, DecidableEq

/-- The listeners a start waits for. -/
def Start.awaited : Start → List Listener
  | waiting _ rest => rest
  | binding _ => []

namespace Lifecycle

/-- A service that never had a listener. -/
def initial : Lifecycle := ⟨.stopped, [], 0, [], []⟩

/-- Was the listener told to end? -/
def isTold (l : Lifecycle) (x : Listener) : Bool := l.told.contains x.serial

/-- Has the listener ended? -/
def hasEnded (l : Lifecycle) (x : Listener) : Bool := l.ended.contains x.serial

/-- The remembered listeners that serve. -/
def live (l : Lifecycle) : List Listener := l.cache.filter fun x => !l.isTold x

/-- Tells listeners to end. -/
def tell (l : Lifecycle) (xs : List Listener) : Lifecycle :=
  { l with told := xs.map Listener.serial ++ l.told }

/-- Notes that a listener has ended. -/
def noteEnd (l : Lifecycle) (serial : Nat) : Lifecycle := { l with ended := serial :: l.ended }

/-- Remembers a listener just bound. -/
def record (l : Lifecycle) (network : Network) (address : String) : Listener × Lifecycle :=
  let x : Listener := ⟨l.fresh, network, address⟩
  (x, { l with cache := l.cache ++ [x], fresh := l.fresh + 1 })

/-- **Remembers a listener bound on demand**, which sets a stopped service running. -/
def spawned (l : Lifecycle) (network : Network) (address : String) : Listener × Lifecycle :=
  let (x, l) := l.record network address
  (x, if l.phase = .stopped then { l with phase := .running } else l)

/-- **Stops the service**: every remembered listener is told to end. -/
def stop (l : Lifecycle) : Except ServiceError Unit × Lifecycle :=
  if l.phase = .stopped then (.error .alreadyStopped, l)
  else (.ok (), { l.tell l.cache with phase := .stopped })

/-- **Begins a start**, which takes all remembered listeners. -/
def beginStart (l : Lifecycle) : Except ServiceError Start × Lifecycle :=
  match l.phase with
  | .running => (.error .alreadyRunning, l)
  | .starting => (.error .starting, l)
  | .stopped =>
    if l.cache = [] then (.error .noListeners, l)
    else
      (.ok (.waiting l.cache l.cache),
        { l.tell (l.cache.take 1) with phase := .starting, cache := [] })

/-- Goes on with a start that waits, unless the listener it waits for has not ended.  Each listener
is told to end when its turn comes. -/
def awaitEnd (l : Lifecycle) : Start → Option (Start × Lifecycle)
  | .waiting taken [] => some (.binding taken, l)
  | .waiting taken (x :: rest) =>
    if l.hasEnded x then some (.waiting taken rest, l.tell (rest.take 1)) else none
  | .binding _ => none

/-- Goes on with a start until it waits for a listener that has not ended, or waits no more. -/
def awaitEnds (l : Lifecycle) : Start → Start × Lifecycle
  | .binding rest => (.binding rest, l)
  | .waiting taken rest => go l taken rest
where
  /-- Passes over the listeners that have ended, up to the first that has not. -/
  go (l : Lifecycle) (taken : List Listener) : List Listener → Start × Lifecycle
    | [] => (.binding taken, l)
    | x :: rest =>
      match l.awaitEnd (.waiting taken (x :: rest)) with
      | some (_, l) => go l taken rest
      | none => (.waiting taken (x :: rest), l)

/-- Ends a start; `running` says whether anything serves.  A stop that came in between wins. -/
def finish (l : Lifecycle) (running : Bool) : Lifecycle :=
  match l.phase with
  | .starting => { l with phase := if running then .running else .stopped }
  | .stopped => l.tell l.cache
  | .running => l

/-- Ends a start that cannot bind an address: the listeners not bound again are remembered ahead of
all bound since, for the next start. -/
def giveUp (l : Lifecycle) (unbound : List Listener) : Lifecycle :=
  let l := { l with cache := unbound ++ l.cache }
  l.finish (l.live ≠ [])

end Lifecycle

end Switchboard
