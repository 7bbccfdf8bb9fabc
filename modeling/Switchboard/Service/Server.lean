import Switchboard.Link.Host
import Switchboard.Service.Datagram
import Switchboard.Service.Lifecycle
import Switchboard.Service.Line

/-!
# Service/Server — a service as a whole

A service has listeners that are started and stopped (`Lifecycle`), lines for the streams that were
accepted (`Line`), and what all of them share (`Exchange`), on a machine (`Host`).

Whatever is asked of a service or happens to it from outside changes the state at once, and
`settle` then lets everything come to rest.  Time passes a millisecond at a time (`tick`), and what
becomes due in it is done before the next.
-/

namespace Switchboard

/-- A listener while it holds its address. -/
structure Loop where
  /-- The listener. -/
  listener : Listener
  /-- What it is bound to. -/
  binding : Binding
  /-- Does somebody wait for its end? -/
  isAwaited : Bool
  /-- What a datagram socket reads into and writes from. -/
  mailbox : Option Mailbox

/-- A service. -/
structure Service where
  /-- The machine it runs on. -/
  host : Host
  /-- Its listeners, bound or not. -/
  life : Lifecycle
  /-- Its listeners that hold an address. -/
  loops : List Loop
  /-- What its connections share. -/
  exchange : Exchange
  /-- The streams it has accepted. -/
  lines : List Line
  /-- The datagrams it has sent, oldest first. -/
  letters : List Letter
deriving Inhabited

namespace Service

/-- A service that has not been started. -/
def ofPlan (plan : Plan) (host : Host) : Service := ⟨host, .initial, [], .ofPlan plan, [], []⟩

/-- The service with its exchange changed. -/
def onExchange (s : Service) (f : Exchange → Exchange) : Service :=
  { s with exchange := f s.exchange }

/-! ## Coming to rest -/

/-- Changes every line in turn, together with what they share. -/
def eachLine (f : Line → Exchange → Line × Exchange) (s : Service) : Service :=
  let rec go : List Line → Exchange → List Line × Exchange
    | [], x => ([], x)
    | l :: rest, x =>
      let (l, x) := f l x
      let (rest, x) := go rest x
      (l :: rest, x)
  let (lines, x) := go s.lines s.exchange
  { s with lines := lines, exchange := x }

/-- The listener with a number, while it holds its address. -/
def loop? (s : Service) (serial : Nat) : Option Loop :=
  s.loops.find? fun loop => loop.listener.serial = serial

/-- **Ends one listener, if it was told to end**: it lets go of its address, and nobody takes
replies out of its queue any more. -/
def endLoop (s : Service) (loop : Loop) : Service :=
  if s.life.isTold loop.listener then
    let x := match loop.mailbox with
      | some m => s.exchange.withHub (s.exchange.hub.modifyQueue m.queue ReplyQueue.abandon)
      | none => s.exchange
    { s with
      host := s.host.release loop.binding
      life := s.life.noteEnd loop.listener.serial
      loops := s.loops.filter fun other => other.listener.serial ≠ loop.listener.serial
      exchange := if loop.isAwaited then x.note (.served (.ok ())) else x }
  else s

/-- Ends the listeners that were told to end. -/
def endLoops (s : Service) : Service := s.loops.foldl endLoop s

/-- Sends the oldest reply that is queued on a socket. -/
def sendLetter (s : Service) (loop : Loop) : Service :=
  match loop.mailbox with
  | some m =>
    let (letter, x) := Datagram.send loop.listener.serial m.queue s.exchange
    { s with letters := s.letters ++ letter.toList, exchange := x }
  | none => s

/-- **Sends all that is queued** on a socket. -/
def sendLetters (s : Service) (loop : Loop) : Service :=
  match loop.mailbox with
  | some m => (s.exchange.hub.queue m.queue).replies.length.repeat (sendLetter · loop) s
  | none => s

/-- Everything takes one turn: listeners end, lines are greeted and read, requests run, watches
look, replies are written, and lines end.  Handlers take their time: a connection that reading has
closed is torn down while its requests wait. -/
def turn (s : Service) : Service :=
  let s := s.endLoops.eachLine Line.greet |>.eachLine Line.read
  let s := s.eachLine Line.write |>.eachLine Line.leave
  let s := s.onExchange Exchange.runRequests |>.eachLine Line.watch |>.eachLine Line.write
  (s.loops.foldl sendLetters s).eachLine Line.finish

/-- How many turns it takes until everything is at rest: octets are taken in and answered in the
first, and a connection that was closed in the last step of it is over in the third. -/
def turns : Nat := 3

/-- **Lets everything come to rest.** -/
def settle (s : Service) : Service := turns.repeat turn s

/-- **Lets a millisecond pass.** -/
def tick (s : Service) : Service :=
  let s := s.onExchange fun x => { x with clock := x.clock + 1 }
  if s.lines.any fun l => l.isDue s.exchange.clock then s.settle else s

/-- Lets time pass. -/
def pass (milliseconds : Nat) (s : Service) : Service := milliseconds.repeat tick s

/-! ## Listening -/

/-- Binds an address. -/
def bind (s : Service) (network : Network) (address : String) :
    Except ServiceError Binding × Service :=
  let (r, host) := match network.kind with
    | .stream => s.host.listen network address
    | .datagram => s.host.bindDatagram network address
  (r.mapError .link, { s with host := host })

/-- A listener that was bound begins to serve. -/
def beginLoop (s : Service) (listener : Listener) (binding : Binding) (isAwaited : Bool) :
    Service :=
  let (mailbox, x) := match listener.network.kind with
    | .stream => (none, s.exchange)
    | .datagram =>
      let (q, x) := s.exchange.addQueue
      (some (Mailbox.ofSize q x.plan.settings.datagramBuffer), x)
  { s with loops := s.loops ++ [⟨listener, binding, isAwaited, mailbox⟩], exchange := x }

/-- **A listener on an address that was bound**: it is remembered and begins to serve.  A service
that was stopped runs then. -/
def serveOn (s : Service) (network : Network) (binding : Binding) (isAwaited : Bool) : Service :=
  let (listener, life) := s.life.spawned network binding.address
  ({ s with life := life } : Service).beginLoop listener binding isAwaited

/-- **Listens on an address** of a network given by its name, and returns the address it is bound
to. -/
def listen (s : Service) (network address : String) (isAwaited : Bool) :
    Except ServiceError Binding × Service :=
  match Network.parse network with
  | .error e => (.error (.link e), s)
  | .ok n =>
    match s.bind n address with
    | (.error e, s) => (.error e, s)
    | (.ok b, s) => (.ok b, s.serveOn n b isAwaited)

/-- Listens on an address; how that ends is noted in the log. -/
def listenAndServe (s : Service) (network address : String) :
    Except ServiceError Binding × Service :=
  match s.listen network address true with
  | (.error e, s) => (.error e, s.onExchange fun x => x.note (.served (.error e)))
  | r => r

/-! ## Starting and stopping -/

/-- **Stops the service**, and tells all connections to close if asked to. -/
def stop (s : Service) (closeAll : Bool) : Except ServiceError Unit × Service :=
  match s.life.stop with
  | (.error e, _) => (.error e, s)
  | (.ok (), life) =>
    let s := { s with life := life }
    (.ok (), if closeAll then s.onExchange Exchange.closeAll else s)

/-- What a start has come to. -/
inductive Attempt where
  /-- It waits. -/
  | waiting (start : Start)
  /-- It is over. -/
  | over (result : Except ServiceError Unit)

/-- Binds addresses again, one after another, up to the first that cannot be bound. -/
def rebind (s : Service) : List Listener → Except ServiceError Unit × Service
  | [] => (.ok (), { s with life := s.life.finish true })
  | old :: rest =>
    match s.bind old.network old.address with
    | (.error e, s) => (.error e, { s with life := s.life.giveUp (old :: rest) })
    | (.ok b, s) =>
      let (listener, life) := s.life.record old.network b.address
      rebind (({ s with life := life } : Service).beginLoop listener b false) rest

/-- Goes on with a start as far as it gets without waiting. -/
def pursue (s : Service) (start : Start) : Attempt × Service :=
  match s.life.awaitEnds start with
  | (.waiting taken rest, life) => (.waiting (.waiting taken rest), { s with life := life })
  | (.binding rest, life) =>
    let (r, s) := ({ s with life := life } : Service).rebind rest
    (.over r, s)

/-- **Begins a start** and goes on with it as far as it gets without waiting. -/
def beginStart (s : Service) : Attempt × Service :=
  match s.life.beginStart with
  | (.error e, _) => (.over (.error e), s)
  | (.ok start, life) => pursue { s with life := life } start

/-- Completes a start, letting listeners end at most so many times. -/
def completeWithin : Nat → Attempt → Service → Except ServiceError Unit × Service
  | _, .over r, s => (r, s)
  | 0, .waiting _, s => (.error .starting, s)
  | budget + 1, .waiting start, s =>
    let (attempt, s) := s.endLoops.pursue start
    completeWithin budget attempt s

/-- **Completes a start.**  Each time listeners are let end it gets past one of those it waits
for. -/
def complete (attempt : Attempt) (s : Service) : Except ServiceError Unit × Service :=
  match attempt with
  | .over r => (r, s)
  | .waiting start => completeWithin (start.awaited.length + 1) attempt s

/-- **Starts the service again** on the addresses it had. -/
def start (s : Service) : Except ServiceError Unit × Service :=
  let (attempt, s) := s.beginStart
  complete attempt s

/-- **Stops and starts the service.** -/
def restart (s : Service) (closeAll : Bool) : Except ServiceError Unit × Service :=
  match s.stop closeAll with
  | (.error e, s) => (.error e, s)
  | (.ok (), s) => (s.onExchange fun x => x.note .restarting).start

/-- **Shuts the service down**: it is stopped, if it is not, and all connections are told to
close. -/
def shutdown (s : Service) : Service :=
  (s.stop true).2.onExchange fun x => x.plan.hooks.leaving.repeat (fun x => x.note .leaving) x

/-- Does the service run? -/
def isRunning (s : Service) : Bool := s.life.phase = .running

/-! ## Peers -/

/-- The listener that a client finds at a Unix address. -/
def loopAt? (s : Service) (path : String) : Option Loop :=
  match s.host.files.connect path with
  | .error _ => none
  | .ok serial =>
    s.loops.find? fun loop => match loop.binding with
      | .file _ l => l.serial = serial
      | .internet .. => false

/-- **Accepts a stream** over a network and returns the number of its line. -/
def accept (s : Service) (network : Network) (peer : String) : Nat × Service :=
  let (l, x) := Line.accept network peer s.exchange
  (s.lines.length, { s with lines := s.lines ++ [l], exchange := x })

/-- What a Unix client is called. -/
def unnamedPeer : String := "unix:unnamed"

/-- A client connects to a Unix address. -/
def connect? (s : Service) (path : String) : Option (Nat × Service) :=
  (s.loopAt? path).map fun loop => s.accept loop.listener.network unnamedPeer

/-- The service with the stream of one line changed. -/
def modifySocket (s : Service) (line : Nat) (f : Socket → Socket) : Service :=
  { s with lines := s.lines.modify line fun l => { l with socket := f l.socket } }

/-- The stream of a line. -/
def socket (s : Service) (line : Nat) : Socket := (s.lines.getD line default).socket

/-- A peer sends octets; false if it cannot any more. -/
def peerSends (s : Service) (line : Nat) (bs : Bytes) : Bool × Service :=
  (((s.socket line).receive bs).1, s.modifySocket line fun k => (k.receive bs).2)

/-- A peer finishes sending. -/
def peerFinishes (s : Service) (line : Nat) : Service := s.modifySocket line Socket.finishPeer

/-- A peer goes away. -/
def peerLeaves (s : Service) (line : Nat) : Service := s.modifySocket line Socket.losePeer

/-- A peer reads everything that waits for it. -/
def peerReads (s : Service) (line : Nat) : Bytes × Service :=
  ((s.socket line).readByPeer.1, s.modifySocket line fun k => k.readByPeer.2)

/-- Every one of some peers reads everything that waits for it. -/
def readAll (s : Service) : List Nat → List (Nat × Bytes) × Service
  | [] => ([], s)
  | line :: rest =>
    let (bs, s) := s.peerReads line
    let (more, s) := readAll s rest
    (if bs = [] then more else (line, bs) :: more, s)

/-- Lets everything come to rest while peers read, at most so many times. -/
def settleReading (readers : List Nat) : Nat → Service → List (Nat × Bytes) × Service
  | 0, s => ([], s)
  | budget + 1, s =>
    let (got, s) := s.settle.readAll readers
    if got = [] then ([], s)
    else
      let (more, s) := settleReading readers budget s
      (got ++ more, s)

/-- How often peers find something to read before everything is at rest; a stream of the largest
size takes fewer. -/
def readings : Nat := 100000

/-- **Lets everything come to rest**, time pass, and everything come to rest again, while some
peers read; returns what they read, in order. -/
def rest (readers : List Nat) (milliseconds : Nat) (s : Service) : List (Nat × Bytes) × Service :=
  let (before, s) := s.settleReading readers readings
  let (after, s) := (s.pass milliseconds).settleReading readers readings
  (before ++ after, s)

/-- A datagram arrives at the listener with a number. -/
def datagramArrives (s : Service) (serial : Nat) (peer : String) (bs : Bytes) : Service :=
  match s.loop? serial with
  | some ⟨listener, _, _, some m⟩ =>
    let (m, x) := m.receive listener.network peer bs s.exchange
    { s with
      loops := s.loops.map fun loop =>
        if loop.listener.serial = serial then { loop with mailbox := some m } else loop
      exchange := x }
  | _ => s

end Service

end Switchboard
