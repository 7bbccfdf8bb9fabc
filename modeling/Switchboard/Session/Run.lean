import Switchboard.Session.Script

/-!
# Session/Run — running the chain of a request

The chain of a request runs entry after entry.  A handler may run the rest of the chain itself and
go on afterwards; entries that were started are not started again, and once the chain is stopped
none is started at all.  `advance` is given a budget of entries so that it ends even for handlers
that start the chain over and over; without such handlers the length of the chain is enough.
-/

namespace Switchboard

/-- What handlers read and change: the hub, how often limited actions ran, and the log. -/
structure Desk where
  /-- Connections, queues and pool. -/
  hub : Hub
  /-- How often each limited action ran, by handler and place in the handler. -/
  uses : List ((Nat × Nat) × Nat)
  /-- The log, newest first. -/
  log : List Entry
deriving Inhabited

/-- A request in progress. -/
structure Turn where
  /-- What handlers read and change. -/
  desk : Desk
  /-- The request. -/
  request : Request
  /-- Did a handler break down? -/
  broken : Bool
deriving Inhabited

namespace Turn

/-- The turn with another hub. -/
def withHub (t : Turn) (hub : Hub) : Turn := { t with desk := { t.desk with hub := hub } }

/-- The connection of the request. -/
def connection (t : Turn) : Connection := t.desk.hub.connection t.request.place

/-- The encoding of the connection. -/
def packer (t : Turn) : Packer := ⟨t.connection.marshaller⟩

/-- Changes the hub and answers whether that went well. -/
def trying (t : Turn) (f : Hub → Except SessionError Unit × Hub) : Answer × Turn :=
  match f t.desk.hub with
  | (.ok (), hub) => (.done, t.withHub hub)
  | (.error e, hub) => (.failed e, t.withHub hub)

/-- Queues a block as it was packed, if it could be packed. -/
def sendPacked (t : Turn) (packed : Except WireError Bytes) : Answer × Turn :=
  t.trying fun hub => hub.sendPacked t.request.place packed

/-- Answers with what a look at the octets shows. -/
def viewing {α : Type} (t : Turn) (r : Except WireError α) (f : α → Answer) : Answer × Turn :=
  match r with
  | .ok a => (f a, t)
  | .error e => (.failed (.wire e), t)

/-- Runs an operation that needs the pool. -/
def withPool (t : Turn) (f : Hub → Except SessionError Unit × Hub) : Answer × Turn :=
  t.trying fun hub => if hub.reachesPool t.request.place then f hub
    else (.error .poolDisabled, hub)

/-- The request as people are shown it. -/
def display (t : Turn) : String :=
  "Context \x7b conn_id: " ++ toString t.connection.id ++ ", cursor: " ++
    toString t.request.cursor ++ ", chain_len: " ++ toString t.request.chain.length ++
    ", aborted: " ++ toString t.request.aborted ++ ", .. \x7d"

/-- A text with its ASCII letters in capitals. -/
def capitals (s : String) : String := String.ofList (s.toList.map Char.toUpper)

/-- The text of a decoded body, empty without one. -/
def bodyText (m : Message) : String := (m.body.bind Json.text?).getD ""

/-- Takes the connection offline: the entry under the name it has in mind is removed and that
entry's connection closed; a connection without a name is closed itself. -/
def goOffline (place : Place) (hub : Hub) : Hub :=
  match (hub.connection place).username with
  | some user => (hub.offline user).2
  | none => hub.close place

/-- **Performs one action**, given how the rest of the chain is run. -/
def perform (rest : Turn → Turn) (a : Action) (t : Turn) : Answer × Turn :=
  let r := t.request
  match a with
  | .next => (.nothing, rest t)
  | .abort => (.nothing, { t with request := { r with aborted := true } })
  | .reset => (.nothing, { t with request := { r with cursor := 0, aborted := false } })
  | .isAborted => (.flag r.aborted, t)
  | .block => (.octets r.block, t)
  | .messageId => t.viewing (Block.read r.block) fun b => .messageId b.id
  | .header => t.viewing (Block.headerOf r.block) .header
  | .urlPattern => t.viewing (Block.patternOf r.block) .pattern
  | .bind kind => t.viewing (t.packer.unpack kind r.block) .message
  | .bindWith m kind => t.viewing (Message.unpack m kind r.block) .message
  | .reply id body headers => t.sendPacked (t.packer.pack id body headers)
  | .replyRaw id body headers => t.sendPacked (t.packer.packRaw id body headers)
  | .replyJson id body headers => t.sendPacked (Packer.pack ⟨.json⟩ id body headers)
  | .replyUrl pattern body headers => t.sendPacked (t.packer.packUrl pattern body headers)
  | .setConnectionValue key v =>
    (.nothing, t.withHub (t.desk.hub.modify r.place fun c =>
      { c with values := c.values.insert key v }))
  | .setRequestValue key v =>
    (.nothing, { t with request := { r with values := r.values.insert key v } })
  | .connectionValue key type => (.stored (Store.find? t.connection.values key type), t)
  | .requestValue key type => (.stored (Store.find? r.values key type), t)
  | .online user => t.withPool fun hub => (.ok (), hub.online user r.place)
  | .offline => t.withPool fun hub => (.ok (), goOffline r.place hub)
  | .username => (.name t.connection.username, t)
  | .sendToUser user id body headers =>
    t.withPool fun hub =>
      match t.packer.pack id body headers with
      | .error e => (.error (.wire e), hub)
      | .ok block => hub.sendTo user block
  | .noteHeartbeat => (.nothing, t.withHub (t.desk.hub.noteHeartbeat r.place))
  | .passAuth => (.nothing, t.withHub (t.desk.hub.setAuth r.place .passed))
  | .denyAuth => (.nothing, t.withHub (t.desk.hub.setAuth r.place .denied))
  | .close => (.nothing, t.withHub (t.desk.hub.close r.place))
  | .isClosed => (.flag t.connection.closed, t)
  | .peer => (.text t.connection.peer, t)
  | .network => (.text t.connection.network.name, t)
  | .connectionId => (.number t.connection.id, t)
  | .display => (.text t.display, t)
  | .sendBack beat =>
    match Block.idOf r.block with
    | .error e => (.failed (.wire e), t)
    | .ok id =>
      if beat = some id then (.nothing, t.withHub (t.desk.hub.noteHeartbeat r.place))
      else
        t.sendPacked ((Block.bodyBytesOf r.block).bind fun body => t.packer.packRaw id body [])
  | .upper id =>
    match t.packer.unpack .text r.block with
    | .error e => (.failed (.wire e), t)
    | .ok m => t.sendPacked (t.packer.pack id (.string (capitals (bodyText m))) [])
  | .fill id count =>
    t.sendPacked (t.packer.pack id (.string (String.ofList (List.replicate count 'x'))) [])
  | .breakDown => (.nothing, { t with broken := true })

/-- Adds an entry to the log of a handler that logs. -/
def note (t : Turn) (h : Script) (entry : String → Entry) : Turn :=
  match h.name with
  | some name => { t with desk := { t.desk with log := entry name :: t.desk.log } }
  | none => t

/-- How often an action ran. -/
def usesOf (t : Turn) (key : Nat × Nat) : Nat := (t.desk.uses.lookup key).getD 0

/-- Counts a run of an action. -/
def countUse (t : Turn) (key : Nat × Nat) : Turn :=
  let uses := (key, t.usesOf key + 1) :: t.desk.uses.filter fun e => e.1 != key
  { t with desk := { t.desk with uses := uses } }

/-- Runs one step of a handler, given how the rest of the chain is run.  A limited step is counted
before it runs; nothing runs once the handler broke down. -/
def step (rest : Turn → Turn) (h : Script) (t : Turn) (s : Step × Nat) : Turn :=
  if t.broken then t
  else
    let key := (h.serial, s.2)
    let allowed := match s.1.times with
      | some k => decide (t.usesOf key < k)
      | none => true
    if !allowed then t
    else
      let t := if s.1.times.isSome then t.countUse key else t
      let (answer, t) := perform rest s.1.action t
      if t.broken then t else t.note h fun name => .did name s.1.action answer

/-- Runs one handler, given how the rest of the chain is run. -/
def runScript (rest : Turn → Turn) (h : Script) (t : Turn) : Turn :=
  h.steps.zipIdx.foldl (step rest h) (t.note h .started)

/-- **Runs the rest of the chain**, starting at most so many entries one after another or inside
each other. -/
def advance : Nat → Turn → Turn
  | 0, t => t
  | budget + 1, t =>
    let r := t.request
    if r.aborted || t.broken then t
    else
      match r.chain[r.cursor]? with
      | none => t
      | some h =>
        let t := { t with request := { r with cursor := r.cursor + 1 } }
        advance budget (runScript (advance budget) h t)

/-- How many entries may be started for a request. -/
def budgetOf (chain : List Script) : Nat := chain.length + 100000

/-- Runs the rest of the chain of the request. -/
def proceed (t : Turn) : Turn := t.advance (budgetOf t.request.chain)

end Turn

/-- How the chain of a request ended. -/
inductive Outcome where
  /-- It ran to its end. -/
  | completed
  /-- A handler stopped it. -/
  | aborted
  /-- No handler takes the request. -/
  | unrouted
  /-- A handler broke down. -/
  | brokeDown
deriving Repr, DecidableEq

/-- The name of an outcome. -/
def Outcome.title : Outcome → String
  | completed => "Completed"
  | aborted => "Aborted"
  | unrouted => "Unrouted"
  | brokeDown => "BrokeDown"

/-- **Dispatches octets that came over a connection**: resolves their chain and runs it. -/
def Desk.dispatch (desk : Desk) (router : Router Script) (place : Place) (block : Bytes) :
    Outcome × Desk :=
  match router.resolve block with
  | none => (.unrouted, desk)
  | some chain =>
    let t := Turn.proceed ⟨desk, Request.ofBlock place block chain, false⟩
    (if t.broken then .brokeDown else if t.request.aborted then .aborted else .completed, t.desk)

end Switchboard
