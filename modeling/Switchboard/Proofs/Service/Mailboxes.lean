import Switchboard.Proofs.Service.Elsewhere
import Switchboard.Proofs.Session.Performs
import Switchboard.Proofs.Wire.Answers

/-!
# Proofs/Service/Mailboxes — the socket of datagrams, and what happens at it

Each datagram is read into the buffer that the one before was read into; what is taken out of it is
the datagram alone (`Mailbox.receive_eq`).  A service finds the loop of a socket by its number, and
what it does for one loop leaves the others (`Service.loop?`).

The history of a datagram socket goes on among everything else that a service does
(`Mailbox.Act`): datagrams arrive, the requests they are begin in any order, handlers act for those
that have begun, replies leave one by one, and streams and other sockets are served meanwhile.
-/

namespace Switchboard

/-! ## The buffer -/

namespace Datagram

/-- **A block is taken from the front** of what was received, whatever its header says and whatever
follows it. -/
theorem block?_eq_some_iff {received block : Bytes} :
    block? received = some block ↔ ∃ b rest, Block.Begins received b rest ∧ block = b.bytes := by
  have htrim : block? received = some block ↔ Block.trim received = .ok block := by
    unfold block?
    cases Block.trim received <;> simp [Except.toOption]
  rw [htrim, Block.trim_eq_ok_iff]
  refine exists_congr fun b => exists_congr fun rest => and_congr_right fun hbegins => ?_
  rw [(Block.begins_iff.mp hbegins).2, List.append_cancel_right_eq, eq_comm]

/-- The blocks in front of some datagrams, of which so many octets are read, with the peers. -/
def blocksOf (size : Nat) (datagrams : List (String × Bytes)) : List (String × Bytes) :=
  datagrams.filterMap fun d => (block? (d.2.take size)).map fun block => (d.1, block)

theorem blocksOf_concat (size : Nat) (datagrams : List (String × Bytes)) (d : String × Bytes) :
    blocksOf size (datagrams ++ [d]) =
      blocksOf size datagrams ++
        ((block? (d.2.take size)).map fun block => (d.1, block)).toList := by
  rw [blocksOf, List.filterMap_append]
  refine congrArg _ ?_
  cases hblock : block? (d.2.take size) <;> simp [hblock]

/-- A datagram without a block changes nothing. -/
theorem receive_of_none {network : Network} {queue : Nat} {peer : String} {received : Bytes}
    {x : Exchange} (h : block? received = none) : receive network queue peer received x = x := by
  rw [receive, h]

/-- A datagram with a block gets a connection. -/
theorem connections_receive {network : Network} {queue : Nat} {peer : String}
    {received block : Bytes} {x : Exchange} (h : block? received = some block) :
    (receive network queue peer received x).hub.connections = x.hub.connections ++
      [.ofPeer x.nextId network peer x.plan.settings.marshaller queue true false] := by
  rw [receive, h]
  rfl

/-- The block is dispatched on it. -/
theorem requests_receive {network : Network} {queue : Nat} {peer : String}
    {received block : Bytes} {x : Exchange} (h : block? received = some block) :
    (receive network queue peer received x).requests =
      x.requests ++ [(x.hub.connections.length, block)] := by
  rw [receive, h]
  rfl

end Datagram

namespace Mailbox

variable {m : Mailbox} {network : Network} {peer : String} {datagram : Bytes} {x : Exchange}

/-- **Nothing of an earlier datagram is taken out of the buffer.** -/
theorem take_read (m : Mailbox) (datagram : Bytes) :
    (m.read datagram).2.buffer.take (m.read datagram).1 = datagram.take m.buffer.length := by
  refine List.take_left' ?_
  rw [List.length_take, Nat.min_comm]
  rfl

@[simp] theorem length_read (m : Mailbox) (datagram : Bytes) :
    (m.read datagram).2.buffer.length = m.buffer.length := by
  show (datagram.take m.buffer.length ++ m.buffer.drop datagram.length).length = _
  rw [List.length_append, List.length_take, List.length_drop]
  omega

/-- **What a datagram comes to** depends on nothing but its own octets, as far as they fit. -/
theorem receive_eq (m : Mailbox) (network : Network) (peer : String) (datagram : Bytes)
    (x : Exchange) :
    m.receive network peer datagram x = ((m.read datagram).2,
      Datagram.receive network m.queue peer (datagram.take m.buffer.length) x) := by
  rw [← take_read]
  rfl

end Mailbox

/-! ## The socket of a service -/

namespace Service

variable {s : Service} {serial : Nat} {loop : Loop} {m : Mailbox}

/-- **A datagram socket** gets a queue for replies, and a buffer. -/
theorem serveOn_datagram (s : Service) {network : Network} (hkind : network.kind = .datagram)
    (binding : Binding) (isAwaited : Bool) :
    (s.serveOn network binding isAwaited).lines = s.lines ∧
      (s.serveOn network binding isAwaited).exchange = s.exchange.addQueue.2 ∧
      (s.serveOn network binding isAwaited).loops = s.loops ++
        [⟨⟨s.life.fresh, network, binding.address⟩, binding, isAwaited,
          some (.ofSize s.exchange.hub.queues.length
            s.exchange.plan.settings.datagramBuffer)⟩] := by
  rw [serveOn, Lifecycle.spawned, Lifecycle.record]
  dsimp only
  rw [beginLoop, hkind]
  exact ⟨rfl, rfl, rfl⟩

/-- Nothing arrives where nobody listens. -/
theorem datagramArrives_of_none (h : s.loop? serial = none) (peer : String) (datagram : Bytes) :
    s.datagramArrives serial peer datagram = s := by
  rw [datagramArrives, h]

/-- **A datagram arrives at a socket**: what of it fits into the buffer is taken in, and the socket
serves on. -/
theorem datagramArrives_eq (h : s.loop? serial = some loop) (hm : loop.mailbox = some m)
    (peer : String) (datagram : Bytes) :
    ∃ loops, s.datagramArrives serial peer datagram =
        { s with
          loops := loops
          exchange := Datagram.receive loop.listener.network m.queue peer
            (datagram.take m.buffer.length) s.exchange } ∧
      loops.find? (fun loop => loop.listener.serial = serial) =
        some { loop with mailbox := some (m.read datagram).2 } := by
  obtain ⟨listener, binding, isAwaited, mailbox⟩ := loop
  obtain rfl : mailbox = some m := hm
  have hserial : listener.serial = serial := of_decide_eq_true (List.find?_some h :)
  rw [datagramArrives, h]
  dsimp only
  rw [Mailbox.receive_eq]
  refine ⟨_, rfl, ?_⟩
  rw [List.find?_map]
  -- the numbers of the listeners are what they were
  have hsame : ((fun loop : Loop => decide (loop.listener.serial = serial)) ∘ fun loop =>
      if loop.listener.serial = serial then { loop with mailbox := some (m.read datagram).2 }
      else loop) = fun loop => decide (loop.listener.serial = serial) := by
    funext loop
    rw [Function.comp_apply]
    split <;> rfl
  rw [hsame, show s.loops.find? _ = _ from h]
  exact congrArg some (if_pos hserial)

/-- Nothing is sent where nothing is queued. -/
theorem sendLetter_of_nil (hm : loop.mailbox = some m)
    (hqueue : (s.exchange.hub.queue m.queue).replies = []) : s.sendLetter loop = s := by
  rw [sendLetter, hm]
  dsimp only
  rw [Datagram.send, ReplyQueue.take?, hqueue]
  dsimp only
  rw [Option.toList_none, List.append_nil]

/-- **The oldest reply is taken out of the queue and sent.** -/
theorem sendLetter_of_cons {reply : Reply} {rest : List Reply} (hm : loop.mailbox = some m)
    (hqueue : (s.exchange.hub.queue m.queue).replies = reply :: rest) :
    s.sendLetter loop =
      { s with
        letters := s.letters ++ (Datagram.letter? loop.listener.serial reply).toList
        exchange := s.exchange.withHub (s.exchange.hub.modifyQueue m.queue fun _ =>
          { s.exchange.hub.queue m.queue with replies := rest }) } := by
  rw [sendLetter, hm]
  dsimp only
  rw [Datagram.send, ReplyQueue.take?, hqueue]

/-- Who was not told goes on. -/
theorem endLoop_of_not_told (h : s.life.isTold loop.listener = false) : s.endLoop loop = s :=
  if_neg (Bool.not_eq_true _ ▸ h)

/-- **A socket that was told ends**: nobody takes replies out of its queue any more. -/
theorem endLoop_of_told (h : s.life.isTold loop.listener = true) (hm : loop.mailbox = some m) :
    (s.endLoop loop).lines = s.lines ∧ Keeps s.exchange (s.endLoop loop).exchange ∧
      (s.endLoop loop).exchange.hub = s.exchange.hub.modifyQueue m.queue ReplyQueue.abandon ∧
      (s.endLoop loop).loop? loop.listener.serial = none := by
  have hkeeps := keeps_modifyQueue s.exchange m.queue ReplyQueue.abandon
  have hnone : (s.loops.filter fun other => other.listener.serial ≠ loop.listener.serial).find?
      (fun other => other.listener.serial = loop.listener.serial) = none := by
    refine List.find?_eq_none.mpr fun other hother hsame => ?_
    exact of_decide_eq_true (List.mem_filter.mp hother).2 (of_decide_eq_true hsame)
  rw [endLoop, if_pos h, hm]
  cases loop.isAwaited with
  | true =>
    exact ⟨rfl, ⟨hkeeps.length, hkeeps.made, hkeeps.username, hkeeps.closed, hkeeps.queues,
      hkeeps.pool, hkeeps.nextId, hkeeps.plan⟩, rfl, hnone⟩
  | false => exact ⟨rfl, hkeeps, rfl, hnone⟩

end Service

/-! ## Histories -/

namespace Mailbox

/-- What happens at a datagram socket and around it. -/
inductive Act where
  /-- A datagram arrives. -/
  | arrives (peer : String) (datagram : Bytes)
  /-- The handlers of a request that waits begin. -/
  | begins (c : Place)
  /-- A handler of a request that has begun performs an action. -/
  | handles (r : Request) (a : Action)
  /-- A handler of a request that has begun breaks down, and its connection is closed. -/
  | fails (c : Place)
  /-- A request that waits runs as a whole. -/
  | runs (c : Place) (block : Bytes)
  /-- The oldest reply is taken out and sent. -/
  | sends
  /-- The socket looks whether it was told to end, and ends then; its replies are lost. -/
  | ends
  /-- Something else happens to the service. -/
  | passes (o : Service.Occurrence)

/-- A datagram socket of a service, and its past. -/
structure History where
  /-- The service. -/
  service : Service
  /-- The number of the listener. -/
  serial : Nat
  /-- Its network. -/
  network : Network
  /-- The queue of the replies to all its requests. -/
  queue : Nat
  /-- The datagrams that were received, with their senders. -/
  arrived : List (String × Bytes)
  /-- The requests that were dispatched for them. -/
  dispatched : List (Place × Bytes)
  /-- The connections whose handlers have begun. -/
  begun : List Place
  /-- The replies that were queued, each with the connection it was queued for. -/
  accepted : List (Place × Reply)
  /-- The datagrams that were sent. -/
  letters : List Letter

namespace History

/-- The history of a socket on which a service begins to serve. -/
def start (s : Service) (network : Network) (binding : Binding) (isAwaited : Bool) : History :=
  ⟨s.serveOn network binding isAwaited, s.life.fresh, network, s.exchange.hub.queues.length, [], [],
    [], [], []⟩

/-- The connections, the queues and the pool. -/
def hub (h : History) : Hub := h.service.exchange.hub

/-- The socket, while it serves. -/
def loop? (h : History) : Option Loop := h.service.loop? h.serial

/-- Has the socket ended? -/
def ended (h : History) : Bool := h.loop?.isNone

/-- Was the socket told to end? -/
def told (h : History) : Bool := h.service.life.told.contains h.serial

/-- The replies that wait. -/
def queued (h : History) : List Reply := (h.hub.queue h.queue).replies

/-- The history once something was done for a connection, by which replies may have been queued. -/
def served (h : History) (c : Place) (s : Service) : History :=
  let replies := (s.exchange.hub.queue h.queue).replies
  { h with
    service := s
    accepted := h.accepted ++ (replies.drop h.queued.length).map fun reply => (c, reply) }

/-- **One act**; what cannot happen changes nothing. -/
def perform (h : History) : Act → History
  | .arrives peer datagram =>
    let s := h.service.datagramArrives h.serial peer datagram
    { h with
      service := s
      arrived := if h.ended then h.arrived else h.arrived ++ [(peer, datagram)]
      dispatched :=
        h.dispatched ++ s.exchange.requests.drop h.service.exchange.requests.length }
  | .begins c =>
    if c ∈ h.dispatched.map Prod.fst then { h with begun := h.begun ++ [c] } else h
  | .handles r a =>
    if r.place ∈ h.begun ∧ (r.place, r.block) ∈ h.dispatched then
      h.served r.place (h.service.handle r a)
    else h
  | .fails c =>
    if c ∈ h.begun then h.served c (h.service.onExchange fun x => x.close c) else h
  | .runs c block =>
    if (c, block) ∈ h.dispatched ∧ c ∉ h.begun then
      ({ h with begun := h.begun ++ [c] } : History).served c
        (h.service.onExchange fun x => x.serve c block)
    else h
  | .sends =>
    match h.loop? with
    | some loop =>
      let s := h.service.sendLetter loop
      { h with service := s, letters := h.letters ++ s.letters.drop h.service.letters.length }
    | none => h
  | .ends =>
    match h.loop? with
    | some loop => { h with service := h.service.endLoop loop }
    | none => h
  | .passes o =>
    if h.service.isElsewhere h.queue o then { h with service := h.service.occur o } else h

/-- **Acts in any order**, one after another. -/
def run (h : History) (acts : List Act) : History := acts.foldl perform h

end History

end Mailbox

end Switchboard
