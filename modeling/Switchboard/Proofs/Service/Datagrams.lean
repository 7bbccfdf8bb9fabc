import Switchboard.Proofs.Service.Queueing
import Switchboard.Service.Echo

/-!
# Proofs/Service/Datagrams — every datagram is a request of its own

By what every act preserves (`Mailbox.History.Sound`) the blocks dispatched are those in front of
the datagrams, each on a connection that nobody has touched when its handlers begin, and replies
leave in the order they were queued, each for the sender of its datagram
(`Mailbox.History.serves_run`).
-/

namespace Switchboard.Mailbox.History

variable {limits : Settings} {h : History} {s : Service} {c : Place}

/-! ## What arrives, and when it ends -/

/-- Are listeners told to end by an act? -/
def tells : Act → Bool
  | .passes o => o.tells
  | _ => false

theorem loops_sendLetter (s : Service) (loop : Loop) : (s.sendLetter loop).loops = s.loops := by
  unfold Service.sendLetter
  split <;> rfl

/-- **What a socket hears of some acts**: all of them if it serves on, and otherwise those before
it looked and had been told to end. -/
inductive Hears (h : History) (acts : List Act) : List Act → Prop where
  | all (serving : (h.run acts).ended = false) : Hears h acts acts
  | ended {heard rest : List Act} (ended : (h.run acts).ended = true)
    (cut : acts = heard ++ .ends :: rest) (told : (h.run heard).told = true) : Hears h acts heard

/-- The oldest reply leaves the queue. -/
theorem Sound.queued_sends (hs : Sound limits h) : (h.perform .sends).queued = h.queued.tail := by
  cases hqueued : h.queued with
  | nil =>
    rw [hs.perform_sends_of_nil hqueued]
    exact hqueued
  | cons reply rest =>
    obtain ⟨letters, hperform⟩ := hs.perform_sends hqueued
    rw [hperform]
    exact congrArg ReplyQueue.replies (Hub.queue_modifyQueue_self h.hub _ hs.apart.queue)

/-- One reply after another leaves. -/
theorem Sound.run_sends (hs : Sound limits h) (n : Nat) :
    (h.run (List.replicate n .sends)).queued = h.queued.drop n ∧
      ∀ loop, h.loop? = some loop → (h.run (List.replicate n .sends)).loop? = some loop ∧
        (h.run (List.replicate n .sends)).service = n.repeat (Service.sendLetter · loop) h.service
    := by
  induction n with
  | zero => exact ⟨rfl, fun loop hloop => ⟨hloop, rfl⟩⟩
  | succ n ih =>
    obtain ⟨hqueued, hservice⟩ := ih
    have hrun : h.run (List.replicate (n + 1) .sends) =
        (h.run (List.replicate n .sends)).perform .sends := by
      rw [List.replicate_succ', History.run, List.foldl_append]
      rfl
    rw [hrun]
    refine ⟨?_, fun loop hloop => ?_⟩
    · rw [(hs.run _).queued_sends, hqueued, List.tail_drop]
    · obtain ⟨hloop', hservice⟩ := hservice loop hloop
      rw [History.perform, hloop']
      refine ⟨?_, congrArg (Service.sendLetter · loop) hservice⟩
      show (Service.loops _).find? _ = _
      rw [loops_sendLetter]
      exact hloop'

/-- **Sending all that is queued** is sending one reply after another. -/
theorem Sound.run_sends_all (hs : Sound limits h) {loop : Loop} (hloop : h.loop? = some loop) :
    (h.run (List.replicate h.queued.length .sends)).service = h.service.sendLetters loop := by
  obtain ⟨-, buffer, hmailbox, -⟩ := hs.socket loop hloop
  rw [Service.sendLetters, hmailbox]
  exact ((hs.run_sends _).2 loop hloop).2

/-- The letter for a reply, if it is not too large. -/
theorem letter?_eq (serial : Nat) {reply : Reply} {peer : String}
    (hreceiver : reply.receiver = some peer) :
    Datagram.letter? serial reply =
      if reply.block.length ≤ 65507 then some ⟨serial, peer, reply.block⟩ else none := by
  rw [Datagram.letter?, hreceiver]
  rfl

/-! ## The socket of a service -/

/-- A reply is offered for a connection whose handlers have begun, which is open, while the socket
serves. -/
structure Offers (h : History) (t : Turn) : Prop where
  hub : t.desk.hub = h.hub
  begun : t.request.place ∈ h.begun
  opened : t.connection.closed = false
  serving : h.ended = false

/-- A request queues its replies on the socket. -/
theorem Sound.queueOf_begun (hs : Sound limits h) (hc : c ∈ h.begun) :
    h.hub.queueOf c = h.hub.queue h.queue :=
  congrArg h.hub.queue (congrArg Connection.queue (hs.own_of_begun hc).2)

/-- Its connection queues on the socket. -/
theorem Sound.queueOf_offers (hs : Sound limits h) {t : Turn} (ht : h.Offers t) :
    t.desk.hub.queueOf t.request.place = h.hub.queue h.queue := by
  rw [ht.hub]
  exact hs.queueOf_begun ht.begun

/-- **A block that there is room for** is queued as the last, for the sender of the datagram. -/
theorem Sound.send_of_room (hs : Sound limits h) (hc : c ∈ h.begun)
    (hopen : (h.hub.connection c).closed = false) (hserving : h.ended = false)
    (hroom : h.queued.length < limits.queueCapacity) (block : Bytes) :
    ∃ hub, h.hub.send c block = (.ok (), hub) ∧ hub.connections = h.hub.connections ∧
      (hub.queue h.queue).replies =
        h.queued ++ [⟨block, some (h.hub.connection c).peer⟩] := by
  have hqueueOf := hs.queueOf_begun hc
  obtain ⟨-, hmade⟩ := hs.own_of_begun hc
  have hown : (h.hub.connection c).queue = h.queue := congrArg Connection.queue hmade
  have hreceiver : (h.hub.connection c).receiver = some (h.hub.connection c).peer :=
    if_pos (congrArg Connection.sharesQueue hmade)
  refine ⟨h.hub.enqueue c block, Hub.send_of_room hopen ?_ ?_ block, rfl, ?_⟩
  · rw [hqueueOf, hs.reader, hserving]
    rfl
  · rw [hqueueOf, hs.capacity]
    exact hroom
  · rw [Hub.enqueue, hqueueOf, hown, Hub.queue_modifyQueue_self h.hub _ hs.apart.queue]
    exact congrArg (h.queued ++ [⟨block, ·⟩]) hreceiver

/-- A reply that there is room for is queued. -/
theorem Sound.offers_room (hs : Sound limits h) {t : Turn} (ht : h.Offers t)
    (hroom : h.queued.length < limits.queueCapacity) (block : Bytes) :
    ∃ hub, t.sendPacked (.ok block) = (.done, t.withHub hub) ∧
      hub.connections = h.hub.connections ∧
      (hub.queue h.queue).replies = h.queued ++ [⟨block, some t.connection.peer⟩] := by
  have hconnection : t.connection = h.hub.connection t.request.place := by
    rw [Turn.connection, ht.hub]
  rw [hconnection]
  obtain ⟨hub, hsend, hconnections, hqueued⟩ :=
    hs.send_of_room ht.begun (hconnection ▸ ht.opened) ht.serving hroom block
  refine ⟨hub, ?_, hconnections, hqueued⟩
  rw [← ht.hub] at hsend
  simp only [Turn.sendPacked, Turn.trying, Hub.sendPacked, hsend]

/-- **A reply that finds the queue full** is refused, and its own connection closed. -/
theorem Sound.offers_full (hs : Sound limits h) {t : Turn} (ht : h.Offers t)
    (hfull : limits.queueCapacity ≤ h.queued.length) (block : Bytes) :
    ∃ hub, t.sendPacked (.ok block) = (.failed (.queueFull t.connection.id), t.withHub hub) ∧
      hub.queues = h.hub.queues ∧
      hub.connection t.request.place = { t.connection with closed := true } ∧
      ∀ c, c ≠ t.request.place → hub.connection c = h.hub.connection c := by
  have hqueueOf := hs.queueOf_offers ht
  have hsend : t.desk.hub.send t.request.place block =
      (.error (.queueFull t.connection.id), t.desk.hub.close t.request.place) := by
    refine Hub.send_of_full ht.opened ?_ ?_ block
    · rw [hqueueOf, hs.reader, ht.serving]
      rfl
    · rw [hqueueOf, hs.capacity]
      exact hfull
  have hlt : t.request.place < t.desk.hub.connections.length :=
    ht.hub ▸ (hs.own_of_begun ht.begun).1
  refine ⟨t.desk.hub.close t.request.place, ?_, ht.hub ▸ rfl, ?_, fun c hc => ?_⟩
  · simp only [Turn.sendPacked, Turn.trying, Hub.sendPacked, hsend]
  · exact (Hub.connection_modify ..).trans (if_pos ⟨rfl, hlt⟩)
  · rw [← ht.hub]
    exact (Hub.connection_modify ..).trans (if_neg fun h => hc h.1.symm)

/-- **What a datagram socket serves**, of datagrams that arrive in this order. -/
structure Serves (settings : Settings) (arrivals : List (String × Bytes)) (h : History) : Prop where
  /-- The blocks dispatched, with their senders, are those in front of the datagrams as far as they
  fit into the buffer. -/
  blocks : h.dispatched.map (fun r => ((h.hub.connection r.1).peer, r.2)) =
    Datagram.blocksOf settings.datagramBuffer arrivals
  /-- Their connections have numbers of their own, each a higher one than those before. -/
  numbers : (h.dispatched.map fun r => (h.hub.connection r.1).id).Pairwise (· < ·)
  alone : ∀ r ∈ h.dispatched, ∀ c < h.hub.connections.length,
    (h.hub.connection c).id = (h.hub.connection r.1).id → c = r.1
  /-- A request that has not begun has a connection as it was made: open, without values. -/
  fresh : ∀ r ∈ h.dispatched, r.1 ∉ h.begun → h.hub.connection r.1 =
    .ofPeer (h.hub.connection r.1).id h.network (h.hub.connection r.1).peer settings.marshaller
      h.queue true false
  /-- Every reply was queued by a request and goes to the sender of its datagram. -/
  receivers : ∀ e ∈ h.accepted,
    e.1 ∈ h.dispatched.map Prod.fst ∧ e.2.receiver = some (h.hub.connection e.1).peer
  /-- Replies leave in the order they were queued, each to the sender of the datagram it was queued
  for, unless it is larger than a datagram can be; none is lost while the socket serves. -/
  order : ∃ taken, taken <+: h.accepted ∧
    h.letters = (taken.filter fun e => e.2.block.length ≤ 65507).map (fun e =>
      ⟨h.serial, (h.hub.connection e.1).peer, e.2.block⟩) ∧
    (h.ended = false → h.accepted.map Prod.snd = taken.map Prod.snd ++ h.queued)
  /-- When a reply is sent, it is the oldest of those that are queued. -/
  leaves : (h.perform .sends).queued = h.queued.tail
  /-- Sending all that is queued is sending one after another. -/
  leavesAll : ∀ loop, h.loop? = some loop →
    (h.run (List.replicate h.queued.length .sends)).service = h.service.sendLetters loop
  /-- A reply is queued where there is room. -/
  room : ∀ t : Turn, h.Offers t → h.queued.length < settings.queueCapacity → ∀ block,
    ∃ hub, t.sendPacked (.ok block) = (.done, t.withHub hub) ∧
      hub.connections = h.hub.connections ∧
      (hub.queue h.queue).replies = h.queued ++ [⟨block, some t.connection.peer⟩]
  /-- A reply that finds the queue full fails, and closes the connection of its own request. -/
  full : ∀ t : Turn, h.Offers t → settings.queueCapacity ≤ h.queued.length → ∀ block,
    ∃ hub, t.sendPacked (.ok block) = (.failed (.queueFull t.connection.id), t.withHub hub) ∧
      hub.queues = h.hub.queues ∧
      hub.connection t.request.place = { t.connection with closed := true } ∧
      ∀ c, c ≠ t.request.place → hub.connection c = h.hub.connection c

/-- What was sent went to the senders of the datagrams. -/
theorem Sound.letters_eq (hs : Sound limits h) {taken : List (Place × Reply)}
    (htaken : ∀ e ∈ taken, e ∈ h.accepted) :
    (taken.map Prod.snd).filterMap (Datagram.letter? h.serial) =
      (taken.filter fun e => e.2.block.length ≤ 65507).map fun e =>
        ⟨h.serial, (h.hub.connection e.1).peer, e.2.block⟩ := by
  induction taken with
  | nil => rfl
  | cons e taken ih =>
    obtain ⟨he, htaken⟩ := List.forall_mem_cons.mp htaken
    have hletter := letter?_eq h.serial (hs.accepted e he).2
    rw [List.map_cons, List.filterMap_cons, hletter, List.filter_cons]
    by_cases hshort : e.2.block.length ≤ 65507
    · rw [if_pos hshort, if_pos (decide_eq_true hshort), List.map_cons, ih htaken]
    · rw [if_neg hshort, if_neg (by simpa using hshort), ih htaken]

theorem Sound.serves (hs : Sound limits h) : h.Serves limits h.arrived where
  blocks := hs.blocks
  numbers := by
    refine List.pairwise_map.mpr ((List.pairwise_map.mp hs.rising).imp_of_mem ?_)
    intro r r' _ hr' hlt
    exact hs.apart.placed.rising r.1 r'.1 hlt (hs.own r' hr').1
  alone r hr c hc hid := by
    have hrising := hs.apart.placed.rising
    rcases Nat.lt_trichotomy c r.1 with hlt | heq | hgt
    · exact absurd hid (Nat.ne_of_lt (hrising c r.1 hlt (hs.own r hr).1))
    · exact heq
    · exact absurd hid (Nat.ne_of_gt (hrising r.1 c hgt hc))
  fresh r hr hnot := (hs.fresh r hr hnot).trans (hs.own r hr).2
  receivers e he := ⟨hs.begun e.1 (hs.accepted e he).1, (hs.accepted e he).2⟩
  order := by
    obtain ⟨taken, hletters, hpart, hall⟩ := hs.order
    exact ⟨taken, hpart, hletters.trans (hs.letters_eq fun e he => hpart.subset he), hall⟩
  leaves := hs.queued_sends
  leavesAll _ := hs.run_sends_all
  room _ := hs.offers_room
  full _ := hs.offers_full

end Switchboard.Mailbox.History
