import Switchboard.Proofs.Service.Mailboxes

/-!
# Proofs/Service/Queueing — what every act at a datagram socket preserves

The requests of a socket share one queue, which no other connection has.  `History.Sound` says what
is in it and where it came from, and every act keeps that (`History.Sound.perform`): a datagram adds
a request, a handler that has begun adds replies, the loop takes the oldest one, and whatever else
happens to the service leaves the queue alone.
-/

namespace Switchboard.Mailbox.History

/-! ## What every act preserves -/

/-- **The state of a datagram socket.**  Other connections have other queues.  What was dispatched
are the blocks in front of the datagrams that arrived; each has a connection that has joined after
those before it, and that nobody has touched unless its handlers have begun.  A reply was queued by
such a handler, for the sender of its datagram, and what was queued has left in this order or still
waits. -/
structure Sound (limits : Settings) (h : History) : Prop where
  apart : h.service.Apart limits h.queue
  socket : ∀ loop, h.loop? = some loop → loop.listener.network = h.network ∧
    ∃ buffer, loop.mailbox = some ⟨h.queue, buffer⟩ ∧ buffer.length = limits.datagramBuffer
  capacity : (h.hub.queue h.queue).capacity = limits.queueCapacity
  reader : (h.hub.queue h.queue).hasReader = !h.ended
  room : h.queued.length ≤ limits.queueCapacity
  blocks : h.dispatched.map (fun r => ((h.hub.connection r.1).peer, r.2)) =
    Datagram.blocksOf limits.datagramBuffer h.arrived
  rising : (h.dispatched.map Prod.fst).Pairwise (· < ·)
  own : ∀ r ∈ h.dispatched, r.1 < h.hub.connections.length ∧ (h.hub.connection r.1).made =
    .ofPeer (h.hub.connection r.1).id h.network (h.hub.connection r.1).peer limits.marshaller
      h.queue true false
  fresh : ∀ r ∈ h.dispatched, r.1 ∉ h.begun → h.hub.connection r.1 = (h.hub.connection r.1).made
  begun : ∀ c ∈ h.begun, c ∈ h.dispatched.map Prod.fst
  accepted : ∀ e ∈ h.accepted, e.1 ∈ h.begun ∧ e.2.receiver = some (h.hub.connection e.1).peer
  lost : h.ended = true → h.queued = []
  order : ∃ taken, h.letters = (taken.map Prod.snd).filterMap (Datagram.letter? h.serial) ∧
    taken <+: h.accepted ∧
    (h.ended = false → h.accepted.map Prod.snd = taken.map Prod.snd ++ h.queued)

variable {limits : Settings} {h : History} {s : Service} {c : Place}

/-- The connection of a request that has begun. -/
theorem Sound.own_of_begun (hs : Sound limits h) (hc : c ∈ h.begun) :
    c < h.hub.connections.length ∧ (h.hub.connection c).made =
      .ofPeer (h.hub.connection c).id h.network (h.hub.connection c).peer limits.marshaller
        h.queue true false := by
  obtain ⟨r, hr, rfl⟩ := List.mem_map.mp (hs.begun c hc)
  exact hs.own r hr

/-- Whoever was dispatched has the same connection when the hub has grown. -/
theorem Sound.sameMake (hs : Sound limits h) (hgrows : h.hub.Grows s.exchange.hub)
    {r : Place × Bytes} (hr : r ∈ h.dispatched) :
    (h.hub.connection r.1).SameMake (s.exchange.hub.connection r.1) :=
  Connection.sameMake_of_made (hgrows.made r.1 (hs.own r hr).1)

theorem Sound.own_of_grows (hs : Sound limits h) (hgrows : h.hub.Grows s.exchange.hub)
    {r : Place × Bytes} (hr : r ∈ h.dispatched) :
    r.1 < s.exchange.hub.connections.length ∧ (s.exchange.hub.connection r.1).made =
      .ofPeer (s.exchange.hub.connection r.1).id h.network (s.exchange.hub.connection r.1).peer
        limits.marshaller h.queue true false := by
  obtain ⟨hlt, hmade⟩ := hs.own r hr
  have hsame := hs.sameMake hgrows hr
  refine ⟨Nat.lt_of_lt_of_le hlt hgrows.length, ?_⟩
  rw [hgrows.made r.1 hlt, hmade, hsame.id, hsame.peer]

/-- A reply is for the peer of its connection, those that were added included. -/
theorem Sound.accepted_of_grows (hs : Sound limits h) (hgrows : h.hub.Grows s.exchange.hub)
    {c : Place} {more : List Reply}
    (hmore : more ≠ [] → c ∈ h.begun ∧
      ∀ reply ∈ more, reply.receiver = some (h.hub.connection c).peer)
    {e : Place × Reply} (he : e ∈ h.accepted ++ more.map fun reply => (c, reply)) :
    e.1 ∈ h.begun ∧ e.2.receiver = some (s.exchange.hub.connection e.1).peer := by
  have hpeer {d : Place} (hd : d ∈ h.begun) :
      some (h.hub.connection d).peer = some (s.exchange.hub.connection d).peer := by
    obtain ⟨r, hr, rfl⟩ := List.mem_map.mp (hs.begun d hd)
    exact congrArg some (hs.sameMake hgrows hr).peer.symm
  rcases List.mem_append.mp he with hbefore | hnew
  · obtain ⟨hbegun, hreceiver⟩ := hs.accepted e hbefore
    exact ⟨hbegun, hreceiver.trans (hpeer hbegun)⟩
  · obtain ⟨reply, hreply, rfl⟩ := List.mem_map.mp hnew
    obtain ⟨hbegun, hreceiver⟩ := hmore (List.ne_nil_of_mem hreply)
    exact ⟨hbegun, (hreceiver reply hreply).trans (hpeer hbegun)⟩

/-- **What goes on as long as replies are only added**, and only for requests that have begun. -/
theorem Sound.carry (hs : Sound limits h) (c : Place) (more : List Reply)
    (hloops : s.loops = h.service.loops) (hapart : s.Apart limits h.queue)
    (hgrows : h.hub.Grows s.exchange.hub)
    (hfresh : ∀ r ∈ h.dispatched, r.1 ∉ h.begun →
      s.exchange.connection r.1 = h.hub.connection r.1)
    (hqueue : s.exchange.hub.queue h.queue =
      { h.hub.queue h.queue with replies := h.queued ++ more })
    (hroom : (h.queued ++ more).length ≤ limits.queueCapacity)
    (hmore : more ≠ [] → h.ended = false ∧ c ∈ h.begun ∧
      ∀ reply ∈ more, reply.receiver = some (h.hub.connection c).peer) :
    Sound limits { h with
      service := s, accepted := h.accepted ++ more.map fun reply => (c, reply) } := by
  have hqueued : (s.exchange.hub.queue h.queue).replies = h.queued ++ more := by
    rw [hqueue]
  have hloop : s.loop? h.serial = h.loop? := congrArg (List.find? _) hloops
  have hended : (s.loop? h.serial).isNone = h.ended := congrArg Option.isNone hloop
  refine
    { apart := hapart
      socket := fun loop h' => hs.socket loop (hloop.symm.trans h')
      capacity := (congrArg ReplyQueue.capacity hqueue).trans hs.capacity
      reader := ((congrArg ReplyQueue.hasReader hqueue).trans hs.reader).trans
        (congrArg Bool.not hended.symm)
      room := ?_
      blocks := ?_
      rising := hs.rising
      own := fun r hr => hs.own_of_grows hgrows hr
      fresh := fun r hr hnot => ?_
      begun := hs.begun
      accepted := fun e he => hs.accepted_of_grows hgrows (fun hne => (hmore hne).2) he
      lost := fun hlost => ?_
      order := ?_ }
  · show (s.exchange.hub.queue h.queue).replies.length ≤ _
    rwa [hqueued]
  · rw [← hs.blocks]
    exact List.map_congr_left fun r hr => congrArg (·, r.2) (hs.sameMake hgrows hr).peer
  · show s.exchange.hub.connection r.1 = (s.exchange.hub.connection r.1).made
    rw [show s.exchange.hub.connection r.1 = h.hub.connection r.1 from hfresh r hr hnot]
    exact hs.fresh r hr hnot
  · have hlost : h.ended = true := hended.symm.trans hlost
    have hnone : more = [] := Classical.byContradiction fun hne =>
      Bool.false_ne_true ((hmore hne).1.symm.trans hlost)
    show (s.exchange.hub.queue h.queue).replies = []
    rw [hqueued, hnone, List.append_nil]
    exact hs.lost hlost
  · obtain ⟨taken, hletters, hpart, hall⟩ := hs.order
    have hmap : (h.accepted ++ more.map fun reply => (c, reply)).map Prod.snd =
        h.accepted.map Prod.snd ++ more := by
      rw [List.map_append, List.map_map]
      exact congrArg _ (List.map_id more)
    refine ⟨taken, hletters, hpart.trans (List.prefix_append ..), fun hopen => ?_⟩
    show List.map Prod.snd (h.accepted ++ _) =
      taken.map Prod.snd ++ (s.exchange.hub.queue h.queue).replies
    rw [hmap, hqueued, hall (hended.symm.trans hopen), List.append_assoc]

/-- What others do spares the socket. -/
theorem Sound.spared (hs : Sound limits h) (hloops : s.loops = h.service.loops)
    (hapart : s.Apart limits h.queue) (hspares : h.hub.Spares h.queue s.exchange.hub) :
    Sound limits { h with service := s } := by
  have hcarry := hs.carry 0 [] hloops hapart hspares.toGrows
    (fun r hr _ => hspares.connection r.1 (hs.own r hr).1
      (congrArg Connection.queue (hs.own r hr).2))
    (by rw [hspares.queue, List.append_nil]; rfl) (by rw [List.append_nil]; exact hs.room)
    (absurd rfl)
  rwa [List.map_nil, List.append_nil] at hcarry

/-- The first socket of a service, on which it begins to serve. -/
theorem loop?_start (hnone : s.loops = []) {network : Network} (hkind : network.kind = .datagram)
    (binding : Binding) (isAwaited : Bool) :
    (start s network binding isAwaited).loop? = some ⟨⟨s.life.fresh, network, binding.address⟩,
      binding, isAwaited, some (.ofSize s.exchange.hub.queues.length
        s.exchange.plan.settings.datagramBuffer)⟩ := by
  obtain ⟨-, -, hloops⟩ := s.serveOn_datagram hkind binding isAwaited
  show (s.serveOn network binding isAwaited).loops.find? _ = _
  rw [hloops, hnone]
  exact List.find?_cons_of_pos (decide_eq_true rfl)

theorem ended_start (hnone : s.loops = []) {network : Network} (hkind : network.kind = .datagram)
    (binding : Binding) (isAwaited : Bool) : (start s network binding isAwaited).ended = false := by
  rw [ended, loop?_start hnone hkind]
  rfl

/-- A service begins to serve on a socket. -/
theorem sound_start (hs : s.Placed) (hnone : s.loops = []) {network : Network}
    (hkind : network.kind = .datagram) (binding : Binding) (isAwaited : Bool) :
    Sound s.exchange.plan.settings (start s network binding isAwaited) := by
  obtain ⟨hlines, hexchange, -⟩ := s.serveOn_datagram hkind binding isAwaited
  have hqueue : (start s network binding isAwaited).hub.queue s.exchange.hub.queues.length =
      .ofCapacity s.exchange.plan.settings.queueCapacity := by
    show (s.serveOn network binding isAwaited).exchange.hub.queue _ = _
    rw [hexchange]
    exact Hub.queue_addQueue s.exchange.hub _
  have hqueued : (start s network binding isAwaited).queued = [] :=
    congrArg ReplyQueue.replies hqueue
  have hloop := loop?_start hnone hkind binding isAwaited
  have hopen := ended_start hnone hkind binding isAwaited
  exact
    { apart := hs.apart hlines hexchange
      socket := fun loop h => by
        obtain rfl := Option.some.inj (hloop.symm.trans h)
        exact ⟨rfl, _, rfl, List.length_replicate⟩
      capacity := congrArg ReplyQueue.capacity hqueue
      reader := (congrArg ReplyQueue.hasReader hqueue).trans (congrArg Bool.not hopen.symm)
      room := by rw [hqueued]; exact Nat.zero_le _
      blocks := rfl
      rising := .nil
      own := nofun
      fresh := nofun
      begun := nofun
      accepted := nofun
      lost := fun _ => hqueued
      order := ⟨[], rfl, List.nil_prefix, fun _ => hqueued.symm⟩ }

/-! ### Datagrams that arrive -/

/-- A datagram without a block arrived. -/
theorem Sound.noted (hs : Sound limits h) (peer : String) {datagram : Bytes}
    (hblock : Datagram.block? (datagram.take limits.datagramBuffer) = none) :
    Sound limits { h with arrived := h.arrived ++ [(peer, datagram)] } := by
  refine { hs with blocks := ?_ }
  rw [Datagram.blocksOf_concat, hblock]
  exact hs.blocks.trans (List.append_nil _).symm

/-- A datagram arrived and its block is dispatched on a connection that has joined. -/
theorem Sound.joined (hs : Sound limits h) (peer : String) {datagram block : Bytes}
    (hblock : Datagram.block? (datagram.take limits.datagramBuffer) = some block)
    (hlast : ∀ r ∈ h.dispatched, r.1 < c) (hc : c < h.hub.connections.length) (id : Nat)
    (hnew : h.hub.connection c =
      .ofPeer id h.network peer limits.marshaller h.queue true false) :
    Sound limits { h with
      arrived := h.arrived ++ [(peer, datagram)]
      dispatched := h.dispatched ++ [(c, block)] } := by
  have hmem {r : Place × Bytes} (hr : r ∈ h.dispatched ++ [(c, block)]) :
      r ∈ h.dispatched ∨ r = (c, block) := by
    simpa using hr
  refine
    { hs with
      blocks := ?_
      rising := ?_
      own := fun r hr => ?_
      fresh := fun r hr hnot => ?_
      begun := fun d hd => ?_ }
  · rw [Datagram.blocksOf_concat, hblock, List.map_append]
    show _ ++ [((h.hub.connection c).peer, block)] = _ ++ [(peer, block)]
    rw [hnew, ← hs.blocks]
    rfl
  · rw [List.map_append, List.pairwise_append]
    refine ⟨hs.rising, List.pairwise_singleton .., fun d hd e he => ?_⟩
    obtain ⟨r, hr, rfl⟩ := List.mem_map.mp hd
    obtain rfl : e = c := List.mem_singleton.mp he
    exact hlast r hr
  · rcases hmem hr with hr | rfl
    · exact hs.own r hr
    · refine ⟨hc, ?_⟩
      show (h.hub.connection c).made = .ofPeer (h.hub.connection c).id h.network
        (h.hub.connection c).peer _ _ _ _
      rw [hnew]
      rfl
  · rcases hmem hr with hr | rfl
    · exact hs.fresh r hr hnot
    · show h.hub.connection c = (h.hub.connection c).made
      rw [hnew]
      rfl
  · rw [List.map_append]
    exact List.mem_append_left _ (hs.begun d hd)

/-- Nothing arrives at a socket that has ended. -/
theorem perform_arrives_of_none (hloop : h.loop? = none) (peer : String) (datagram : Bytes) :
    h.perform (.arrives peer datagram) = h := by
  have hended : h.ended = true := Option.isNone_iff_eq_none.mpr hloop
  rw [perform, Service.datagramArrives_of_none hloop, hended, if_pos rfl, List.drop_length,
    List.append_nil]

/-- **What an arrival is**: what of the datagram fits into the buffer is taken in. -/
theorem Sound.perform_arrives (hs : Sound limits h) {loop : Loop} (hloop : h.loop? = some loop)
    (peer : String) (datagram : Bytes) :
    ∃ loops, (∃ loop', loops.find? (fun loop => loop.listener.serial = h.serial) = some loop' ∧
        loop'.listener.network = h.network ∧
        ∃ buffer, loop'.mailbox = some ⟨h.queue, buffer⟩ ∧
          buffer.length = limits.datagramBuffer) ∧
      h.perform (.arrives peer datagram) =
        let x := h.service.exchange
        let x' := Datagram.receive h.network h.queue peer (datagram.take limits.datagramBuffer) x
        { h with
          service := { h.service with loops := loops, exchange := x' }
          arrived := h.arrived ++ [(peer, datagram)]
          dispatched := h.dispatched ++ x'.requests.drop x.requests.length } := by
  obtain ⟨hnetwork, buffer, hmailbox, hsize⟩ := hs.socket loop hloop
  obtain ⟨loops, harrives, hfind⟩ :=
    Service.datagramArrives_eq hloop hmailbox peer datagram
  have hopen : h.ended = false := by
    rw [ended, hloop]
    rfl
  refine ⟨loops, ⟨_, hfind, hnetwork, _, rfl, (length_read ..).trans hsize⟩, ?_⟩
  rw [perform, harrives, hopen]
  dsimp only
  rw [if_neg Bool.false_ne_true, hnetwork, hsize]

/-- The socket has another buffer. -/
theorem Sound.rebuffered (hs : Sound limits h) (hopen : h.ended = false) {loops : List Loop}
    (hloops : ∃ loop', loops.find? (fun loop => loop.listener.serial = h.serial) = some loop' ∧
      loop'.listener.network = h.network ∧
      ∃ buffer, loop'.mailbox = some ⟨h.queue, buffer⟩ ∧
        buffer.length = limits.datagramBuffer) :
    Sound limits { h with service := { h.service with loops := loops } } := by
  obtain ⟨loop', hfind, hsocket⟩ := hloops
  have hended : ({ h with service := { h.service with loops := loops } } : History).ended =
      h.ended := by
    rw [hopen, ended, loop?, Service.loop?, hfind]
    rfl
  exact
    { hs with
      apart := hs.apart.of_keeps rfl (Service.Keeps.refl _)
      socket := fun loop hloop => Option.some.inj (hfind.symm.trans hloop) ▸ hsocket
      reader := hs.reader.trans (congrArg Bool.not hended.symm)
      lost := fun hlost => hs.lost (hended.symm.trans hlost)
      order := by
        rw [hended]
        exact hs.order }

/-- **A datagram arrives**: it is dropped, or its block is dispatched on a connection of its own. -/
theorem Sound.arrives (hs : Sound limits h) (peer : String) (datagram : Bytes) :
    Sound limits (h.perform (.arrives peer datagram)) := by
  cases hloop : h.loop? with
  | none =>
    rw [perform_arrives_of_none hloop]
    exact hs
  | some loop =>
    obtain ⟨loops, hloops, hperform⟩ := hs.perform_arrives hloop peer datagram
    have hopen : h.ended = false := by
      rw [ended, hloop]
      rfl
    rw [hperform]
    have hbuffer := hs.rebuffered hopen hloops
    let move := Service.Move.receives h.network h.queue peer (datagram.take limits.datagramBuffer)
    have hspares : h.hub.Spares h.queue
        (({ h.service with loops := loops } : Service).perform move).exchange.hub :=
      hbuffer.apart.spares nofun nofun
    have hspared := hbuffer.spared
      (s := ({ h.service with loops := loops } : Service).perform move) rfl
      (hbuffer.apart.perform move) hspares
    cases hblock : Datagram.block? (datagram.take limits.datagramBuffer) with
    | none =>
      dsimp only
      rw [Datagram.receive_of_none hblock, List.drop_length, List.append_nil]
      exact hbuffer.noted peer hblock
    | some block =>
      dsimp only
      rw [Datagram.requests_receive hblock, List.drop_left]
      have hconnections := @Datagram.connections_receive h.network h.queue peer _ _
        h.service.exchange hblock
      refine hspared.joined peer hblock (fun r hr => (hs.own r hr).1) ?_
        h.service.exchange.nextId ?_
      · show _ < (Datagram.receive _ _ _ _ _).hub.connections.length
        rw [hconnections, List.length_append]
        exact Nat.lt_succ_self _
      · show (Datagram.receive _ _ _ _ _).hub.connections.getD _ default = _
        rw [hconnections, List.getD_eq_getElem?_getD, hs.apart.settings]
        exact congrArg (Option.getD · _) List.getElem?_concat_length

/-! ### Handlers -/

/-- The handlers of another request begin. -/
theorem Sound.begins (hs : Sound limits h) (c : Place) : Sound limits (h.perform (.begins c)) := by
  unfold perform
  dsimp only
  split
  · rename_i hc
    refine
      { hs with
        fresh := fun r hr hnot => hs.fresh r hr fun hbegun => hnot (List.mem_append_left _ hbegun)
        begun := fun d hd => ?_
        accepted := fun e he =>
          ⟨List.mem_append_left _ (hs.accepted e he).1, (hs.accepted e he).2⟩ }
    rcases List.mem_append.mp hd with hbefore | hnew
    · exact hs.begun d hbefore
    · exact List.mem_singleton.mp hnew ▸ hc
  · exact hs

/-- **Replies are only added**, as long as there is room, for whoever sent the datagram. -/
theorem Sound.queue_works (hs : Sound limits h) (hc : c ∈ h.begun) {hub : Hub}
    (hworks : h.hub.Works c hub) :
    ∃ more, hub.queue h.queue =
        { h.hub.queue h.queue with replies := h.queued ++ more } ∧
      (h.queued ++ more).length ≤ limits.queueCapacity ∧
      (more ≠ [] → h.ended = false ∧ c ∈ h.begun ∧
        ∀ reply ∈ more, reply.receiver = some (h.hub.connection c).peer) := by
  induction hworks with
  | nothing =>
    refine ⟨[], ?_, ?_, absurd rfl⟩
    · rw [List.append_nil]
      rfl
    · rw [List.append_nil]
      exact hs.room
  | @acts hub' hub'' hworks hacts ih =>
    obtain ⟨more, hqueue, hlength, hmore⟩ := ih
    cases hacts with
    | nothing => exact ⟨more, hqueue, hlength, hmore⟩
    | changes f hf => exact ⟨more, hqueue, hlength, hmore⟩
    | queues block hopen hreader hroom =>
      -- the connection is still as it was made, so the reply joins this queue
      have hmade := (hworks.onlyAt.made c).trans (hs.own_of_begun hc).2
      have hown : (hub'.connection c).queue = h.queue := congrArg Connection.queue hmade
      have hshares : (hub'.connection c).sharesQueue = true :=
        congrArg Connection.sharesQueue hmade
      have hpeer : (hub'.connection c).peer = (h.hub.connection c).peer :=
        (Connection.sameMake_of_made (hworks.onlyAt.made c)).peer
      have hlt : h.queue < hub'.queues.length := hworks.onlyAt.queues ▸ hs.apart.queue
      rw [Hub.queueOf, hown, hqueue] at hreader hroom
      refine ⟨more ++ [⟨block, (hub'.connection c).receiver⟩], ?_, ?_, fun _ => ⟨?_, hc, ?_⟩⟩
      · rw [Hub.enqueue, Hub.queueOf, hown, Hub.queue_modifyQueue_self _ _ hlt, hqueue,
          ← List.append_assoc]
      · rw [← List.append_assoc, List.length_append]
        exact hs.capacity ▸ hroom
      · exact (Bool.not_eq_true' _).mp (hs.reader.symm.trans hreader)
      · intro reply hreply
        rcases List.mem_append.mp hreply with hbefore | hnew
        · exact (hmore (List.ne_nil_of_mem hbefore)).2.2 reply hbefore
        · rw [List.mem_singleton.mp hnew, ← hpeer]
          exact if_pos hshares

/-- Something is done for a connection whose handlers have begun. -/
theorem Sound.served (hs : Sound limits h) (hc : c ∈ h.begun) (hloops : s.loops = h.service.loops)
    (hapart : s.Apart limits h.queue) (hworks : h.hub.Works c s.exchange.hub) :
    Sound limits (h.served c s) := by
  have hfresh : ∀ r ∈ h.dispatched, r.1 ∉ h.begun →
      s.exchange.connection r.1 = h.hub.connection r.1 := fun r _ hnot =>
    hworks.onlyAt.connection r.1 fun heq => hnot (heq ▸ hc)
  obtain ⟨more, hqueue, hroom, hmore⟩ := hs.queue_works hc hworks
  have hcarry := hs.carry c more hloops hapart hworks.onlyAt.grows hfresh hqueue hroom hmore
  have hdrop : (s.exchange.hub.queue h.queue).replies.drop h.queued.length = more := by
    rw [hqueue]
    exact List.drop_left
  dsimp only [History.served]
  rwa [hdrop]

/-- A request cannot reach the pool. -/
theorem Sound.reachesPool (hs : Sound limits h) (hc : c ∈ h.dispatched.map Prod.fst) :
    h.hub.reachesPool c = false := by
  obtain ⟨r, hr, rfl⟩ := List.mem_map.mp hc
  have hpooled : (h.hub.connection r.1).pooled = false :=
    congrArg Connection.pooled (hs.own r hr).2
  rw [Hub.reachesPool, hpooled, Bool.false_and]

theorem Sound.handles (hs : Sound limits h) (r : Request) (a : Action) :
    Sound limits (h.perform (.handles r a)) := by
  unfold perform
  dsimp only
  split
  · rename_i hr
    exact hs.served hr.1 rfl (hs.apart.perform (.handles r a))
      (.acts .nothing (Hub.acts_perform_of_not_reaches ⟨h.service.exchange.desk, r, false⟩ a
        (hs.reachesPool (hs.begun _ hr.1))))
  · exact hs

theorem Sound.fails (hs : Sound limits h) (c : Place) : Sound limits (h.perform (.fails c)) := by
  unfold perform
  dsimp only
  split
  · rename_i hc
    exact hs.served hc rfl (hs.apart.perform (.closes c)) (.acts .nothing (Hub.acts_close h.hub c))
  · exact hs

/-- A request runs as a whole. -/
theorem Sound.runs (hs : Sound limits h) (c : Place) (block : Bytes) :
    Sound limits (h.perform (.runs c block)) := by
  unfold perform
  dsimp only
  split
  · rename_i hr
    have hmem : c ∈ h.dispatched.map Prod.fst := List.mem_map.mpr ⟨_, hr.1, rfl⟩
    have hbegun := hs.begins c
    unfold perform at hbegun
    dsimp only at hbegun
    rw [if_pos hmem] at hbegun
    have hc : c ∈ h.begun ++ [c] := List.mem_append_right _ (List.mem_singleton_self c)
    have hworks := h.service.exchange.works_serve (hs.reachesPool hmem) block
    exact hbegun.served hc rfl (hs.apart.keeps (Service.keeps_of_onlyAt hworks.onlyAt
      (congrArg Connection.pooled (hbegun.own_of_begun hc).2) hworks.pool
      (Exchange.nextId_serve ..) (Exchange.plan_serve ..))) hworks
  · exact hs

/-! ### The queue -/

/-- **The queue of the socket changes**, and nobody else is touched. -/
theorem Sound.requeued (hs : Sound limits h) (f : ReplyQueue → ReplyQueue) (letters : List Letter)
    (hlines : s.lines = h.service.lines) (hkeeps : Service.Keeps h.service.exchange s.exchange)
    (hhub : s.exchange.hub = h.hub.modifyQueue h.queue f)
    (hsocket : ∀ loop, s.loop? h.serial = some loop → h.loop? = some loop)
    (hcapacity : (f (h.hub.queue h.queue)).capacity = (h.hub.queue h.queue).capacity)
    (hreader : (f (h.hub.queue h.queue)).hasReader = !(s.loop? h.serial).isNone)
    (hroom : (f (h.hub.queue h.queue)).replies.length ≤ limits.queueCapacity)
    (hlost : (s.loop? h.serial).isNone = true → (f (h.hub.queue h.queue)).replies = [])
    (horder : ∃ taken, letters = (taken.map Prod.snd).filterMap (Datagram.letter? h.serial) ∧
      taken <+: h.accepted ∧ ((s.loop? h.serial).isNone = false →
        h.accepted.map Prod.snd = taken.map Prod.snd ++ (f (h.hub.queue h.queue)).replies)) :
    Sound limits { h with service := s, letters := letters } := by
  have hqueue : s.exchange.hub.queue h.queue = f (h.hub.queue h.queue) := by
    rw [hhub]
    exact Hub.queue_modifyQueue_self _ _ hs.apart.queue
  have hconnection (c : Place) : s.exchange.hub.connection c = h.hub.connection c := by
    rw [hhub]
    rfl
  have hlength : s.exchange.hub.connections.length = h.hub.connections.length := by
    rw [hhub]
    rfl
  rw [← hqueue] at hcapacity hreader hroom hlost horder
  exact
    { apart := hs.apart.of_keeps hlines hkeeps
      socket := fun loop hloop => hs.socket loop (hsocket loop hloop)
      capacity := hcapacity.trans hs.capacity
      reader := hreader
      room := hroom
      blocks := by
        simp only [hub, hconnection]
        exact hs.blocks
      rising := hs.rising
      own := by
        simp only [hub, hconnection, hlength]
        exact hs.own
      fresh := by
        simp only [hub, hconnection]
        exact hs.fresh
      begun := hs.begun
      accepted := by
        simp only [hub, hconnection]
        exact hs.accepted
      lost := hlost
      order := horder }

/-- Where nothing waits, nothing is sent. -/
theorem Sound.perform_sends_of_nil (hs : Sound limits h) (hqueued : h.queued = []) :
    h.perform .sends = h := by
  rw [perform]
  cases hloop : h.loop? with
  | none => rfl
  | some loop =>
    obtain ⟨-, buffer, hmailbox, -⟩ := hs.socket loop hloop
    dsimp only
    rw [Service.sendLetter_of_nil hmailbox hqueued, List.drop_length, List.append_nil]

/-- **The oldest reply is taken out of the queue and sent.** -/
theorem Sound.perform_sends (hs : Sound limits h) {reply : Reply} {rest : List Reply}
    (hqueued : h.queued = reply :: rest) :
    ∃ letters, h.perform .sends =
      { h with
        service := { h.service with
          letters := letters
          exchange := h.service.exchange.withHub (h.hub.modifyQueue h.queue fun _ =>
            { h.hub.queue h.queue with replies := rest }) }
        letters := h.letters ++ (Datagram.letter? h.serial reply).toList } := by
  rw [perform]
  cases hloop : h.loop? with
  | none =>
    rw [hs.lost (Option.isNone_iff_eq_none.mpr hloop)] at hqueued
    exact nomatch hqueued
  | some loop =>
    obtain ⟨-, buffer, hmailbox, -⟩ := hs.socket loop hloop
    have hserial : loop.listener.serial = h.serial := of_decide_eq_true (List.find?_some hloop :)
    dsimp only
    rw [Service.sendLetter_of_cons hmailbox hqueued, hserial]
    dsimp only
    rw [List.drop_left]
    exact ⟨_, rfl⟩

theorem Sound.sends (hs : Sound limits h) : Sound limits (h.perform .sends) := by
  cases hqueued : h.queued with
  | nil =>
    rw [hs.perform_sends_of_nil hqueued]
    exact hs
  | cons reply rest =>
    obtain ⟨letters, hperform⟩ := hs.perform_sends hqueued
    have hopen : h.ended = false := by
      refine Bool.eq_false_iff.mpr fun hended => ?_
      rw [hs.lost hended] at hqueued
      exact nomatch hqueued
    obtain ⟨taken, hletters, ⟨more, hpart⟩, hall⟩ := hs.order
    -- the reply sent is the next of those that were queued
    have hmore : more.map Prod.snd = reply :: rest := by
      have hall := hall hopen
      rw [← hpart, List.map_append, hqueued] at hall
      exact List.append_cancel_left hall
    obtain ⟨e, more, rfl, hreply, hrest⟩ := List.map_eq_cons_iff.mp hmore
    have hpart : taken ++ [e] ++ more = h.accepted := by
      rw [List.append_assoc]
      exact hpart
    rw [hperform]
    refine hs.requeued (fun _ => { h.hub.queue h.queue with replies := rest }) _ rfl
      (Service.keeps_modifyQueue ..) rfl (fun _ => id) rfl hs.reader ?_ ?_
      ⟨taken ++ [e], ?_, ⟨more, hpart⟩, fun _ => ?_⟩
    · have hroom := hs.room
      rw [hqueued] at hroom
      exact Nat.le_of_succ_le hroom
    · exact fun hended => absurd (hopen.symm.trans hended) Bool.false_ne_true
    · rw [hletters, List.map_append, List.filterMap_append, List.map_singleton, hreply]
      cases hletter : Datagram.letter? h.serial reply <;> simp [hletter]
    · rw [← hpart, List.map_append, hrest]

/-- **What it is to look**: a socket that was told ends, and nobody takes replies out of its queue
any more; any other serves on. -/
theorem Sound.perform_ends (hs : Sound limits h) :
    ((h.told = true → h.ended = true) ∧ h.perform .ends = h) ∨
      h.told = true ∧ ∃ s : Service, h.perform .ends = { h with service := s } ∧
        s.lines = h.service.lines ∧ Service.Keeps h.service.exchange s.exchange ∧
        s.exchange.hub = h.hub.modifyQueue h.queue ReplyQueue.abandon ∧
        s.loop? h.serial = none := by
  rw [perform]
  cases hloop : h.loop? with
  | none => exact .inl ⟨fun _ => Option.isNone_iff_eq_none.mpr hloop, rfl⟩
  | some loop =>
    obtain ⟨-, buffer, hmailbox, -⟩ := hs.socket loop hloop
    have hserial : loop.listener.serial = h.serial := of_decide_eq_true (List.find?_some hloop :)
    have htold : h.service.life.isTold loop.listener = h.told := by
      rw [Lifecycle.isTold, hserial, told]
    dsimp only
    cases hlistener : h.service.life.isTold loop.listener with
    | false =>
      rw [Service.endLoop_of_not_told hlistener]
      exact .inl ⟨fun h' => (nomatch h'.symm.trans (htold.symm.trans hlistener)), rfl⟩
    | true =>
      obtain ⟨hlines, hkeeps, hhub, hnone⟩ := Service.endLoop_of_told hlistener hmailbox
      exact .inr ⟨htold ▸ hlistener, _, rfl, hlines, hkeeps, hhub, hserial ▸ hnone⟩

theorem Sound.ends (hs : Sound limits h) : Sound limits (h.perform .ends) := by
  rcases hs.perform_ends with ⟨-, hsame⟩ | ⟨-, s, hends, hlines, hkeeps, hhub, hnone⟩
  · rw [hsame]
    exact hs
  · obtain ⟨taken, hletters, hpart, -⟩ := hs.order
    rw [hends]
    refine hs.requeued ReplyQueue.abandon h.letters hlines hkeeps hhub ?_ rfl ?_
      (Nat.zero_le _) (fun _ => rfl) ⟨taken, hletters, hpart, ?_⟩ <;> rw [hnone]
    · exact nofun
    · rfl
    · exact nofun

theorem Sound.passes (hs : Sound limits h) (o : Service.Occurrence) :
    Sound limits (h.perform (.passes o)) := by
  unfold perform
  dsimp only
  split
  · rename_i helsewhere
    exact hs.spared (Service.loops_occur _ o) (hs.apart.occur o) (hs.apart.spares_occur helsewhere)
  · exact hs

/-- **Every act keeps it.** -/
theorem Sound.perform (hs : Sound limits h) (act : Act) : Sound limits (h.perform act) := by
  cases act with
  | arrives peer datagram => exact hs.arrives peer datagram
  | begins c => exact hs.begins c
  | handles r a => exact hs.handles r a
  | fails c => exact hs.fails c
  | runs c block => exact hs.runs c block
  | sends => exact hs.sends
  | ends => exact hs.ends
  | passes o => exact hs.passes o

theorem Sound.run (hs : Sound limits h) (acts : List Act) : Sound limits (h.run acts) := by
  induction acts generalizing h with
  | nil => exact hs
  | cons act acts ih => exact ih (hs.perform act)

end Switchboard.Mailbox.History
