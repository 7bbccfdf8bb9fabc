import Switchboard.Proofs.Service.Datagrams
import Switchboard.Proofs.Service.Echoes

/-!
# Proofs/Service/Posts — one block sent to the echo service in a datagram

What a datagram socket has dispatched, queued and sent is never undone (`Mailbox.History.Later`),
and a reply has left once as many replies were sent as were queued up to it
(`Mailbox.History.Sound.letters_of_sends`).  The request of one datagram is left alone by whatever
serves others (`Mailbox.History.Waits`); so when it runs, the echo service queues one reply for it,
for the peer that sent the datagram, and never another (`Mailbox.History.Sound.answers`).
-/

namespace Switchboard

namespace Mailbox

/-- The connection of the request that an act serves. -/
def Act.place? : Act → Option Place
  | .begins c | .fails c | .runs c _ => some c
  | .handles r _ => some r.place
  | _ => none

namespace History

variable {limits : Settings} {h h' h'' : History} {c : Place} {peer : String} {block : Bytes}

/-! ## What is never undone -/

/-- How many of the replies queued are no longer in the queue. -/
def gone (h : History) : Nat := h.accepted.length - h.queued.length

/-- **What never goes back.** -/
structure Later (h h' : History) : Prop where
  plan : h'.service.exchange.plan = h.service.exchange.plan
  serial : h'.serial = h.serial
  grows : h.hub.Grows h'.hub
  dispatched : h.dispatched <+: h'.dispatched
  accepted : h.accepted <+: h'.accepted
  gone : h.gone ≤ h'.gone

theorem Later.refl (h : History) : Later h h :=
  ⟨rfl, rfl, .refl _, List.prefix_refl _, List.prefix_refl _, Nat.le_refl _⟩

theorem Later.trans (hl : Later h h') (hl' : Later h' h'') : Later h h'' where
  plan := hl'.plan.trans hl.plan
  serial := hl'.serial.trans hl.serial
  grows := hl.grows.trans hl'.grows
  dispatched := hl.dispatched.trans hl'.dispatched
  accepted := hl.accepted.trans hl'.accepted
  gone := Nat.le_trans hl.gone hl'.gone

/-- Nothing is queued that was not accepted. -/
theorem Sound.length_queued_le (hs : Sound limits h) : h.queued.length ≤ h.accepted.length := by
  cases hended : h.ended with
  | true =>
    rw [hs.lost hended]
    exact Nat.zero_le _
  | false =>
    obtain ⟨taken, -, -, hall⟩ := hs.order
    have hlength := congrArg List.length (hall hended)
    rw [List.length_map, List.length_append] at hlength
    omega

/-- Something is done for a connection. -/
theorem later_served (c : Place) {s : Service} (hgrows : h.hub.Grows s.exchange.hub)
    (hplan : s.exchange.plan = h.service.exchange.plan) : Later h (h.served c s) where
  plan := hplan
  serial := rfl
  grows := hgrows
  dispatched := List.prefix_refl _
  accepted := List.prefix_append ..
  gone := by
    show _ ≤ (h.accepted ++ ((s.exchange.hub.queue h.queue).replies.drop
      h.queued.length).map fun reply => (c, reply)).length -
        (s.exchange.hub.queue h.queue).replies.length
    rw [gone, List.length_append, List.length_map, List.length_drop]
    omega

/-- The queue changes and gets no longer. -/
theorem Sound.later_requeued (hs : Sound limits h) {s : Service} (f : ReplyQueue → ReplyQueue)
    (hplan : s.exchange.plan = h.service.exchange.plan)
    (hhub : s.exchange.hub = h.hub.modifyQueue h.queue f)
    (hle : (f (h.hub.queue h.queue)).replies.length ≤ h.queued.length) (letters : List Letter) :
    Later h { h with service := s, letters := letters } where
  plan := hplan
  serial := rfl
  grows := by
    show h.hub.Grows s.exchange.hub
    rw [hhub]
    exact Hub.grows_modifyQueue ..
  dispatched := List.prefix_refl _
  accepted := List.prefix_refl _
  gone := by
    show _ ≤ h.accepted.length - (s.exchange.hub.queue h.queue).replies.length
    rw [hhub, Hub.queue_modifyQueue_self h.hub _ hs.apart.queue]
    exact Nat.sub_le_sub_left hle _

theorem Sound.later_arrives (hs : Sound limits h) (peer : String) (datagram : Bytes) :
    Later h (h.perform (.arrives peer datagram)) := by
  cases hloop : h.loop? with
  | none =>
    rw [perform_arrives_of_none hloop]
    exact .refl h
  | some loop =>
    obtain ⟨loops, -, hperform⟩ := hs.perform_arrives hloop peer datagram
    rw [hperform]
    refine
      { plan := ?_
        serial := rfl
        grows := h.service.grows_perform (.receives h.network h.queue peer
          (datagram.take limits.datagramBuffer))
        dispatched := List.prefix_append ..
        accepted := List.prefix_refl _
        gone := Nat.le_of_eq ?_ }
    · show (Datagram.receive ..).plan = _
      unfold Datagram.receive
      split <;> rfl
    · show _ = h.accepted.length -
        ((Datagram.receive _ _ _ _ h.service.exchange).hub.queue h.queue).replies.length
      unfold Datagram.receive
      split <;> rfl

theorem Sound.later_sends (hs : Sound limits h) : Later h (h.perform .sends) := by
  cases hqueued : h.queued with
  | nil =>
    rw [hs.perform_sends_of_nil hqueued]
    exact .refl h
  | cons reply rest =>
    obtain ⟨letters, hperform⟩ := hs.perform_sends hqueued
    rw [hperform]
    refine hs.later_requeued (fun _ => { h.hub.queue h.queue with replies := rest }) ?_ ?_
      (hqueued ▸ Nat.le_succ _) _
    · rfl
    · rfl

theorem Sound.later_ends (hs : Sound limits h) : Later h (h.perform .ends) := by
  rcases hs.perform_ends with ⟨-, hsame⟩ | ⟨-, s, hends, -, hkeeps, hhub, -⟩
  · rw [hsame]
    exact .refl h
  · rw [hends]
    exact hs.later_requeued ReplyQueue.abandon hkeeps.plan hhub (Nat.zero_le _) h.letters

/-- **Nothing is undone by an act.** -/
theorem Sound.later_perform (hs : Sound limits h) (act : Act) : Later h (h.perform act) := by
  cases act with
  | arrives peer datagram => exact hs.later_arrives peer datagram
  | sends => exact hs.later_sends
  | ends => exact hs.later_ends
  | begins c =>
    unfold History.perform
    dsimp only
    split
    · exact ⟨rfl, rfl, .refl _, List.prefix_refl _, List.prefix_refl _, Nat.le_refl _⟩
    · exact .refl h
  | handles r a =>
    unfold History.perform
    dsimp only
    split
    · exact later_served r.place (h.service.grows_perform (.handles r a)) rfl
    · exact .refl h
  | fails c =>
    unfold History.perform
    dsimp only
    split
    · exact later_served c (h.service.grows_perform (.closes c)) rfl
    · exact .refl h
  | runs c block =>
    unfold History.perform
    dsimp only
    split
    · rename_i hr
      have hreach := hs.reachesPool (List.mem_map.mpr ⟨_, hr.1, rfl⟩)
      have hserved := later_served (h := { h with begun := h.begun ++ [c] }) c
        (s := h.service.onExchange fun x => x.serve c block)
        (h.service.exchange.works_serve hreach block).onlyAt.grows (Exchange.plan_serve ..)
      exact { hserved with }
    · exact .refl h
  | passes o =>
    unfold History.perform
    dsimp only
    split
    · rename_i helsewhere
      have hspares := hs.apart.spares_occur helsewhere
      exact ⟨Service.plan_occur hs.apart.placed o, rfl, hspares.toGrows, List.prefix_refl _,
        List.prefix_refl _, Nat.le_of_eq (by
          show h.gone = h.accepted.length -
            ((h.service.occur o).exchange.hub.queue h.queue).replies.length
          rw [hspares.queue]
          rfl)⟩
    · exact .refl h

theorem Sound.later_run (hs : Sound limits h) (acts : List Act) : Later h (h.run acts) := by
  induction acts generalizing h with
  | nil => exact .refl h
  | cons act acts ih => exact (hs.later_perform act).trans (ih (hs.perform act))

/-! ## Sending -/

/-- A reply that waits is taken out. -/
theorem Sound.gone_sends (hs : Sound limits h) :
    min (h.gone + 1) h.accepted.length ≤ (h.perform .sends).gone := by
  have hle := hs.length_queued_le
  have haccepted := hs.later_sends.accepted.length_le
  rw [gone, gone, hs.queued_sends, List.length_tail]
  omega

/-- **As many replies leave** as are sent, if there are so many. -/
theorem Sound.gone_run (hs : Sound limits h) (n : Nat) {acts : List Act}
    (hsends : (List.replicate n Act.sends).Sublist acts) :
    min (h.gone + n) h.accepted.length ≤ (h.run acts).gone := by
  induction n generalizing h acts with
  | zero => exact Nat.le_trans (Nat.min_le_left ..) (hs.later_run acts).gone
  | succ n ih =>
    obtain ⟨before, after, rfl, hact, hafter⟩ := List.cons_sublist_iff.mp hsends
    obtain ⟨before, between, rfl⟩ := List.append_of_mem hact
    have hrun : h.run (before ++ .sends :: between ++ after) =
        ((h.run before).perform .sends).run (between ++ after) := by
      rw [List.append_assoc, History.run, List.foldl_append]
      rfl
    have hbefore := hs.later_run before
    have hs' := hs.run before
    have hless := hs'.gone_sends
    have hmore := ih (hs'.perform .sends) (hafter.trans (List.sublist_append_right between _))
    have hgone := hbefore.gone
    have haccepted := hbefore.accepted.length_le
    have haccepted' := (hs'.later_perform .sends).accepted.length_le
    rw [hrun]
    omega

/-- **What was accepted has left** once as many replies were sent as were queued. -/
theorem Sound.letters_of_sends (hs : Sound limits h) {acts : List Act}
    (hsends : (List.replicate h.queued.length Act.sends).Sublist acts)
    (hopen : (h.run acts).ended = false) :
    (h.accepted.map Prod.snd).filterMap (Datagram.letter? h.serial) <+: (h.run acts).letters := by
  have hlater := hs.later_run acts
  have hgone := hs.gone_run _ hsends
  have hle := hs.length_queued_le
  obtain ⟨taken, hletters, -, hall⟩ := (hs.run acts).order
  have hall := hall hopen
  have hlength := congrArg List.length hall
  rw [List.length_map, List.length_append] at hlength
  rw [hletters, hlater.serial]
  refine List.IsPrefix.filterMap _ (List.prefix_of_prefix_length_le
    (hlater.accepted.map Prod.snd) (hall ▸ List.prefix_append ..) ?_)
  rw [List.length_map]
  simp only [gone] at hgone
  omega

/-! ## One request -/

/-- The replies that were queued for a request. -/
def repliesTo (h : History) (c : Place) : List Reply :=
  (h.accepted.filter (·.1 = c)).map Prod.snd

theorem repliesTo_served (h : History) {d : Place} (hd : d ≠ c) (s : Service) :
    (h.served d s).repliesTo c = h.repliesTo c := by
  have hnone (more : List Reply) :
      (more.map fun reply => (d, reply)).filter (fun e => decide (e.1 = c)) = [] := by
    refine List.filter_eq_nil_iff.mpr fun e he => ?_
    obtain ⟨reply, -, rfl⟩ := List.mem_map.mp he
    exact fun heq => hd (of_decide_eq_true heq)
  show ((h.accepted ++ _).filter _).map Prod.snd = _
  rw [List.filter_append, hnone, List.append_nil]
  rfl

/-- **Only what serves a request** queues replies for it. -/
theorem repliesTo_perform (h : History) {act : Act} (hact : act.place? ≠ some c) :
    (h.perform act).repliesTo c = h.repliesTo c := by
  have hother {d : Place} (hd : act.place? = some d) : d ≠ c := fun heq => hact (heq ▸ hd)
  cases act with
  | handles r a =>
    unfold perform
    dsimp only
    split
    · exact repliesTo_served h (hother rfl) _
    · rfl
  | fails d =>
    unfold perform
    dsimp only
    split
    · exact repliesTo_served h (hother rfl) _
    · rfl
  | runs d block =>
    unfold perform
    dsimp only
    split
    · exact repliesTo_served { h with begun := h.begun ++ [d] } (hother rfl) _
    · rfl
  | arrives => rfl
  | begins | sends | ends | passes =>
    unfold perform
    dsimp only
    split <;> rfl

theorem repliesTo_run (h : History) {acts : List Act} (hacts : ∀ act ∈ acts, act.place? ≠ some c) :
    (h.run acts).repliesTo c = h.repliesTo c := by
  induction acts generalizing h with
  | nil => rfl
  | cons act acts ih =>
    obtain ⟨hact, hacts⟩ := List.forall_mem_cons.mp hacts
    exact (ih (h.perform act) hacts).trans (repliesTo_perform h hact)

/-- Only what serves a request begins with it. -/
theorem not_mem_begun_perform {act : Act} (hact : act.place? ≠ some c) (hnot : c ∉ h.begun) :
    c ∉ (h.perform act).begun := by
  have hother {d : Place} (hd : act.place? = some d) : c ∉ h.begun ++ [d] := by
    intro hmem
    rcases List.mem_append.mp hmem with hbefore | hnew
    · exact hnot hbefore
    · exact hact (hd.trans (congrArg some (List.mem_singleton.mp hnew).symm))
  cases act with
  | begins d =>
    unfold perform
    dsimp only
    split
    · exact hother rfl
    · exact hnot
  | runs d block =>
    unfold perform
    dsimp only
    split
    · exact hother rfl
    · exact hnot
  | arrives => exact hnot
  | handles | fails | sends | ends | passes =>
    unfold perform
    dsimp only
    split <;> exact hnot

/-- **The request of a datagram waits**: it was dispatched and nothing has served it. -/
structure Waits (c : Place) (peer : String) (block : Bytes) (h : History) : Prop where
  dispatched : (c, block) ∈ h.dispatched
  waits : c ∉ h.begun
  peer : (h.hub.connection c).peer = peer

/-- **It waits** as long as nothing serves it. -/
theorem Waits.perform (hw : Waits c peer block h) (hs : Sound limits h) {act : Act}
    (hact : act.place? ≠ some c) : Waits c peer block (h.perform act) := by
  have hlater := hs.later_perform act
  have hmade := hlater.grows.made c (hs.own _ hw.dispatched).1
  exact ⟨hlater.dispatched.subset hw.dispatched, not_mem_begun_perform hact hw.waits,
    (Connection.sameMake_of_made hmade).peer.trans hw.peer⟩

theorem Waits.run (hw : Waits c peer block h) (hs : Sound limits h) {acts : List Act}
    (hacts : ∀ act ∈ acts, act.place? ≠ some c) : Waits c peer block (h.run acts) := by
  induction acts generalizing h with
  | nil => exact hw
  | cons act acts ih =>
    obtain ⟨hact, hacts⟩ := List.forall_mem_cons.mp hacts
    exact ih (hw.perform hs hact) (hs.perform act) hacts

/-- Nothing is queued for a request that waits. -/
theorem Waits.repliesTo (hw : Waits c peer block h) (hs : Sound limits h) : h.repliesTo c = [] := by
  refine List.map_eq_nil_iff.mpr (List.filter_eq_nil_iff.mpr fun e he heq => hw.waits ?_)
  exact of_decide_eq_true heq ▸ (hs.accepted e he).1

/-- **A datagram with a block** makes a request that waits. -/
theorem Sound.waits_arrives (hs : Sound limits h) (hopen : h.ended = false)
    (peer : String) {datagram : Bytes}
    (hblock : Datagram.block? (datagram.take limits.datagramBuffer) = some block) :
    Waits h.hub.connections.length peer block (h.perform (.arrives peer datagram)) := by
  have hconnections := @Datagram.connections_receive h.network h.queue peer _ _
    h.service.exchange hblock
  have hperform : (h.perform (.arrives peer datagram)).dispatched =
      h.dispatched ++ [(h.hub.connections.length, block)] ∧
        (h.perform (.arrives peer datagram)).hub.connections = h.hub.connections ++
          [.ofPeer h.service.exchange.nextId h.network peer
            h.service.exchange.plan.settings.marshaller h.queue true false] ∧
        (h.perform (.arrives peer datagram)).begun = h.begun := by
    obtain ⟨loop, hloop⟩ := Option.isSome_iff_exists.mp (Option.isNone_eq_false_iff.mp hopen)
    obtain ⟨loops, -, hperform⟩ := hs.perform_arrives hloop peer datagram
    rw [hperform]
    dsimp only
    rw [Datagram.requests_receive hblock, List.drop_left]
    exact ⟨rfl, hconnections, rfl⟩
  obtain ⟨hdispatched, hconnections, hbegun⟩ := hperform
  refine ⟨?_, ?_, ?_⟩
  · rw [hdispatched]
    exact List.mem_append_right _ (List.mem_singleton_self _)
  · rw [hbegun]
    intro hmem
    obtain ⟨r, hr, heq⟩ := List.mem_map.mp (hs.begun _ hmem)
    exact Nat.lt_irrefl _ (heq ▸ (hs.own r hr).1)
  · show ((h.perform (.arrives peer datagram)).hub.connections.getD _ default).peer = peer
    rw [hconnections, List.getD_eq_getElem?_getD, List.getElem?_concat_length]
    rfl

/-! ## The echo service -/

variable {interval : Option Nat} {b : Block}

/-- What the request of a block comes to, if it has begun. -/
theorem Sound.served_echo (hs : Sound limits h) (hc : c ∈ h.begun)
    (hplan : h.service.exchange.plan = Echo.served interval) (hb : b.Fits)
    (hopen : (h.hub.connection c).closed = false) (hserving : h.ended = false)
    (hroom : h.queued.length < limits.queueCapacity) :
    let h' := h.served c (h.service.onExchange fun x => x.serve c b.bytes)
    h'.accepted = h.accepted ++ (Echo.replies interval b).map
        (fun block => (c, ⟨block, some (h.hub.connection c).peer⟩)) ∧
      (h'.hub.connection c).heartbeat =
        (Echo.isBeat interval b.id || (h.hub.connection c).heartbeat) := by
  intro h'
  have hhub : h'.hub = if Echo.isBeat interval b.id then h.hub.noteHeartbeat c
      else (h.hub.send c (Echo.reply b).bytes).2 := by
    show (h.service.exchange.serve c b.bytes).hub = _
    rw [Echo.serve_served hb hplan]
    rfl
  have haccepted : h'.accepted = h.accepted ++
      ((h'.hub.queue h.queue).replies.drop h.queued.length).map fun reply => (c, reply) :=
    rfl
  rw [haccepted, hhub]
  cases hbeat : Echo.isBeat interval b.id with
  | true =>
    have hreplies : Echo.replies interval b = [] := if_pos hbeat
    rw [if_pos rfl, hreplies]
    refine ⟨congrArg (h.accepted ++ ·) (congrArg _ List.drop_length), ?_⟩
    exact congrArg Connection.heartbeat
      ((Hub.connection_modify ..).trans (if_pos ⟨rfl, (hs.own_of_begun hc).1⟩))
  | false =>
    have hreplies : Echo.replies interval b = [(Echo.reply b).bytes] := by
      rw [Echo.replies, hbeat]
      rfl
    obtain ⟨hub, hsend, hconnections, hqueued⟩ :=
      hs.send_of_room hc hopen hserving hroom (Echo.reply b).bytes
    rw [if_neg Bool.false_ne_true, hsend, hreplies, hqueued, List.drop_left]
    refine ⟨rfl, ?_⟩
    rw [Hub.connection, hconnections]
    rfl

/-- **What the request of a datagram comes to** when it runs. -/
theorem Waits.runs (hw : Waits c peer b.bytes h) (hs : Sound limits h)
    (hplan : h.service.exchange.plan = Echo.served interval) (hb : b.Fits)
    (hserving : h.ended = false) (hroom : h.queued.length < limits.queueCapacity) :
    let h' := h.perform (.runs c b.bytes)
    h'.accepted = h.accepted ++ (Echo.replies interval b).map
        (fun block => (c, ⟨block, some peer⟩)) ∧
      (h'.hub.connection c).heartbeat = Echo.isBeat interval b.id := by
  intro h'
  have hmem : c ∈ h.dispatched.map Prod.fst := List.mem_map.mpr ⟨_, hw.dispatched, rfl⟩
  have hbegins : h.perform (.begins c) = { h with begun := h.begun ++ [c] } := if_pos hmem
  have hs' : Sound limits { h with begun := h.begun ++ [c] } := hbegins ▸ hs.begins c
  have hfresh := hs.fresh _ hw.dispatched hw.waits
  have hserved := hs'.served_echo (List.mem_append_right _ (List.mem_singleton_self c)) hplan hb
    (congrArg Connection.closed hfresh) hserving hroom
  have hruns : h' = _ := if_pos ⟨hw.dispatched, hw.waits⟩
  rw [hruns]
  refine ⟨hserved.1.trans ?_, hserved.2.trans ?_⟩
  · show h.accepted ++ (Echo.replies interval b).map
      (fun block => (c, ⟨block, some (h.hub.connection c).peer⟩)) = _
    rw [hw.peer]
  · show (_ || (h.hub.connection c).heartbeat) = _
    rw [show (h.hub.connection c).heartbeat = false from congrArg Connection.heartbeat hfresh,
      Bool.or_false]

/-- **A request has been answered**: its replies are queued, for the peer that sent it and no others
after them, or it was noted as a heartbeat; what serves others changes nothing about that, and once
as many replies were sent as are queued now, its replies have left. -/
structure Answered (c : Place) (peer : String) (replies : List Bytes) (isBeat : Bool)
    (h : History) : Prop where
  noted : (h.hub.connection c).heartbeat = isBeat
  queued : ∀ later, (∀ act ∈ later, act.place? ≠ some c) →
    (h.run later).repliesTo c = replies.map fun reply => ⟨reply, some peer⟩
  left : ∀ later, (List.replicate h.queued.length Act.sends).Sublist later →
    (h.run later).ended = false → ∀ reply ∈ replies, reply.length ≤ Datagram.maxSize →
      ⟨h.serial, peer, reply⟩ ∈ (h.run later).letters

/-- A request whose replies are queued has been answered. -/
theorem Sound.answered (hs : Sound limits h) {replies : List Bytes} {isBeat : Bool}
    (hnoted : (h.hub.connection c).heartbeat = isBeat)
    (hqueued : h.repliesTo c = replies.map fun reply => ⟨reply, some peer⟩) :
    h.Answered c peer replies isBeat where
  noted := hnoted
  queued later haside := (repliesTo_run h haside).trans hqueued
  left later hsends hopen reply hreply hshort := by
    have hmem : (⟨reply, some peer⟩ : Reply) ∈ h.repliesTo c :=
      hqueued ▸ List.mem_map.mpr ⟨reply, hreply, rfl⟩
    obtain ⟨e, he, heq⟩ := List.mem_map.mp hmem
    exact (hs.letters_of_sends hsends hopen).subset (List.mem_filterMap.mpr
      ⟨⟨reply, some peer⟩, List.mem_map.mpr ⟨e, (List.mem_filter.mp he).1, heq⟩, if_pos hshort⟩)

/-- **A block that arrives in a datagram is answered** when its request runs, if there is room in
the queue then. -/
theorem Sound.answers (hs : Sound limits h) (hplan : h.service.exchange.plan = Echo.served interval)
    (hb : b.Fits) (hsize : b.bytes.length ≤ limits.datagramBuffer) (hopen : h.ended = false)
    (peer : String) {meanwhile : List Act}
    (hmeanwhile : ∀ act ∈ meanwhile, act.place? ≠ some h.hub.connections.length) :
    let c := h.hub.connections.length
    let h' := (h.perform (.arrives peer b.bytes)).run meanwhile
    (c, b.bytes) ∈ h'.dispatched ∧
      (h'.ended = false → h'.queued.length < limits.queueCapacity →
        (h'.perform (.runs c b.bytes)).Answered c peer (Echo.replies interval b)
          (Echo.isBeat interval b.id)) := by
  intro c h'
  have hblock : Datagram.block? (b.bytes.take limits.datagramBuffer) = some b.bytes := by
    rw [List.take_of_length_le hsize]
    exact Datagram.block?_eq_some_iff.mpr
      ⟨b, [], Block.begins_iff.mpr ⟨hb, (List.append_nil _).symm⟩, rfl⟩
  have hs₀ := hs.perform (.arrives peer b.bytes)
  have hs' : Sound limits h' := hs₀.run meanwhile
  have hw : Waits c peer b.bytes h' :=
    (hs.waits_arrives hopen peer hblock).run hs₀ hmeanwhile
  have hlater : Later h h' := (hs.later_perform _).trans (hs₀.later_run meanwhile)
  refine ⟨hw.dispatched, fun hserving hroom => ?_⟩
  obtain ⟨haccepted, hnoted⟩ := hw.runs hs' (hlater.plan.trans hplan) hb hserving hroom
  refine (hs'.perform _).answered hnoted ?_
  -- nothing was queued for it before, and all that is queued now is for it
  have hnone : (h'.accepted.filter fun e => decide (e.1 = c)).map Prod.snd = [] :=
    hw.repliesTo hs'
  have hall : ((Echo.replies interval b).map fun block =>
      (c, (⟨block, some peer⟩ : Reply))).filter (fun e => decide (e.1 = c)) = _ :=
    List.filter_eq_self.mpr fun e he => by
      obtain ⟨block, -, rfl⟩ := List.mem_map.mp he
      exact decide_eq_true rfl
  rw [repliesTo, haccepted, List.filter_append, List.map_append, hnone, List.nil_append, hall,
    List.map_map]
  rfl

end History

end Mailbox

end Switchboard
