import Switchboard.Proofs.Service.Dispatch
import Switchboard.Proofs.Service.Moves
import Switchboard.Proofs.Service.Open
import Switchboard.Proofs.Session.Echoing
import Switchboard.Proofs.Session.Performs

/-!
# Proofs/Service/Echoes — a line over which one block is sent to the echo service

The line is followed through its steps, and through whatever others do to what all lines share,
while its peer sends one block in any pieces and reads what comes back (`Line.Echoes`).  The block
is dispatched once, as soon as all of it was read (`Line.Echoes.dispatched_of_received`); its
request finds room for its reply, and the connection stays open unless a heartbeat is missed.
-/

namespace Switchboard

/-! ## The block -/

namespace Echo

variable {interval : Option Nat} {b : Block}

/-- **A block that the service can be sent**: it is within the limit and announces no followers. -/
structure Asks (b : Block) : Prop where
  fits : b.Fits
  short : b.declared ≤ Block.defaultMax
  alone (n : Nat) : ¬Intake.Announces b.bytes n

/-- What is sent back. -/
def replies (interval : Option Nat) (b : Block) : List Bytes :=
  if isBeat interval b.id then [] else [(reply b).bytes]

/-- What is sent back is within the limit. -/
theorem Asks.lengthOf_le (h : Asks b) {block : Bytes} (hblock : block ∈ replies interval b) :
    Sink.lengthOf block ≤ Block.defaultMax := by
  unfold replies at hblock
  split at hblock
  · exact nomatch hblock
  · rw [List.mem_singleton.mp hblock, Sink.lengthOf, Block.length_bytes, Nat.add_comm,
      Nat.add_sub_cancel]
    exact Nat.le_trans (declared_reply_le b) h.short

/-- The block is read as one unit. -/
theorem Asks.reading (h : Asks b) (limit : Nat) :
    Reading Block.defaultMax limit b.bytes [[b.bytes]] [] [] := by
  have hunit : Intake.IsUnit limit [b.bytes] := .alone ⟨b, h.fits, rfl⟩ h.alone
  have hread := Reading.unit hunit fun f hf =>
    List.mem_singleton.mp hf ▸ isFrame_bytes h.fits h.short
  rwa [List.flatten_singleton] at hread

variable {limit : Nat} {received tail : Bytes} {units : List (List Bytes)} {held : List Bytes}

/-- What has arrived of the block is not dead. -/
theorem Asks.not_dead (h : Asks b) (hread : Reading Block.defaultMax limit received units held tail)
    (hpart : received <+: b.bytes) : ¬Dead Block.defaultMax limit held tail := by
  intro hdead
  obtain ⟨rest, hrest⟩ := hpart
  obtain ⟨held', tail', hmore, hdead'⟩ := hread.dead_append hdead rest
  rw [hrest] at hmore
  obtain ⟨-, rfl, rfl⟩ := (h.reading limit).unique hmore
  rcases hdead' with ⟨n, hn, -⟩ | hstuck
  · exact nomatch hn
  · exact nomatch hstuck

/-- Reading does not end, as long as the peer has not finished. -/
theorem Asks.intake_ne_none (h : Asks b) {r : Line.History} (hs : r.Sound Block.defaultMax limit)
    (hfound : r.foundClosed = false) (hpart : r.received <+: b.bytes)
    (hsending : r.line.socket.peerFinished = false) : r.line.intake ≠ none := by
  intro hnone
  obtain ⟨units, readUp, rest, hall, -, hstate⟩ := hs
  rw [hnone] at hstate
  obtain ⟨held, tail, hread, hend⟩ := hstate
  rcases hend hfound with hdead | ⟨hfinished, -⟩
  · exact h.not_dead hread (List.IsPrefix.trans ⟨rest, hall.symm⟩ hpart) hdead
  · exact Bool.false_ne_true (hsending.symm.trans hfinished)

/-- Of what has arrived of the block, nothing or the block is a unit. -/
theorem Asks.units_eq (h : Asks b) (hread : Reading Block.defaultMax limit received units held tail)
    (hpart : received <+: b.bytes) : units = [] ∨ units = [[b.bytes]] := by
  obtain ⟨rest, hrest⟩ := hpart
  obtain ⟨more, _, _, hmore⟩ := hread.extend rest
  rw [hrest] at hmore
  obtain ⟨hunits, -, -⟩ := (h.reading limit).unique hmore
  rcases List.append_eq_singleton_iff.mp hunits with ⟨hnone, -⟩ | ⟨hone, -⟩
  · exact .inl hnone
  · exact .inr hone

/-! ## The plan -/

@[simp] theorem settings_served (interval : Option Nat) :
    (served interval).settings = .standard := by
  cases interval <;> rfl

@[simp] theorem auth_served (interval : Option Nat) : (served interval).auth = none := by
  cases interval <;> rfl

@[simp] theorem hooks_served (interval : Option Nat) : (served interval).hooks = .none := by
  cases interval <;> rfl

/-- What the request of the block comes to. -/
theorem serve_served (hb : b.Fits) {x : Exchange} (hplan : x.plan = served interval) (c : Place) :
    x.serve c b.bytes =
      { x with desk := ⟨if isBeat interval b.id then x.hub.noteHeartbeat c
        else (x.hub.send c (reply b).bytes).2, x.desk.uses, []⟩ } := by
  rw [Exchange.serve, runRequest_served hb hplan]
  rfl

end Echo

/-! ## The line -/

namespace Line

/-- What has come of one block sent over a line. -/
structure Visit where
  /-- What the peer has sent of it. -/
  received : Bytes
  /-- The requests dispatched. -/
  dispatched : List (Place × Bytes)
  /-- How many of them have run. -/
  ran : Nat
  /-- How many heartbeats the watch has counted. -/
  counted : Nat

/-- What came of it is never undone. -/
structure Visit.Grows (v v' : Visit) : Prop where
  received : v.received <+: v'.received
  dispatched : v.dispatched <+: v'.dispatched
  ran : v.ran ≤ v'.ran

theorem Visit.Grows.refl (v : Visit) : v.Grows v :=
  ⟨List.prefix_refl _, List.prefix_refl _, Nat.le_refl _⟩

theorem Visit.Grows.trans {v v' v'' : Visit} (h : v.Grows v') (h' : v'.Grows v'') : v.Grows v'' :=
  ⟨h.received.trans h'.received, h.dispatched.trans h'.dispatched, Nat.le_trans h.ran h'.ran⟩

/-- **The line over which the peer sends its block.**  It reads, its connection is open and its
outlet writes what was queued; what was dispatched and what was queued are what the block comes
to. -/
structure Echoes (interval : Option Nat) (b : Block) (v : Visit) (l : Line) (x : Exchange) :
    Prop where
  plan : x.plan = Echo.served interval
  stage : l.stage = .accepted ∨ l.stage = .served
  auth : l.auth = none
  signal : l.signal = none
  intake : l.intake ≠ none
  received : v.received <+: b.bytes
  reading : History.Sound Block.defaultMax 64 ⟨l, v.received, v.dispatched, false⟩
  writing : Outlet.History.Opened 1024 Block.defaultMax
    (.ofLine l x (((Echo.replies interval b).take v.ran).map (·, .ok ())))
  ran : v.ran ≤ v.dispatched.length
  beats : v.counted + (x.connection l.place).heartbeat.toNat =
    if Echo.isBeat interval b.id then v.ran else 0

variable {interval : Option Nat} {b : Block} {v : Visit} {l : Line} {x x' : Exchange}

/-- The line when it was just accepted. -/
theorem echoes_accept (network : Network) (peer : String) (hplan : x.plan = Echo.served interval)
    (b : Block) : Echoes interval b ⟨[], [], 0, 0⟩ (accept network peer x).1
      (accept network peer x).2 := by
  have hreading := History.sound_start network peer x
  have hsound := Outlet.History.sound_start network peer x
  rw [hplan, Echo.settings_served] at hreading hsound
  have hconnection := Outlet.History.connection_start network peer x
  exact
    { plan := hplan
      stage := .inl rfl
      auth := rfl
      signal := rfl
      intake := nofun
      received := List.nil_prefix
      reading := hreading
      writing :=
        { sound := hsound
          kept := Outlet.History.kept_start network peer x
          fits := nofun
          opened := congrArg Connection.closed hconnection
          stream := ⟨rfl, rfl, rfl⟩
          writes := .inl rfl }
      ran := Nat.le_refl _
      beats := by
        have hflag := congrArg Connection.heartbeat hconnection
        show 0 + Bool.toNat ((accept network peer x).2.connection _).heartbeat = _
        rw [show ((accept network peer x).2.connection (accept network peer x).1.place).heartbeat =
          false from hflag]
        split <;> rfl }

/-! ### What was dispatched -/

theorem Echoes.isClosed (h : Echoes interval b v l x) : l.isClosed x = false := h.writing.opened

theorem Echoes.stream (h : Echoes interval b v l x) : l.socket.Holds := h.writing.stream

/-- **The block is dispatched once at most.** -/
theorem Echoes.dispatched_eq (h : Echoes interval b v l x) (hb : Echo.Asks b) :
    v.dispatched = [] ∨ v.dispatched = [(l.place, b.bytes)] := by
  obtain ⟨units, readUp, rest, held, tail, hall, hunits, hread⟩ := h.reading.exists_reading
  have hpart : readUp <+: b.bytes :=
    List.IsPrefix.trans ⟨rest, hall.symm⟩ h.received
  have hdispatched : v.dispatched = History.requestsOf l.place units := hunits
  rcases hb.units_eq hread hpart with rfl | rfl
  · exact .inl hdispatched
  · exact .inr hdispatched

/-- The replies that wait. -/
def queued (l : Line) (x : Exchange) : List Bytes :=
  (x.hub.queueOf l.place).replies.map Reply.block

/-- How far the line is from having written everything. -/
def togo (l : Line) (x : Exchange) : Nat := l.outlet.distance (l.queued x)

theorem togo_eq (l : Line) (x : Exchange) (sends : List (Bytes × Except SessionError Unit)) :
    l.togo x = (Outlet.History.ofLine l x sends).outlet.distance
      (Outlet.History.ofLine l x sends).queued := rfl

/-- **The line goes on**: once served it is served, and it gets on with writing, or nothing was
written and no more waits for the peer. -/
structure GoesOn (l : Line) (x : Exchange) (r : Line × Exchange) : Prop where
  place : r.1.place = l.place
  served : l.stage = .served → r.1.stage = .served
  writes : r.1.togo r.2 < l.togo x ∨
    r.1.togo r.2 = l.togo x ∧ r.1.socket.waiting ≤ l.socket.waiting

variable {r : Line × Exchange}

/-- The outlet and the queue stay as they are. -/
theorem goesOn_of_same (hplace : r.1.place = l.place)
    (hserved : l.stage = .served → r.1.stage = .served) (houtlet : r.1.outlet = l.outlet)
    (hqueue : r.2.hub.queueOf l.place = x.hub.queueOf l.place)
    (hwaiting : r.1.socket.waiting ≤ l.socket.waiting) : GoesOn l x r where
  place := hplace
  served := hserved
  writes := .inr ⟨by rw [togo, togo, queued, queued, hplace, houtlet, hqueue], hwaiting⟩

theorem GoesOn.refl (l : Line) (x : Exchange) : GoesOn l x (l, x) :=
  goesOn_of_same rfl id rfl rfl (Nat.le_refl _)

/-! ### Steps of the line -/

/-- The hook for connections that open does nothing. -/
theorem Echoes.welcome (h : Echoes interval b v l x) : l.welcome x = (l, x) := by
  unfold Line.welcome runOpeningHook
  rw [h.plan, Echo.hooks_served]
  split <;> rfl

theorem Echoes.leave (h : Echoes interval b v l x) : l.leave x = (l, x) :=
  if_neg fun hdone => h.intake hdone.2.1

theorem Echoes.depart (h : Echoes interval b v l x) : l.depart x = (l, x) :=
  if_neg fun hdone => h.intake hdone.2

/-- The watches are set up. -/
theorem Echoes.equip (h : Echoes interval b v l x) :
    Echoes interval b v (l.equip x).1 (l.equip x).2 ∧ GoesOn l x (l.equip x) ∧
      (l.equip x).1.stage = .served := by
  unfold Line.equip
  split
  · have hsignal : x.plan.settings.closesBySignal = false := by
      rw [h.plan, Echo.settings_served]
      rfl
    refine ⟨{ h with stage := .inr rfl, auth := ?_, signal := ?_ },
      goesOn_of_same rfl (fun _ => rfl) rfl rfl (Nat.le_refl _), rfl⟩
    · show x.plan.auth.map _ = none
      rw [h.plan, Echo.auth_served]
      rfl
    · show (if x.plan.settings.closesBySignal then _ else none) = none
      rw [hsignal]
      rfl
  · rename_i hstage
    exact ⟨h, .refl l x, h.stage.resolve_left hstage⟩

/-- What is dispatched by an intake that reads on. -/
theorem exchange_takeIn {i : Intake} (hlive : (l.takeIn i x).1.intake ≠ none) :
    (l.takeIn i x).2 = x.dispatch l.place (i.feed l.socket.arrived).1 := by
  revert hlive
  unfold takeIn
  generalize i.feed l.socket.arrived = fed
  obtain ⟨blocks, next⟩ := fed
  cases next with
  | error e => exact fun hlive => absurd rfl hlive
  | ok i' =>
    dsimp only
    split
    · exact fun hlive => absurd rfl hlive
    · exact fun _ => rfl

/-- **A read takes in what has arrived**, and reading goes on. -/
theorem Echoes.read (h : Echoes interval b v l x) (hb : Echo.Asks b) :
    Echoes interval b
      { v with dispatched := v.dispatched ++ (l.read x).2.requests.drop x.requests.length }
      (l.read x).1 (l.read x).2 ∧ GoesOn l x (l.read x) ∧
      (l.stage = .served → (l.read x).1.socket.arrived = []) := by
  have hlooks := l.looks_read x
  generalize l.read x = r at hlooks ⊢
  cases hlooks with
  | idle _ hidle =>
    rw [List.drop_length, List.append_nil]
    exact ⟨h, .refl l x, fun hserved => absurd (hidle hserved) h.intake⟩
  | closed _ hfound =>
    rw [findsClosed, h.isClosed, Bool.and_false] at hfound
    cases hfound
  | @takes i hi _ =>
    have hreading := h.reading.takeIn hi x
    have hline := l.line_takeIn i x
    have hlive : (l.takeIn i x).1.intake ≠ none :=
      hb.intake_ne_none hreading rfl h.received (by
        show (l.takeIn i x).1.socket.peerFinished = false
        rw [hline]
        exact h.writing.stream.sending)
    have hexchange := exchange_takeIn hlive
    generalize l.takeIn i x = r at hreading hline hlive hexchange ⊢
    obtain ⟨l', x'⟩ := r
    dsimp only at hline hlive hexchange ⊢
    subst hline hexchange
    exact ⟨{ h with
        intake := hlive
        reading := hreading
        writing := h.writing.onSocket (f := fun s => { s with arrived := [] }) rfl
          ⟨h.stream.sending, h.stream.there, h.stream.held⟩
        ran := Nat.le_trans h.ran (List.length_append ▸ Nat.le_add_right ..) },
      goesOn_of_same rfl id rfl rfl (Nat.le_refl _), fun _ => rfl⟩

/-- The connection stays where it is and open when something else about it changes. -/
theorem Echoes.modify (h : Echoes interval b v l x) {f : Connection → Connection}
    (hqueue : ∀ c, (f c).queue = c.queue) (hclosed : ∀ c, (f c).closed = c.closed) :
    (x.hub.modify l.place f).Seated l.place ∧
      (x.hub.modify l.place f).queueOf l.place = x.hub.queueOf l.place ∧
      ((x.hub.modify l.place f).connection l.place).closed = false := by
  have hseated := h.writing.sound.tended.seated
  have hsame := Hub.field_modify Connection.queue hqueue x.hub l.place l.place
  exact ⟨⟨(Hub.length_modify ..).symm ▸ hseated.place, hsame.symm ▸ hseated.queue⟩,
    congrArg x.hub.queue hsame,
    (Hub.field_modify Connection.closed hclosed x.hub l.place l.place).trans h.writing.opened⟩

/-- **What the watch for heartbeats comes to** over an open connection. -/
inductive Beats (l : Line) (x : Exchange) : Line × Exchange → Prop where
  /-- It goes on, or there is none. -/
  | waits (w : Option HeartbeatWatch) : Beats l x ({ l with heartbeat := w }, x)
  /-- There was a heartbeat. -/
  | counts (w : Option HeartbeatWatch) (hflag : (x.connection l.place).heartbeat = true) :
      Beats l x ({ l with heartbeat := w },
        x.withHub (x.hub.modify l.place fun c => { c with heartbeat := false }))
  /-- There was none for too long. -/
  | late : Beats l x ({ l with heartbeat := none }, x.close l.place)

theorem beats_watchHeartbeat (hopen : l.isClosed x = false) : l.Beats x (l.watchHeartbeat x) := by
  unfold watchHeartbeat
  split
  · rw [hopen, if_neg Bool.false_ne_true]
    split
    · exact .counts _ ‹_›
    split
    · exact .waits _
    · exact .late
  · exact .waits l.heartbeat

/-- No other watch is set up. -/
theorem Echoes.watch_eq (h : Echoes interval b v l x) : l.watch x = l.watchHeartbeat x := by
  have hbeats := beats_watchHeartbeat h.isClosed
  unfold Line.watch
  generalize l.watchHeartbeat x = r at hbeats ⊢
  cases hbeats <;> simp only [watchAuth, watchSignal, h.auth, h.signal]

/-- **A watch that leaves the connection open** counts a heartbeat if there was one. -/
theorem Echoes.watch (h : Echoes interval b v l x)
    (hopen : ((l.watch x).2.connection l.place).closed = false) :
    Echoes interval b
      { v with counted := v.counted + ((x.connection l.place).heartbeat &&
        !((l.watch x).2.connection l.place).heartbeat).toNat } (l.watch x).1 (l.watch x).2 ∧
      GoesOn l x (l.watch x) := by
  have hbeats := beats_watchHeartbeat h.isClosed
  have hseated := h.writing.sound.tended.seated
  rw [h.watch_eq] at hopen ⊢
  generalize l.watchHeartbeat x = r at hbeats hopen ⊢
  cases hbeats with
  | waits w =>
    refine ⟨{ h with beats := ?_ }, goesOn_of_same rfl id rfl rfl (Nat.le_refl _)⟩
    rw [← h.beats]
    cases (x.connection l.place).heartbeat <;> rfl
  | counts w hflag =>
    have hconnection : (x.hub.modify l.place fun c => { c with heartbeat := false }).connection
        l.place = { x.connection l.place with heartbeat := false } :=
      (Hub.connection_modify ..).trans (if_pos ⟨rfl, hseated.place⟩)
    obtain ⟨hseated', hqueue, hopen'⟩ := h.modify (f := fun c => { c with heartbeat := false })
      (fun _ => rfl) fun _ => rfl
    refine ⟨{ h with writing := h.writing.withHub hseated' hqueue hopen', beats := ?_ },
      goesOn_of_same rfl id rfl hqueue (Nat.le_refl _)⟩
    · have hbeats := h.beats
      have hcleared : ((x.withHub (x.hub.modify l.place fun c =>
          { c with heartbeat := false })).connection l.place).heartbeat = false :=
        congrArg Connection.heartbeat hconnection
      rw [hflag] at hbeats
      dsimp only
      rw [hcleared, hflag]
      exact hbeats
  | late => exact nomatch hopen.symm.trans hseated.closed_close

/-- **Writing gets on**, and leaves everything else alone. -/
theorem Echoes.write (h : Echoes interval b v l x) :
    Echoes interval b v (l.write x).1 (l.write x).2 ∧ GoesOn l x (l.write x) ∧
      (l.socket.waiting < Socket.room → l.outlet.phase ≠ .ready ∨ l.queued x ≠ [] →
        (l.write x).1.togo (l.write x).2 < l.togo x) := by
  have hwrite := Outlet.History.ofLine_write l x
    (((Echo.replies interval b).take v.ran).map (·, .ok ()))
  obtain ⟨hopened, -, hconnection, hon⟩ := h.writing.run_steps x.clock
    (Outlet.budgetOf l.place ⟨x.hub, l.socket⟩)
  rw [← hwrite] at hopened hconnection hon
  have hquiet := l.quiet_write x
  refine ⟨{ h with
      reading := h.reading.of_quiet [] rfl rfl (fun hne => ?_) (List.append_nil _).symm
        (fun hfin => ⟨hquiet.finished.trans hfin, rfl⟩) rfl rfl
      writing := hopened
      beats := ?_ }, ⟨rfl, id, ?_⟩, fun hroom hleft => ?_⟩
  · rw [List.append_nil]
    exact hquiet.arrived hne
  · rw [← h.beats]
    exact congrArg (v.counted + Bool.toNat ·) (congrArg Connection.heartbeat hconnection)
  · refine hon.symm.imp id fun hsame => ⟨?_, ?_⟩
    · rw [togo_eq, hsame, ← togo_eq]
    · exact Nat.le_of_eq (congrArg (fun h : Outlet.History => h.channel.socket.waiting) hsame)
  · have hless := h.writing.run_steps_lt x.clock (n := Outlet.budgetOf l.place ⟨x.hub, l.socket⟩)
      (Nat.succ_ne_zero _) hroom hleft
    rwa [← hwrite] at hless

/-- The peer sends some more of the block. -/
theorem Echoes.receive (h : Echoes interval b v l x) {bs : Bytes}
    (hmore : v.received ++ bs <+: b.bytes) :
    Echoes interval b { v with received := v.received ++ bs }
      { l with socket := (l.socket.receive bs).2 } x ∧
      GoesOn l x ({ l with socket := (l.socket.receive bs).2 }, x) := by
  have hreceive := h.stream.receive bs
  have hreading := h.reading.receive bs
  simp only [History.receive, History.onSocket, hreceive, if_true] at hreading
  rw [hreceive]
  exact ⟨{ h with
      received := hmore
      reading := hreading
      writing := h.writing.onSocket (f := fun s => { s with arrived := s.arrived ++ bs }) rfl
        ⟨h.stream.sending, h.stream.there, h.stream.held⟩ },
    goesOn_of_same rfl id rfl rfl (Nat.le_refl _)⟩

/-- The peer reads some of what waits for it. -/
theorem Echoes.take (h : Echoes interval b v l x) (n : Nat) :
    let socket := { l.socket with taken := min l.socket.sent.length (l.socket.taken + n) }
    Echoes interval b v { l with socket := socket } x ∧
      GoesOn l x ({ l with socket := socket }, x) := by
  intro socket
  refine ⟨{ h with
      writing := h.writing.onSocket
        (f := fun s => { s with taken := min s.sent.length (s.taken + n) }) rfl
        ⟨h.stream.sending, h.stream.there, h.stream.held⟩ },
    goesOn_of_same rfl id rfl rfl ?_⟩
  show l.socket.sent.length - min l.socket.sent.length (l.socket.taken + n) ≤
    l.socket.sent.length - l.socket.taken
  omega

/-! ### What was written -/

theorem accepted_ofLine (l : Line) (x : Exchange) (blocks : List Bytes) :
    (Outlet.History.ofLine l x (blocks.map (·, .ok ()))).accepted = blocks := by
  induction blocks with
  | nil => rfl
  | cons block blocks ih => exact congrArg (block :: ·) ih

/-- What was queued so far. -/
theorem Echoes.bytes (h : Echoes interval b v l x) :
    l.socket.sent ++ l.outlet.left ++ (l.queued x).flatten =
      ((Echo.replies interval b).take v.ran).flatten := by
  have hbytes := h.writing.kept.bytes
  rwa [accepted_ofLine] at hbytes

/-- How much can be left of a reply that is so long. -/
def work (size : Nat) : Nat := 8 * (size + 1) + 7

/-- **The request runs**: its reply is queued, or it is a heartbeat. -/
theorem Echoes.serve (h : Echoes interval b v l x) (hb : Echo.Asks b) (hran : v.ran = 0)
    (hdispatched : v.dispatched = [(l.place, b.bytes)]) :
    Echoes interval b { v with ran := 1 } l (x.serve l.place b.bytes) := by
  have hseated := h.writing.sound.tended.seated
  have hwriting := h.writing
  have hbeats := h.beats
  rw [hran] at hwriting hbeats
  rw [Echo.serve_served hb.fits h.plan]
  cases hbeat : Echo.isBeat interval b.id with
  | true =>
    rw [hbeat] at hbeats
    -- a heartbeat is marked, and nothing is queued
    obtain ⟨hseated', hqueue, hopen⟩ := h.modify (f := fun c => { c with heartbeat := true })
      (fun _ => rfl) fun _ => rfl
    have hreplies : Echo.replies interval b = [] := if_pos hbeat
    rw [hreplies] at hwriting
    refine { h with
      writing := hreplies ▸ hwriting.withHub hseated' hqueue hopen
      ran := hdispatched ▸ Nat.le_refl _
      beats := ?_ }
    have hflag : ((x.hub.noteHeartbeat l.place).connection l.place).heartbeat = true :=
      congrArg Connection.heartbeat ((Hub.connection_modify ..).trans (if_pos ⟨rfl, hseated.place⟩))
    have hcounted : v.counted = 0 := (Nat.add_eq_zero_iff.mp hbeats).1
    show v.counted + ((x.hub.noteHeartbeat l.place).connection l.place).heartbeat.toNat = _
    rw [hflag, hcounted, hbeat]
    rfl
  | false =>
    rw [hbeat] at hbeats
    have hreplies : Echo.replies interval b = [(Echo.reply b).bytes] := by
      rw [Echo.replies, hbeat]
      rfl
    -- nothing was queued before, so the reply finds room
    have hnone : l.queued x = [] := List.suffix_nil.mp hwriting.kept.suffix
    obtain ⟨hsends, -, hopened⟩ := hwriting.sends (by
      show (l.queued x).length < 1024
      rw [hnone]
      decide) (hb.lengthOf_le (hreplies ▸ List.mem_singleton_self _))
    have haccepted : (x.hub.send l.place (Echo.reply b).bytes).1 = .ok () :=
      (Prod.mk.inj (List.singleton_inj.mp (congrArg Outlet.History.answers hsends))).2
    have hconnection : (x.hub.send l.place (Echo.reply b).bytes).2.connection l.place =
        x.hub.connection l.place := congrArg Outlet.History.connection hsends
    refine { h with
      writing := ?_
      ran := hdispatched ▸ Nat.le_refl _
      beats := ?_ }
    · rw [hreplies]
      show Outlet.History.Opened 1024 Block.defaultMax
        ⟨l.place, l.outlet, ⟨(x.hub.send l.place _).2, l.socket⟩, [(_, .ok ())]⟩
      rw [← haccepted]
      exact hopened
    · show v.counted + ((x.hub.send l.place _).2.connection l.place).heartbeat.toNat = _
      rw [hconnection, hbeat]
      exact hbeats

/-- **Others may do anything elsewhere.** -/
theorem Echoes.spared (h : Echoes interval b v l x) (hplan : x'.plan = x.plan)
    (hseated : x'.hub.Seated l.place) (hconnection : x'.connection l.place = x.connection l.place)
    (hqueue : x'.hub.queueOf l.place = x.hub.queueOf l.place) :
    Echoes interval b v l x' ∧ GoesOn l x (l, x') :=
  ⟨{ h with
      plan := hplan.trans h.plan
      writing := h.writing.withHub hseated hqueue
        ((congrArg Connection.closed hconnection).trans h.writing.opened)
      beats := hconnection ▸ h.beats },
    goesOn_of_same rfl id rfl hqueue (Nat.le_refl _)⟩

end Line

end Switchboard
