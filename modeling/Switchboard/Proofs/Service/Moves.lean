import Switchboard.Proofs.Service.Handling
import Switchboard.Proofs.Session.Online
import Switchboard.Service.Server

/-!
# Proofs/Service/Moves — what happens to the lines of a service, in any order

A service goes on in small moves (`Service.Move`): a stream is accepted, the hook for connections
that open runs, the watches of a line are set up, a line is read, watched, written or takes leave, a
handler performs an action, a peer does something, the service is stopped.  The moves of different
lines and handlers come in any order (`Service.run`).  Greeting is two moves (`Line.greet_eq`), and
what a turn does to every line is one move after another (`Service.eachLine_eq_run`).

Two lemmas say what a move can do, and everything about interleavings is derived from them: to what
all lines share (`Service.happens_perform`), and to one line (`Service.goes_perform`).
-/

namespace Switchboard

/-! ## Writing moves nobody in the pool -/

namespace Outlet

variable {o o' : Outlet} {now : Nat} {place : Place} {c c' : Channel}

/-- One thing the writing task does moves nobody in the pool. -/
theorem Handles.sameOnline (h : Handles now place o c o' c') : c.hub.SameOnline c'.hub := by
  cases h with
  | takes reply taken socket left serving idle => exact Hub.sameOnline_takeReply taken
  | refuses reply hub taken long hub' =>
    have htaken := Hub.sameOnline_takeReply taken
    rcases hub' with hclosed | ⟨hsame, -⟩
    · rw [hclosed]
      exact htaken.trans (Hub.sameOnline_close hub place)
    · rwa [hsame]
  | writes hub bytes serving idle nearer =>
    rw [hub]
    exact .refl _
  | turns same left serving idle nearer =>
    rw [same]
    exact .refl _
  | givesUp why hub =>
    rcases hub with hclosed | ⟨hsame, -⟩
    · rw [hclosed]
      exact Hub.sameOnline_close _ place
    · rw [hsame]
      exact .refl _

/-- A whole run of the writing task moves nobody in the pool, whatever its budget. -/
theorem sameOnline_run (budget : Nat) (o : Outlet) (now : Nat) (place : Place) (c : Channel) :
    c.hub.SameOnline (o.run budget now place c).2.hub := by
  induction budget generalizing o c with
  | zero => exact .refl _
  | succ budget ih =>
    unfold run
    cases hstep : o.step now place c with
    | none => exact .refl _
    | some r => exact (handles_step hstep).sameOnline.trans (ih r.1 r.2)

end Outlet

/-! ## What lines share -/

namespace Exchange

variable {x x' x'' : Exchange}

/-- **Nobody is moved in the pool**, no connection joins, and no signal is given. -/
structure Steady (x x' : Exchange) : Prop where
  online : x.hub.SameOnline x'.hub
  plan : x'.plan = x.plan
  signals : x'.signals = x.signals
  nextId : x'.nextId = x.nextId

theorem Steady.refl (x : Exchange) : x.Steady x := ⟨.refl _, rfl, rfl, rfl⟩

theorem Steady.trans (h : x.Steady x') (h' : x'.Steady x'') : x.Steady x'' where
  online := h.online.trans h'.online
  plan := h'.plan.trans h.plan
  signals := h'.signals.trans h.signals
  nextId := h'.nextId.trans h.nextId

theorem steady_withHub {hub : Hub} (h : x.hub.SameOnline hub) : x.Steady (x.withHub hub) :=
  ⟨h, rfl, rfl, rfl⟩

/-- Closing a connection leaves it in the pool. -/
theorem steady_close (x : Exchange) (c : Place) : x.Steady (x.close c) :=
  steady_withHub (Hub.sameOnline_close ..)

theorem steady_note (x : Exchange) (e : Event) : x.Steady (x.note e) :=
  ⟨.refl _, rfl, rfl, rfl⟩

/-- Blocks that are dispatched are handed to their handlers, which have yet to run. -/
theorem steady_dispatch (x : Exchange) (c : Place) (blocks : List Bytes) :
    x.Steady (x.dispatch c blocks) :=
  ⟨.refl _, rfl, rfl, rfl⟩

/-- **A connection joins** and gets the next number. -/
structure Joins (x x' : Exchange) : Prop where
  connections : ∃ c : Connection, x'.hub.connections = x.hub.connections ++ [c] ∧ c.id = x.nextId
  pool : x'.hub.pool = x.hub.pool
  plan : x'.plan = x.plan
  signals : x'.signals = x.signals
  nextId : x'.nextId = x.nextId + 1

/-- A connection is found as it was after another has joined. -/
theorem Joins.connection (h : x.Joins x') {c : Place} (hc : c < x.hub.connections.length) :
    x'.connection c = x.connection c := by
  obtain ⟨conn, hconnections, -⟩ := h.connections
  show x'.hub.connections.getD c default = x.hub.connections.getD c default
  rw [hconnections, List.getD_eq_getElem?_getD, List.getD_eq_getElem?_getD,
    List.getElem?_append_left hc]

/-- Who joins is one connection more. -/
theorem Joins.length (h : x.Joins x') :
    x'.hub.connections.length = x.hub.connections.length + 1 := by
  obtain ⟨conn, hconnections, -⟩ := h.connections
  rw [hconnections, List.length_append]
  rfl

/-- Nobody who was closed is open later, and nobody is gone. -/
structure Later (x x' : Exchange) : Prop where
  length : x.hub.connections.length ≤ x'.hub.connections.length
  closed : ∀ c < x.hub.connections.length, (x.connection c).closed = true →
    (x'.connection c).closed = true
  plan : x'.plan = x.plan

theorem Steady.later (h : x.Steady x') : x.Later x' :=
  ⟨Nat.le_of_eq h.online.places.length.symm, fun c _ => h.online.closed c, h.plan⟩

theorem Joins.later (h : x.Joins x') : x.Later x' :=
  ⟨h.length ▸ Nat.le_succ _, fun _ hc hclosed => (h.connection hc).symm ▸ hclosed, h.plan⟩

end Exchange

/-! ## Steps of one line -/

namespace Line

variable {l : Line} {x : Exchange} {r r' : Line × Exchange}

/-- Has the line left the pool? -/
def HasLeft (l : Line) : Prop := l.stage = .left ∨ l.stage = .over

/-- Is nothing read any more, and nothing written? -/
def IsDone (l : Line) : Prop := l.stage = .served ∧ l.intake = none ∧ l.outlet.phase = .ended

instance (l : Line) : Decidable l.HasLeft := inferInstanceAs (Decidable (_ ∨ _))

instance (l : Line) : Decidable l.IsDone :=
  decidable_of_iff (l.stage = .served ∧ l.intake.isNone = true ∧ l.outlet.phase = .ended)
    (by rw [IsDone, Option.isNone_iff_eq_none])

/-- The line has a connection, which is closed once nothing is read from it. -/
structure Sits (l : Line) (x : Exchange) : Prop where
  place : l.place < x.hub.connections.length
  closed : l.intake = none → (x.connection l.place).closed = true

/-- **A step that neither sets a line up nor takes it out of the pool**: the watch for signals and
the intake go on, or end with the connection closed. -/
structure Tends (l : Line) (x : Exchange) (r : Line × Exchange) : Prop where
  steady : x.Steady r.2
  place : r.1.place = l.place
  accepted : r.1.stage = .accepted ↔ l.stage = .accepted
  left : r.1.HasLeft ↔ l.HasLeft
  signal : r.1.signal = l.signal ∨ r.1.signal = none ∧ (r.2.connection l.place).closed = true
  intake : r.1.intake = none → l.intake = none ∨ (r.2.connection l.place).closed = true

theorem Tends.sits (h : Tends l x r) (hs : l.Sits x) : r.1.Sits r.2 where
  place := by
    rw [h.place, h.steady.online.places.length]
    exact hs.place
  closed hnone := by
    rw [h.place]
    exact (h.intake hnone).elim (fun hnone => h.steady.online.closed _ (hs.closed hnone)) id

theorem Tends.trans (h : Tends l x r) (h' : Tends r.1 r.2 r') : Tends l x r' where
  steady := h.steady.trans h'.steady
  place := h'.place.trans h.place
  accepted := h'.accepted.trans h.accepted
  left := h'.left.trans h.left
  signal := by
    rcases h'.signal with hsame | ⟨hnone, hclosed⟩
    · rw [hsame]
      exact h.signal.imp id (.imp id (h'.steady.online.closed _))
    · exact .inr ⟨hnone, h.place ▸ hclosed⟩
  intake hnone := by
    rcases h'.intake hnone with hnone | hclosed
    · exact (h.intake hnone).imp id (h'.steady.online.closed _)
    · exact .inr (h.place ▸ hclosed)

/-- The same line, as far as its set-up and its intake tell. -/
theorem tends_of_same (hsteady : x.Steady r.2)
    (hsame : r.1.place = l.place ∧ r.1.stage = l.stage ∧ r.1.signal = l.signal ∧
      r.1.intake = l.intake) : Tends l x r := by
  obtain ⟨hplace, hstage, hsignal, hintake⟩ := hsame
  refine ⟨hsteady, hplace, by rw [hstage], by rw [HasLeft, HasLeft, hstage], .inl hsignal, ?_⟩
  rw [hintake]
  exact .inl

/-- What a line closes is its own connection. -/
theorem closed_close (hs : l.Sits x) : ((x.close l.place).connection l.place).closed = true := by
  show ((x.hub.close l.place).connection l.place).closed = true
  rw [Hub.closed_close, decide_eq_true ⟨rfl, hs.place⟩, Bool.true_or]

/-- The hook for connections that open finds the pool as it was, and leaves it so. -/
theorem steady_runOpeningHook (l : Line) (x : Exchange) : x.Steady (l.runOpeningHook x) := by
  unfold runOpeningHook
  split
  · exact x.steady_note _
  · exact x.steady_close _
  · exact .refl x
  · exact .refl x

/-- Reading ends with the connection closed. -/
theorem tends_endReading (hs : l.Sits x) : Tends l x (l.endReading x) where
  steady := x.steady_close _
  place := rfl
  accepted := Iff.rfl
  left := Iff.rfl
  signal := .inl rfl
  intake _ := .inr (closed_close hs)

/-- Whatever the intake comes to, the connection is closed if it is the end. -/
theorem tends_takeIn (hs : l.Sits x) (i : Intake) : Tends l x (l.takeIn i x) := by
  unfold takeIn
  generalize i.feed l.socket.arrived = fed
  obtain ⟨blocks, next⟩ := fed
  have hdispatch : Tends l x ({ l with socket := { l.socket with arrived := [] } },
      x.dispatch l.place blocks) :=
    tends_of_same (x.steady_dispatch ..) ⟨rfl, rfl, rfl, rfl⟩
  cases next with
  | error e => exact hdispatch.trans (tends_endReading (hdispatch.sits hs))
  | ok i' =>
    dsimp only
    split
    · exact hdispatch.trans (tends_endReading (hdispatch.sits hs))
    · exact { hdispatch with intake := nofun }

/-- Reading is a step that leaves the pool alone. -/
theorem tends_read (hs : l.Sits x) : Tends l x (l.read x) := by
  unfold read
  split
  · split
    · rename_i hclosed
      exact ⟨.refl x, rfl, Iff.rfl, Iff.rfl, .inl rfl, fun _ => .inr hclosed⟩
    · exact tends_takeIn hs _
  · exact tends_of_same (.refl x) ⟨rfl, rfl, rfl, rfl⟩

/-- The heartbeat watch may close the connection, but does not take it out of the pool. -/
theorem tends_watchHeartbeat (l : Line) (x : Exchange) : Tends l x (l.watchHeartbeat x) := by
  unfold watchHeartbeat
  split
  · split
    · exact tends_of_same (.refl x) ⟨rfl, rfl, rfl, rfl⟩
    split
    · refine tends_of_same (Exchange.steady_withHub ?_) ⟨rfl, rfl, rfl, rfl⟩
      exact Hub.sameOnline_modify _ _ (fun _ => rfl) (fun _ => rfl) (fun _ => rfl) fun _ => id
    split
    · exact tends_of_same (.refl x) ⟨rfl, rfl, rfl, rfl⟩
    · exact tends_of_same (x.steady_close _) ⟨rfl, rfl, rfl, rfl⟩
  · exact tends_of_same (.refl x) ⟨rfl, rfl, rfl, rfl⟩

/-- A peer who is turned away is sent a message and closed, no more. -/
theorem steady_reject (rule : AuthRule) (l : Line) (x : Exchange) : x.Steady (l.reject rule x) := by
  unfold reject
  dsimp only
  refine Exchange.steady_withHub ?_
  split
  · exact (Hub.sameOnline_sendPacked ..).trans (Hub.sameOnline_close ..)
  · exact Hub.sameOnline_close ..

theorem tends_watchAuth (l : Line) (x : Exchange) : Tends l x (l.watchAuth x) := by
  unfold watchAuth
  split
  · split
    · exact tends_of_same (.refl x) ⟨rfl, rfl, rfl, rfl⟩
    split
    · exact tends_of_same (.refl x) ⟨rfl, rfl, rfl, rfl⟩
    · exact tends_of_same (.refl x) ⟨rfl, rfl, rfl, rfl⟩
    · exact tends_of_same (steady_reject ..) ⟨rfl, rfl, rfl, rfl⟩
  · exact tends_of_same (.refl x) ⟨rfl, rfl, rfl, rfl⟩

/-- The watch for signals ends only by closing the connection. -/
theorem tends_watchSignal (hs : l.Sits x) : Tends l x (l.watchSignal x) := by
  unfold watchSignal
  split
  · split
    · exact ⟨x.steady_close _, rfl, Iff.rfl, Iff.rfl, .inr ⟨rfl, closed_close hs⟩, .inl⟩
    · exact tends_of_same (.refl x) ⟨rfl, rfl, rfl, rfl⟩
  · exact tends_of_same (.refl x) ⟨rfl, rfl, rfl, rfl⟩

/-- All three watches together leave the line where it is. -/
theorem tends_watch (hs : l.Sits x) : Tends l x (l.watch x) := by
  have hbefore := (tends_watchHeartbeat l x).trans (tends_watchAuth _ _)
  exact hbefore.trans (tends_watchSignal (hbefore.sits hs))

theorem tends_write (l : Line) (x : Exchange) : Tends l x (l.write x) := by
  have hrun : x.hub.SameOnline (l.outlet.proceed x.clock l.place ⟨x.hub, l.socket⟩).2.hub :=
    Outlet.sameOnline_run _ _ _ _ ⟨x.hub, l.socket⟩
  unfold write
  generalize l.outlet.proceed x.clock l.place ⟨x.hub, l.socket⟩ = r at hrun
  obtain ⟨outlet, c⟩ := r
  refine tends_of_same (Exchange.steady_withHub ?_) ⟨rfl, rfl, rfl, rfl⟩
  split
  · exact hrun.trans (Hub.sameOnline_modifyQueue ..)
  · exact hrun

/-- A line departs after it has left the pool. -/
theorem tends_depart (hs : l.Sits x) : Tends l x (l.depart x) := by
  unfold depart
  split
  · rename_i hleft
    have hsteady : x.Steady (if x.plan.hooks.closing then
        x.note (.closed (x.connection l.place).id (x.connection l.place).closed
          (x.connection l.place).username) else x) := by
      split
      · exact x.steady_note _
      · exact .refl x
    refine ⟨hsteady, rfl, ?_, ?_, .inr ⟨rfl, ?_⟩, .inl⟩
    · exact iff_of_false nofun fun h => nomatch hleft.1.symm.trans h
    · exact iff_of_true (.inr rfl) (.inl hleft.1)
    · exact hsteady.online.closed _ (hs.closed hleft.2)
  · exact tends_of_same (.refl x) ⟨rfl, rfl, rfl, rfl⟩

/-! ## Accepting -/

/-- The connection of an accepted line joins. -/
theorem joins_accept (network : Network) (peer : String) (x : Exchange) :
    x.Joins (accept network peer x).2 := ⟨⟨_, rfl, rfl⟩, rfl, rfl, rfl, rfl⟩

/-- Who is accepted takes the first free place. -/
theorem place_accept (network : Network) (peer : String) (x : Exchange) :
    (accept network peer x).1.place = x.hub.connections.length := rfl

/-- A fresh line has a connection, and is being read. -/
theorem sits_accept (network : Network) (peer : String) (x : Exchange) :
    (accept network peer x).1.Sits (accept network peer x).2 where
  place := by
    rw [place_accept, (joins_accept network peer x).length]
    exact Nat.lt_succ_self _
  closed := nofun

/-! ## Greeting in two steps -/

/-- The hook for connections that open runs, unless the peer was greeted. -/
def welcome (l : Line) (x : Exchange) : Line × Exchange :=
  if l.stage = .accepted then (l, l.runOpeningHook x) else (l, x)

/-- The watches are set up, unless the peer was greeted. -/
def equip (l : Line) (x : Exchange) : Line × Exchange :=
  if l.stage = .accepted then (l.setWatches x, x) else (l, x)

/-- **A peer is greeted** in these two steps. -/
theorem greet_eq (l : Line) (x : Exchange) :
    l.greet x = (l.welcome x).1.equip (l.welcome x).2 := by
  unfold greet welcome equip
  cases hstage : l.stage <;> simp [hstage]

theorem tends_welcome (l : Line) (x : Exchange) : Tends l x (l.welcome x) := by
  unfold welcome
  split
  · exact tends_of_same (steady_runOpeningHook l x) ⟨rfl, rfl, rfl, rfl⟩
  · exact tends_of_same (.refl x) ⟨rfl, rfl, rfl, rfl⟩

end Line

/-! ## Moves -/

namespace Service

/-- What happens to the lines of a service and to what they share. -/
inductive Move where
  /-- A stream is accepted. -/
  | accepts (network : Network) (peer : String)
  /-- A datagram arrives. -/
  | receives (network : Network) (queue : Nat) (peer : String) (datagram : Bytes)
  /-- The hook for connections that open runs for line `i`. -/
  | welcomes (i : Nat)
  /-- The watches of line `i` are set up. -/
  | equips (i : Nat)
  /-- Line `i` is read. -/
  | reads (i : Nat)
  /-- The watches of line `i` look. -/
  | watches (i : Nat)
  /-- Line `i` is written. -/
  | writes (i : Nat)
  /-- Line `i` leaves the pool, if it can. -/
  | leaves (i : Nat)
  /-- Line `i` ends, if it has left the pool. -/
  | departs (i : Nat)
  /-- A handler that serves a request performs an action. -/
  | handles (r : Request) (a : Action)
  /-- A connection is closed because a handler of it broke down. -/
  | closes (c : Place)
  /-- The peer of line `i` does something to the stream. -/
  | peers (i : Nat) (f : Socket → Socket)
  /-- Time passes. -/
  | ticks
  /-- Listeners are bound, begin or end. -/
  | becomes (life : Lifecycle)
  /-- The service is stopped. -/
  | stops (closeAll : Bool)

/-- The service with line `i` changed, together with what all lines share. -/
def onLine (s : Service) (i : Nat) (f : Line → Exchange → Line × Exchange) : Service :=
  match s.lines[i]? with
  | some l => { s with lines := s.lines.set i (f l s.exchange).1, exchange := (f l s.exchange).2 }
  | none => s

/-- A handler performs an action. -/
def handle (s : Service) (r : Request) (a : Action) : Service :=
  s.onExchange fun x => { x with desk := (Turn.perform id a ⟨x.desk, r, false⟩).2.desk }

/-- **One move.** -/
def perform (s : Service) : Move → Service
  | .accepts network peer => (s.accept network peer).2
  | .receives network queue peer datagram =>
    s.onExchange (Datagram.receive network queue peer datagram)
  | .welcomes i => s.onLine i Line.welcome
  | .equips i => s.onLine i Line.equip
  | .reads i => s.onLine i Line.read
  | .watches i => s.onLine i Line.watch
  | .writes i => s.onLine i Line.write
  | .leaves i => s.onLine i Line.leave
  | .departs i => s.onLine i Line.depart
  | .handles r a => s.handle r a
  | .closes c => s.onExchange fun x => x.close c
  | .peers i f => s.modifySocket i f
  | .ticks => s.onExchange fun x => { x with clock := x.clock + 1 }
  | .becomes life => { s with life := life }
  | .stops closeAll => (s.stop closeAll).2

/-- **Moves in any order**, one after another. -/
def run (s : Service) (moves : List Move) : Service := moves.foldl perform s

@[simp] theorem run_nil (s : Service) : s.run [] = s := rfl

/-- Moves may be cut in two anywhere. -/
theorem run_append (s : Service) (moves more : List Move) :
    s.run (moves ++ more) = (s.run moves).run more := List.foldl_append ..

theorem run_concat (s : Service) (moves : List Move) (move : Move) :
    s.run (moves ++ [move]) = (s.run moves).perform move := s.run_append moves [move]

variable {s : Service} {move : Move} {i j : Nat} {l l' : Line} {x x' : Exchange}

/-! ## Every line in turn -/

/-- A walk over the lines is one change for each, from the front: what is done is behind it. -/
theorem eachLine_go (s : Service) (f : Line → Exchange → Line × Exchange) (done rest : List Line)
    (x : Exchange) :
    (List.range' done.length rest.length).foldl (fun s i => s.onLine i f)
        { s with lines := done ++ rest, exchange := x } =
      { s with
        lines := done ++ (eachLine.go f rest x).1
        exchange := (eachLine.go f rest x).2 } := by
  induction rest generalizing done x with
  | nil => rfl
  | cons l rest ih =>
    have hstep : ({ s with lines := done ++ l :: rest, exchange := x } : Service).onLine
        done.length f =
          { s with lines := (done ++ [(f l x).1]) ++ rest, exchange := (f l x).2 } := by
      simp [onLine]
    rw [List.length_cons, List.range'_succ, List.foldl_cons, hstep]
    simpa [eachLine.go] using ih (done ++ [(f l x).1]) (f l x).2

/-- **What is done to every line in turn** is done in as many moves. -/
theorem eachLine_eq_run {f : Line → Exchange → Line × Exchange} {move : Nat → Move}
    (hmove : ∀ s i, perform s (move i) = s.onLine i f) (s : Service) :
    s.eachLine f = s.run ((List.range s.lines.length).map move) := by
  rw [run, List.foldl_map, List.range_eq_range']
  simp only [hmove]
  exact (eachLine_go s f [] s.lines s.exchange).symm

/-! ## Calls of the pool -/

/-- The call of the pool that a move comes to, if it comes to one. -/
def poolCall? (s : Service) : Move → Option PoolCall
  | .leaves i => (s.lines[i]?.filter fun l => l.IsDone).map fun l => .forget l.place
  | .handles r (.online u) =>
    if s.exchange.hub.reachesPool r.place then some (.online u r.place) else none
  | .handles r .offline =>
    if s.exchange.hub.reachesPool r.place then (s.exchange.connection r.place).username.map .offline
    else none
  | _ => none

/-! ## What a move does to what lines share -/

/-- **What a move can do to what all lines share.** -/
inductive Happens (s : Service) (move : Move) : Exchange → Prop where
  /-- Nobody is moved in the pool. -/
  | steady {x : Exchange} (hcall : s.poolCall? move = none) (h : s.exchange.Steady x) :
      Happens s move x
  /-- A connection joins. -/
  | joins {x : Exchange} (hcall : s.poolCall? move = none) (h : s.exchange.Joins x) :
      Happens s move x
  /-- All connections are told to close. -/
  | signals (hmove : move = .stops true) (hphase : s.life.phase ≠ .stopped)
      (hsignal : s.exchange.plan.settings.closesBySignal = true) :
      Happens s move { s.exchange with signals := s.exchange.signals + 1 }
  /-- The pool is called. -/
  | calls {call : PoolCall} (hcall : s.poolCall? move = some call) :
      Happens s move (s.exchange.withHub (s.exchange.hub.perform call))

/-- What a line does to what all share is done. -/
theorem exchange_onLine {f : Line → Exchange → Line × Exchange} (hi : s.lines[i]? = some l) :
    (s.onLine i f).exchange = (f l s.exchange).2 := by
  rw [onLine, hi]

/-- Only the line itself is replaced. -/
theorem lines_onLine {f : Line → Exchange → Line × Exchange} (hi : s.lines[i]? = some l) :
    (s.onLine i f).lines = s.lines.set i (f l s.exchange).1 := by
  rw [onLine, hi]

/-- Where there is no line, nothing happens. -/
theorem onLine_of_none {f : Line → Exchange → Line × Exchange} (hi : s.lines[i]? = none) :
    s.onLine i f = s := by
  rw [onLine, hi]

/-- A step of a line that moves nobody in the pool. -/
theorem happens_onLine {f : Line → Exchange → Line × Exchange} (hcall : s.poolCall? move = none)
    (hf : ∀ l, s.lines[i]? = some l → s.exchange.Steady (f l s.exchange).2) :
    Happens s move (s.onLine i f).exchange := by
  cases hi : s.lines[i]? with
  | none =>
    rw [onLine_of_none hi]
    exact .steady hcall (.refl _)
  | some l =>
    rw [exchange_onLine hi]
    exact .steady hcall (hf l hi)

/-- A line calls the pool when it leaves, and it leaves once it is done. -/
theorem poolCall?_leaves (hi : s.lines[i]? = some l) :
    s.poolCall? (.leaves i) = if l.IsDone then some (.forget l.place) else none := by
  rw [poolCall?, hi]
  by_cases hdone : l.IsDone <;> simp [Option.filter, hdone]

/-- Leaving is one call of the pool, or nothing. -/
theorem happens_leave (s : Service) (i : Nat) :
    Happens s (.leaves i) (s.onLine i Line.leave).exchange := by
  cases hi : s.lines[i]? with
  | none =>
    rw [onLine_of_none hi]
    exact .steady (by rw [poolCall?, hi]; rfl) (.refl _)
  | some l =>
    have hcall := poolCall?_leaves hi
    rw [exchange_onLine hi, Line.leave]
    split <;> rename_i hdone
    · exact .calls (hcall.trans (if_pos hdone))
    · exact .steady (hcall.trans (if_neg hdone)) (.refl _)

/-- **A handler's action is a call of the pool or moves nobody.** -/
theorem happens_handle (s : Service) (r : Request) (a : Action) :
    Happens s (.handles r a) (s.handle r a).exchange := by
  show Happens s (.handles r a)
    { s.exchange with desk := (Turn.perform id a ⟨s.exchange.desk, r, false⟩).2.desk }
  cases a with
  | online u =>
    by_cases hreach : s.exchange.hub.reachesPool r.place = true
    · have hcall : s.poolCall? (.handles r (.online u)) = some (.online u r.place) := if_pos hreach
      rw [Turn.perform_online hreach]
      exact .calls hcall
    · rw [Turn.perform_of_not_reaches (.inl ⟨u, rfl⟩) hreach]
      exact .steady (if_neg hreach) (.refl _)
  | offline =>
    by_cases hreach : s.exchange.hub.reachesPool r.place = true
    · have hcall : s.poolCall? (.handles r .offline) = _ := if_pos hreach
      rw [Turn.perform_offline hreach]
      show Happens s _ (s.exchange.withHub (Turn.goOffline r.place s.exchange.hub))
      unfold Turn.goOffline
      split <;> rename_i hname
      · exact .calls (hcall.trans (by rw [Exchange.connection, hname]; rfl))
      · exact .steady (hcall.trans (by rw [Exchange.connection, hname]; rfl))
          (s.exchange.steady_close _)
    · rw [Turn.perform_of_not_reaches (.inr rfl) hreach]
      exact .steady (if_neg hreach) (.refl _)
  | _ =>
    exact .steady rfl
      ⟨Hub.sameOnline_perform ⟨s.exchange.desk, r, false⟩ nofun nofun, rfl, rfl, rfl⟩

/-- A stop that closes all either gives the signal or closes who is online. -/
theorem happens_stop (s : Service) (closeAll : Bool) :
    Happens s (.stops closeAll) (s.stop closeAll).2.exchange := by
  unfold Service.stop Lifecycle.stop
  by_cases hphase : s.life.phase = .stopped
  · rw [if_pos hphase]
    exact .steady rfl (.refl _)
  rw [if_neg hphase]
  cases closeAll with
  | false => exact .steady rfl (.refl _)
  | true =>
    show Happens s (.stops true) s.exchange.closeAll
    unfold Exchange.closeAll
    split
    · exact .signals rfl hphase ‹_›
    · exact .steady rfl (Exchange.steady_withHub (Hub.sameOnline_closeAll _))

/-- Every line has a connection of its own, which is closed once nothing is read from it. -/
def Seated (s : Service) : Prop :=
  ∀ (i : Nat) (l : Line), s.lines[i]? = some l → l.Sits s.exchange

/-- **Every move is one of these.** -/
theorem happens_perform (hs : s.Seated) (move : Move) :
    Happens s move (s.perform move).exchange := by
  cases move with
  | accepts network peer => exact .joins rfl (Line.joins_accept network peer s.exchange)
  | receives network queue peer datagram =>
    show Happens s _ (Datagram.receive network queue peer datagram s.exchange)
    unfold Datagram.receive
    split
    · exact .steady rfl (.refl _)
    · exact .joins rfl ⟨⟨_, rfl, rfl⟩, rfl, rfl, rfl, rfl⟩
  | welcomes i => exact happens_onLine rfl fun l _ => (Line.tends_welcome l _).steady
  | equips i =>
    refine happens_onLine rfl fun l _ => ?_
    unfold Line.equip
    split <;> exact .refl _
  | reads i => exact happens_onLine rfl fun l hi => (Line.tends_read (hs i l hi)).steady
  | watches i => exact happens_onLine rfl fun l hi => (Line.tends_watch (hs i l hi)).steady
  | writes i => exact happens_onLine rfl fun l _ => (Line.tends_write l _).steady
  | leaves i => exact happens_leave s i
  | departs i => exact happens_onLine rfl fun l hi => (Line.tends_depart (hs i l hi)).steady
  | handles r a => exact happens_handle s r a
  | closes c => exact .steady rfl (s.exchange.steady_close c)
  | peers i f => exact .steady rfl (.refl _)
  | ticks => exact .steady rfl ⟨.refl _, rfl, rfl, rfl⟩
  | becomes life => exact .steady rfl (.refl _)
  | stops closeAll => exact happens_stop s closeAll

/-- A call of the pool opens nobody. -/
theorem closed_perform (hub : Hub) (call : PoolCall) (c : Place)
    (hclosed : (hub.connection c).closed = true) :
    ((hub.perform call).connection c).closed = true := by
  cases call with
  | online u d =>
    show ((hub.online u d).connection c).closed = true
    cases hpool : hub.pool with
    | none => rwa [Hub.online, hpool]
    | some pool =>
      rw [Hub.connection_online (hpool ▸ rfl), Hub.closed_setName]
      exact hclosed
  | offline u =>
    show ((hub.offline u).2.connection c).closed = true
    cases honline : hub.onlineAt u with
    | none => rwa [Hub.offline_of_none honline]
    | some d =>
      rw [Hub.connection_offline honline, Hub.closed_close, Hub.closed_setName, hclosed,
        Bool.or_true]
  | forget d => exact (congrArg Connection.closed (Hub.connection_forget hub d c)).trans hclosed
  | closeAll => exact (Hub.sameOnline_closeAll hub).closed c hclosed

/-- **Nobody who was closed is ever open again.** -/
theorem Happens.later (h : Happens s move x) : s.exchange.Later x := by
  cases h with
  | steady _ h => exact h.later
  | joins _ h => exact h.later
  | signals => exact ⟨Nat.le_refl _, fun _ _ => id, rfl⟩
  | @calls call _ =>
    exact ⟨Nat.le_of_eq (Hub.samePlaces_perform _ call).length.symm,
      fun c _ => closed_perform _ call c, rfl⟩

/-! ## What a move does to one line -/

/-- **What a move can do to line `i`**: it is set up at one go, its watch for signals and its intake
end only with its connection closed, and it leaves the pool once it is done. -/
structure Goes (i : Nat) (move : Move) (l : Line) (x : Exchange) (l' : Line) (x' : Exchange) :
    Prop where
  place : l'.place = l.place
  accepted : l'.stage = .accepted → l.stage = .accepted
  equipped : l.stage = .accepted → l'.stage = .accepted ∨
    move = .equips i ∧ l'.signal = if x.plan.settings.closesBySignal then some x.signals else none
  signal : l.stage ≠ .accepted → l'.signal = l.signal ∨
    l'.signal = none ∧ (x'.connection l.place).closed = true
  intake : l'.intake = none → l.intake = none ∨ (x'.connection l.place).closed = true
  left : l'.HasLeft → l.HasLeft ∨ move = .leaves i ∧ l.IsDone

/-- A step that leaves the pool alone is one of the things that can happen to a line. -/
theorem goes_of_tends {r : Line × Exchange} (h : l.Tends x r) : Goes i move l x r.1 r.2 where
  place := h.place
  accepted := h.accepted.mp
  equipped hstage := .inl (h.accepted.mpr hstage)
  signal _ := h.signal
  intake := h.intake
  left hleft := .inl (h.left.mp hleft)

/-- The stream of a line may change. -/
theorem goes_socket (l : Line) (x x' : Exchange) (k : Socket) :
    Goes i move l x { l with socket := k } x' where
  place := rfl
  accepted := id
  equipped := .inl
  signal _ := .inl rfl
  intake := .inl
  left := .inl

/-- Setting up the watches looks at the settings once: a line waits for a signal from then on or
never. -/
theorem goes_equip (l : Line) (x : Exchange) :
    Goes i (.equips i) l x (l.equip x).1 (l.equip x).2 := by
  unfold Line.equip
  split
  · rename_i hstage
    refine ⟨rfl, nofun, fun _ => .inr ⟨rfl, rfl⟩, absurd hstage, .inl, fun hleft => ?_⟩
    exact hleft.elim nofun nofun
  · exact goes_socket l x x l.socket

/-- A line that is not done stays. -/
theorem goes_leave (l : Line) (x : Exchange) :
    Goes i (.leaves i) l x (l.leave x).1 (l.leave x).2 := by
  unfold Line.leave
  split
  · rename_i hdone
    refine ⟨rfl, nofun, fun hstage => ?_, fun _ => .inl rfl, .inl, fun _ => .inr ⟨rfl, hdone⟩⟩
    exact nomatch hdone.1.symm.trans hstage
  · exact goes_socket l x x l.socket

theorem lines_stop (s : Service) (closeAll : Bool) : (s.stop closeAll).2.lines = s.lines := by
  unfold Service.stop
  split
  · rfl
  · cases closeAll <;> rfl

/-- A line is found again, and gone on if it was its turn. -/
theorem goes_onLine {f : Line → Exchange → Line × Exchange} (hi : s.lines[i]? = some l)
    (hf : j = i → Goes i move l s.exchange (f l s.exchange).1 (f l s.exchange).2) :
    ∃ l', (s.onLine j f).lines[i]? = some l' ∧
      Goes i move l s.exchange l' (s.onLine j f).exchange := by
  by_cases hji : j = i
  · subst hji
    rw [lines_onLine hi, exchange_onLine hi]
    exact ⟨_, List.getElem?_set_self (List.getElem?_eq_some_iff.mp hi).1, hf rfl⟩
  cases hj : s.lines[j]? with
  | none =>
    rw [onLine_of_none hj]
    exact ⟨l, hi, goes_socket l _ _ l.socket⟩
  | some l₀ =>
    rw [lines_onLine hj, exchange_onLine hj]
    exact ⟨l, (List.getElem?_set_ne hji).trans hi, goes_socket l _ _ l.socket⟩

/-- **Every move does one of these to a line.** -/
theorem goes_perform (hs : s.Seated) (hi : s.lines[i]? = some l) (move : Move) :
    ∃ l', (s.perform move).lines[i]? = some l' ∧
      Goes i move l s.exchange l' (s.perform move).exchange := by
  have hsits : l.Sits s.exchange := hs i l hi
  have hsame (x : Exchange) : Goes i move l s.exchange l x := goes_socket l _ _ l.socket
  cases move with
  | accepts network peer =>
    exact ⟨l, (List.getElem?_append_left (List.getElem?_eq_some_iff.mp hi).1).trans hi, hsame _⟩
  | welcomes j => exact goes_onLine hi fun _ => goes_of_tends (Line.tends_welcome l _)
  | equips j => exact goes_onLine hi fun hji => hji ▸ goes_equip l _
  | reads j => exact goes_onLine hi fun _ => goes_of_tends (Line.tends_read hsits)
  | watches j => exact goes_onLine hi fun _ => goes_of_tends (Line.tends_watch hsits)
  | writes j => exact goes_onLine hi fun _ => goes_of_tends (Line.tends_write l _)
  | leaves j => exact goes_onLine hi fun hji => hji ▸ goes_leave l _
  | departs j => exact goes_onLine hi fun _ => goes_of_tends (Line.tends_depart hsits)
  | peers j f =>
    by_cases hji : j = i
    · subst hji
      refine ⟨_, ?_, goes_socket l _ _ (f l.socket)⟩
      show (s.lines.modify j _)[j]? = _
      rw [List.getElem?_modify, hi, Option.map_eq_map, Option.map_some, if_pos rfl]
    · refine ⟨l, ?_, hsame _⟩
      show (s.lines.modify j _)[i]? = _
      rw [List.getElem?_modify, hi, Option.map_eq_map, Option.map_some, if_neg hji]
  | stops closeAll =>
    refine ⟨l, ?_, hsame _⟩
    show (s.stop closeAll).2.lines[i]? = some l
    rw [lines_stop, hi]
  | receives | handles | closes | ticks | becomes => exact ⟨l, hi, hsame _⟩

/-- How many lines there are. -/
theorem length_lines_perform (hmove : ∀ network peer, move ≠ .accepts network peer) :
    (s.perform move).lines.length = s.lines.length := by
  have honLine (i : Nat) (f : Line → Exchange → Line × Exchange) :
      (s.onLine i f).lines.length = s.lines.length := by
    unfold onLine
    split
    · exact List.length_set
    · rfl
  cases move with
  | accepts network peer => exact absurd rfl (hmove network peer)
  | welcomes i | equips i | reads i | watches i | writes i | leaves i | departs i =>
    exact honLine ..
  | peers i f => exact List.length_modify ..
  | stops closeAll => exact congrArg List.length (lines_stop s closeAll)
  | receives | handles | closes | ticks | becomes => rfl

/-- **A line was there before** and went on from there, or it was just accepted. -/
theorem lines_perform (hs : s.Seated) (hi : (s.perform move).lines[i]? = some l') :
    (∃ l, s.lines[i]? = some l ∧ Goes i move l s.exchange l' (s.perform move).exchange) ∨
      ∃ network peer, move = .accepts network peer ∧
        l' = (Line.accept network peer s.exchange).1 := by
  by_cases hlt : i < s.lines.length
  · have hl := List.getElem?_eq_getElem hlt
    obtain ⟨l₁, hl₁, hgoes⟩ := goes_perform hs hl move
    obtain rfl := Option.some.inj (hi.symm.trans hl₁)
    exact .inl ⟨_, hl, hgoes⟩
  have hlength := (List.getElem?_eq_some_iff.mp hi).1
  by_cases hmove : ∃ network peer, move = .accepts network peer
  · obtain ⟨network, peer, rfl⟩ := hmove
    have hconcat : (s.lines ++ [(Line.accept network peer s.exchange).1])[i]? = some l' := hi
    have hlength : i < (s.lines ++ [(Line.accept network peer s.exchange).1]).length := hlength
    rw [List.length_append, List.length_singleton] at hlength
    obtain rfl : i = s.lines.length := by omega
    rw [List.getElem?_concat_length] at hconcat
    exact .inr ⟨network, peer, rfl, (Option.some.inj hconcat).symm⟩
  · rw [length_lines_perform fun network peer h => hmove ⟨network, peer, h⟩] at hlength
    exact absurd hlength hlt

/-! ## What every move keeps -/

/-- Whatever happens to a line, its place is its own, and it is closed when it is no more read. -/
theorem Goes.sits (h : Goes i move l x l' x') (hlater : x.Later x') (hs : l.Sits x) :
    l'.Sits x' where
  place := h.place ▸ Nat.lt_of_lt_of_le hs.place hlater.length
  closed hnone := by
    rw [h.place]
    exact (h.intake hnone).elim (fun hnone => hlater.closed _ hs.place (hs.closed hnone)) id

/-- **Every line keeps its connection** over one move. -/
theorem seated_perform (hs : s.Seated) (move : Move) : (s.perform move).Seated := by
  intro i l' hi
  rcases lines_perform hs hi with ⟨l, hl, hgoes⟩ | ⟨network, peer, rfl, rfl⟩
  · exact hgoes.sits (happens_perform hs move).later (hs i l hl)
  · exact Line.sits_accept network peer s.exchange

/-- Every line keeps its connection over all moves. -/
theorem seated_run (hs : s.Seated) (moves : List Move) : (s.run moves).Seated := by
  induction moves generalizing s with
  | nil => exact hs
  | cons move moves ih => exact ih (seated_perform hs move)

/-- The plan stays. -/
theorem plan_run (hs : s.Seated) (moves : List Move) :
    (s.run moves).exchange.plan = s.exchange.plan := by
  induction moves generalizing s with
  | nil => rfl
  | cons move moves ih =>
    exact (ih (seated_perform hs move)).trans (happens_perform hs move).later.plan

@[simp] theorem lines_ofPlan (plan : Plan) (host : Host) : (ofPlan plan host).lines = [] := rfl

theorem seated_ofPlan (plan : Plan) (host : Host) : (ofPlan plan host).Seated := by
  intro i l hi
  rw [lines_ofPlan, List.getElem?_nil] at hi
  exact nomatch hi

end Service

end Switchboard
