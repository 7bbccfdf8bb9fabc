import Switchboard.Proofs.Service.Undisturbed
import Switchboard.Proofs.Session.Marks

/-!
# Proofs/Service/Watching — what passes a watch by

A watch over a line looks at the time and at the marks of its connection, and keeps what it has in
mind in the line.  Two lines never share a connection (`Service.Spread`), so of all moves just
these matter to a watch: its own looks, a handler of its connection that tells it something, a
millisecond that passes, and the end of the line, which finds the connection closed
(`Service.mark_perform`, `Service.clock_perform`, `Service.watches_perform`).

The watches of a line look one after another, and each look is a step by itself
(`Service.perform_watches`).
-/

namespace Switchboard

/-! ## Steps that watches cannot see -/

/-- **Neither the time nor a mark changes.** -/
structure Exchange.Calm (x x' : Exchange) : Prop where
  marks : x.hub.SameMarks x'.hub
  clock : x'.clock = x.clock

namespace Exchange

variable {x x' x'' : Exchange}

theorem Calm.refl (x : Exchange) : x.Calm x := ⟨.refl _, rfl⟩

theorem Calm.trans (h : x.Calm x') (h' : x'.Calm x'') : x.Calm x'' :=
  ⟨h.marks.trans h'.marks, h'.clock.trans h.clock⟩

theorem calm_withHub {hub : Hub} (h : x.hub.SameMarks hub) : x.Calm (x.withHub hub) := ⟨h, rfl⟩

/-- A close leaves the marks and the time. -/
theorem calm_close (x : Exchange) (c : Place) : x.Calm (x.close c) :=
  calm_withHub (Hub.sameMarks_close ..)

theorem calm_note (x : Exchange) (e : Event) : x.Calm (x.note e) := ⟨.refl _, rfl⟩

/-- Closing all leaves the marks and the time. -/
theorem calm_closeAll (x : Exchange) : x.Calm x.closeAll := by
  unfold closeAll
  split
  · exact ⟨.refl _, rfl⟩
  · exact calm_withHub (Hub.sameMarks_closeAll _)

end Exchange

namespace Outlet

variable {o o' : Outlet} {now : Nat} {place : Place} {c c' : Channel}

/-- A step of the writing task tells the watches nothing. -/
theorem Handles.sameMarks (h : Handles now place o c o' c') : c.hub.SameMarks c'.hub := by
  cases h with
  | takes reply taken socket left serving idle => exact Hub.sameMarks_takeReply taken
  | refuses reply hub taken long hub' =>
    have htaken := Hub.sameMarks_takeReply taken
    rcases hub' with hclosed | ⟨hsame, -⟩
    · rw [hclosed]
      exact htaken.trans (Hub.sameMarks_close hub place)
    · rwa [hsame]
  | writes hub bytes serving idle nearer =>
    rw [hub]
    exact .refl _
  | turns same left serving idle nearer =>
    rw [same]
    exact .refl _
  | givesUp why hub =>
    rcases hub with hclosed | ⟨hsame, -⟩
    · rw [hclosed]
      exact Hub.sameMarks_close _ place
    · rw [hsame]
      exact .refl _

/-- A run of the writing task tells the watches nothing. -/
theorem sameMarks_run (budget : Nat) (o : Outlet) (now : Nat) (place : Place) (c : Channel) :
    c.hub.SameMarks (o.run budget now place c).2.hub := by
  induction budget generalizing o c with
  | zero => exact .refl _
  | succ budget ih =>
    unfold run
    cases hstep : o.step now place c with
    | none => exact .refl _
    | some r => exact (handles_step hstep).sameMarks.trans (ih r.1 r.2)

end Outlet

namespace Line

variable {l : Line} {x : Exchange} {r r' : Line × Exchange}

/-- **Watches go on**, or end with the connection closed. -/
def LetsWatch (l l' : Line) (x' : Exchange) : Prop :=
  l'.heartbeat = l.heartbeat ∧ l'.auth = l.auth ∨
    l'.heartbeat = none ∧ l'.auth = none ∧ (x'.connection l.place).closed = true

/-- **A step passes the watches by**: nothing they see changes, and they go on or end with the
connection closed. -/
structure Passes (l : Line) (x : Exchange) (r : Line × Exchange) : Prop where
  calm : x.Calm r.2
  watches : l.LetsWatch r.1 r.2

theorem passes_refl (l : Line) (x : Exchange) : Passes l x (l, x) :=
  ⟨.refl x, .inl ⟨rfl, rfl⟩⟩

/-- The hook for connections that open does not speak to the watches. -/
theorem passes_welcome (l : Line) (x : Exchange) : Passes l x (l.welcome x) := by
  unfold welcome
  split
  · refine ⟨?_, .inl ⟨rfl, rfl⟩⟩
    show x.Calm (l.runOpeningHook x)
    unfold runOpeningHook
    split
    · exact x.calm_note _
    · exact x.calm_close _
    · exact .refl x
    · exact .refl x
  · exact passes_refl l x

/-- Once the watches are set up, they are not set up again. -/
theorem passes_equip (hstage : l.stage ≠ .accepted) (x : Exchange) : Passes l x (l.equip x) := by
  rw [equip, if_neg hstage]
  exact passes_refl l x

/-- The intake stops the watches only with the connection closed. -/
theorem passes_takeIn (l : Line) (i : Intake) (x : Exchange) : Passes l x (l.takeIn i x) := by
  unfold takeIn
  generalize i.feed l.socket.arrived = fed
  obtain ⟨blocks, next⟩ := fed
  have hdispatch : x.Calm (x.dispatch l.place blocks) := ⟨.refl _, rfl⟩
  cases next with
  | error e => exact ⟨hdispatch.trans (Exchange.calm_close ..), .inl ⟨rfl, rfl⟩⟩
  | ok i' =>
    dsimp only
    split
    · exact ⟨hdispatch.trans (Exchange.calm_close ..), .inl ⟨rfl, rfl⟩⟩
    · exact ⟨hdispatch, .inl ⟨rfl, rfl⟩⟩

/-- A read passes the watches by. -/
theorem passes_read (l : Line) (x : Exchange) : Passes l x (l.read x) := by
  unfold read
  split
  · split
    · exact ⟨.refl x, .inl ⟨rfl, rfl⟩⟩
    · exact passes_takeIn ..
  · exact passes_refl l x

theorem passes_write (l : Line) (x : Exchange) : Passes l x (l.write x) := by
  have hrun : x.hub.SameMarks (l.outlet.proceed x.clock l.place ⟨x.hub, l.socket⟩).2.hub :=
    Outlet.sameMarks_run _ _ _ _ ⟨x.hub, l.socket⟩
  unfold write
  generalize l.outlet.proceed x.clock l.place ⟨x.hub, l.socket⟩ = r at hrun
  obtain ⟨outlet, c⟩ := r
  refine ⟨Exchange.calm_withHub ?_, .inl ⟨rfl, rfl⟩⟩
  split
  · exact hrun.trans (Hub.sameMarks_of_connections rfl)
  · exact hrun

theorem passes_leave (l : Line) (x : Exchange) : Passes l x (l.leave x) := by
  unfold leave
  split
  · exact ⟨Exchange.calm_withHub (Hub.sameMarks_forget ..), .inl ⟨rfl, rfl⟩⟩
  · exact passes_refl l x

/-- **A line that ends stops its watches**: nothing is read from it, so it is closed. -/
theorem passes_depart (hs : l.Sits x) : Passes l x (l.depart x) := by
  have hsteady := (tends_depart hs).steady
  unfold depart at hsteady ⊢
  split
  · rename_i hleft
    rw [if_pos hleft] at hsteady
    refine ⟨?_, .inr ⟨rfl, rfl, hsteady.online.closed _ (hs.closed hleft.2)⟩⟩
    dsimp only
    split
    · exact x.calm_note _
    · exact .refl x
  · exact passes_refl l x

/-! ## One watch and another -/

/-- The watch for signals leaves the marks to the other two. -/
theorem calm_watchSignal (l : Line) (x : Exchange) : x.Calm (l.watchSignal x).2 := by
  unfold watchSignal
  split
  · split
    · exact x.calm_close _
    · exact .refl x
  · exact .refl x

/-- The watch for signals leaves the others alone. -/
theorem watches_watchSignal (l : Line) (x : Exchange) :
    (l.watchSignal x).1.heartbeat = l.heartbeat ∧ (l.watchSignal x).1.auth = l.auth := by
  unfold watchSignal
  split
  · split <;> exact ⟨rfl, rfl⟩
  · exact ⟨rfl, rfl⟩

/-- The watch over authentication reads its mark and writes none. -/
theorem calm_watchAuth (l : Line) (x : Exchange) : x.Calm (l.watchAuth x).2 := by
  unfold watchAuth
  split
  · split
    · exact .refl x
    split
    · exact .refl x
    · exact .refl x
    · unfold reject
      refine Exchange.calm_withHub ?_
      split
      · exact (Hub.sameMarks_sendPacked ..).trans (Hub.sameMarks_close ..)
      · exact Hub.sameMarks_close ..
  · exact .refl x

/-- The watch over authentication leaves the watch for heartbeats alone. -/
theorem heartbeat_watchAuth (l : Line) (x : Exchange) :
    (l.watchAuth x).1.heartbeat = l.heartbeat := by
  unfold watchAuth
  split
  · split
    · rfl
    split <;> rfl
  · rfl

/-- The watch for heartbeats leaves the watch over authentication alone. -/
theorem auth_watchHeartbeat (l : Line) (x : Exchange) : (l.watchHeartbeat x).1.auth = l.auth := by
  unfold watchHeartbeat
  split
  · split
    · rfl
    split
    · rfl
    split <;> rfl
  · rfl

/-- The watch for heartbeats changes nobody's authentication. -/
theorem mark_watchHeartbeat (l : Line) (x : Exchange) (c : Place) :
    ((l.watchHeartbeat x).2.hub.mark c).auth = (x.hub.mark c).auth := by
  unfold watchHeartbeat
  split
  · split
    · rfl
    split
    · exact Hub.field_modify Connection.auth (f := fun conn => { conn with heartbeat := false })
        (fun _ => rfl) x.hub l.place c
    split
    · rfl
    · exact congrArg Mark.auth ((x.calm_close l.place).marks.mark c)
  · rfl

theorem clock_watchHeartbeat (l : Line) (x : Exchange) :
    (l.watchHeartbeat x).2.clock = x.clock := by
  unfold watchHeartbeat
  split
  · split
    · rfl
    split
    · rfl
    split <;> rfl
  · rfl

theorem clock_watch (l : Line) (x : Exchange) : (l.watch x).2.clock = x.clock :=
  ((calm_watchSignal _ _).clock.trans (calm_watchAuth _ _).clock).trans
    (clock_watchHeartbeat l x)

end Line

namespace Service

variable {s : Service} {move : Move} {i : Nat} {l : Line}

/-! ## Lines with their own connections -/

/-- **No two lines have the same connection.** -/
structure Spread (s : Service) : Prop where
  seated : s.Seated
  places : ∀ (i j : Nat) (l l' : Line), s.lines[i]? = some l → s.lines[j]? = some l' →
    l.place = l'.place → i = j

/-- There are no lines at first. -/
theorem spread_ofPlan (plan : Plan) (host : Host) : (ofPlan plan host).Spread where
  seated := seated_ofPlan plan host
  places i j l l' hi := by
    rw [lines_ofPlan, List.getElem?_nil] at hi
    exact nomatch hi

/-- Who joins is the last line. -/
theorem Seated.eq_length_of_place (h : s.Seated) {network : Network} {peer : String}
    (hi : (s.perform (.accepts network peer)).lines[i]? = some l)
    (hplace : l.place = (Line.accept network peer s.exchange).1.place) : i = s.lines.length := by
  have hi : (s.lines ++ [(Line.accept network peer s.exchange).1])[i]? = some l := hi
  rcases Nat.lt_or_ge i s.lines.length with hlt | hge
  · rw [List.getElem?_append_left hlt] at hi
    exact absurd hplace (Nat.ne_of_lt (h i l hi).place)
  · have hlt := (List.getElem?_eq_some_iff.mp hi).1
    rw [List.length_append, List.length_singleton] at hlt
    exact Nat.le_antisymm (Nat.lt_succ_iff.mp hlt) hge

/-- **Every move keeps them apart**: who joins gets a new place. -/
theorem Spread.perform (h : s.Spread) (move : Move) : (s.perform move).Spread where
  seated := seated_perform h.seated move
  places i j l l' hi hj hplace := by
    rcases lines_perform h.seated hi with ⟨l₀, hl₀, hgoes⟩ | ⟨network, peer, rfl, rfl⟩
    · rcases lines_perform h.seated hj with ⟨l₁, hl₁, hgoes'⟩ | ⟨network, peer, rfl, rfl⟩
      · exact h.places i j l₀ l₁ hl₀ hl₁ (hgoes.place.symm.trans (hplace.trans hgoes'.place))
      · rw [h.seated.eq_length_of_place hi hplace, h.seated.eq_length_of_place hj rfl]
    · rw [h.seated.eq_length_of_place hi rfl, h.seated.eq_length_of_place hj hplace.symm]

/-- **However the service moves, no two lines share a connection.** -/
theorem Spread.run (h : s.Spread) (moves : List Move) : (s.run moves).Spread := by
  induction moves generalizing s with
  | nil => exact h
  | cons move moves ih => exact ih (h.perform move)

/-! ## What a move does to what a watch sees -/

/-- What a move tells the watches over the connection at a place. -/
def Move.tidings? (c : Place) : Move → Option Tidings
  | .handles r a => if r.place = c then a.tidings? r.block else none
  | _ => none

/-- How many milliseconds pass by a move. -/
def Move.elapsed : Move → Nat
  | .ticks => 1
  | _ => 0

/-- A line that is calm makes a calm move. -/
theorem calm_onLine {f : Line → Exchange → Line × Exchange}
    (hf : ∀ l, s.lines[i]? = some l → s.exchange.Calm (f l s.exchange).2) :
    s.exchange.Calm (s.onLine i f).exchange := by
  cases hi : s.lines[i]? with
  | none =>
    rw [onLine_of_none hi]
    exact .refl _
  | some l =>
    rw [exchange_onLine hi]
    exact hf l hi

/-- A stop gives a signal or closes; it marks nothing. -/
theorem calm_stop (s : Service) (closeAll : Bool) :
    s.exchange.Calm (s.stop closeAll).2.exchange := by
  unfold Service.stop
  split
  · exact .refl _
  · cases closeAll with
    | false => exact .refl _
    | true => exact Exchange.calm_closeAll _

/-- **A watch sees of a move what the move tells it**, unless it is its own line that is watched. -/
theorem mark_perform (h : s.Spread) (hi : s.lines[i]? = some l) (hmove : move ≠ .watches i) :
    (s.perform move).exchange.hub.mark l.place =
      (s.exchange.hub.mark l.place).after (move.tidings? l.place) := by
  have hplace := (h.seated i l hi).place
  cases move with
  | accepts network peer =>
    have hconnections : (s.perform (.accepts network peer)).exchange.hub.connections =
        s.exchange.hub.connections ++ [_] := rfl
    exact congrArg Connection.mark (Hub.connection_of_append hconnections hplace)
  | receives network queue peer datagram =>
    show (Datagram.receive network queue peer datagram s.exchange).hub.mark l.place = _
    unfold Datagram.receive
    split
    · rfl
    · have hconnections {conn : Connection} : (s.exchange.hub.addConnection conn).2.connections =
          s.exchange.hub.connections ++ [conn] := rfl
      exact congrArg Connection.mark (Hub.connection_of_append hconnections hplace)
  | welcomes j => exact (calm_onLine fun l _ => (Line.passes_welcome l _).calm).marks.mark _
  | equips j =>
    refine (calm_onLine fun l _ => ?_).marks.mark _
    unfold Line.equip
    split <;> exact .refl _
  | reads j => exact (calm_onLine fun l _ => (Line.passes_read l _).calm).marks.mark _
  | watches j =>
    -- the watches of another line touch another connection
    have hne : j ≠ i := fun hji => hmove (hji ▸ rfl)
    have honly := onlyAt_onLine (s := s) (i := j) fun l => l.onlyAt_watch s.exchange
    refine congrArg Connection.mark (honly.connection _ ?_)
    rintro ⟨l', hj, hsame⟩
    exact hne (h.places j i l' l hj hi hsame.symm)
  | writes j => exact (calm_onLine fun l _ => (Line.passes_write l _).calm).marks.mark _
  | leaves j => exact (calm_onLine fun l _ => (Line.passes_leave l _).calm).marks.mark _
  | departs j =>
    exact (calm_onLine fun l hl => (Line.passes_depart (h.seated j l hl)).calm).marks.mark _
  | handles r a =>
    refine ((Hub.marks_perform ⟨s.exchange.desk, r, false⟩ a).mark _ hplace).trans ?_
    by_cases hr : r.place = l.place
    · simp [Move.tidings?, hr, Exchange.hub]
    · simp [Move.tidings?, hr, Ne.symm hr, Mark.after, Exchange.hub]
  | closes c => exact (s.exchange.calm_close c).marks.mark _
  | stops closeAll => exact (calm_stop s closeAll).marks.mark _
  | peers | ticks | becomes => rfl

/-- Time passes by ticks and by nothing else. -/
theorem clock_perform (s : Service) (move : Move) :
    (s.perform move).exchange.clock = s.exchange.clock + move.elapsed := by
  have honLine {f : Line → Exchange → Line × Exchange} (i : Nat)
      (hf : ∀ l, (f l s.exchange).2.clock = s.exchange.clock) :
      (s.onLine i f).exchange.clock = s.exchange.clock := by
    unfold onLine
    split
    · exact hf _
    · rfl
  cases move with
  | receives network queue peer datagram =>
    show (Datagram.receive network queue peer datagram s.exchange).clock = _
    unfold Datagram.receive
    split <;> rfl
  | welcomes i => exact honLine i fun l => (Line.passes_welcome l _).calm.clock
  | equips i =>
    refine honLine i fun l => ?_
    unfold Line.equip
    split <;> rfl
  | reads i => exact honLine i fun l => (Line.passes_read l _).calm.clock
  | watches i => exact honLine i fun l => Line.clock_watch l _
  | writes i => exact honLine i fun l => (Line.passes_write l _).calm.clock
  | leaves i => exact honLine i fun l => (Line.passes_leave l _).calm.clock
  | departs i =>
    refine honLine i fun l => ?_
    unfold Line.depart
    split
    · dsimp only
      split <;> rfl
    · rfl
  | stops closeAll => exact (calm_stop s closeAll).clock
  | accepts | handles | closes | peers | ticks | becomes => rfl

/-- A line is found again, and its watches as they were if the step passes them by. -/
theorem watches_onLine {f : Line → Exchange → Line × Exchange} {j : Nat}
    (hi : s.lines[i]? = some l) (hf : j = i → l.Passes s.exchange (f l s.exchange)) :
    ∃ l', (s.onLine j f).lines[i]? = some l' ∧
      l.LetsWatch l' (s.onLine j f).exchange := by
  by_cases hji : j = i
  · subst hji
    rw [lines_onLine hi, exchange_onLine hi]
    exact ⟨_, List.getElem?_set_self (List.getElem?_eq_some_iff.mp hi).1, (hf rfl).watches⟩
  · exact ⟨l, getElem?_onLine_of_ne hi hji, .inl ⟨rfl, rfl⟩⟩

/-- **The watches of a line go on**, or end with its connection closed, unless they look. -/
theorem watches_perform (hs : s.Seated) (hi : s.lines[i]? = some l) (hstage : l.stage ≠ .accepted)
    (hmove : move ≠ .watches i) :
    ∃ l', (s.perform move).lines[i]? = some l' ∧ l.LetsWatch l' (s.perform move).exchange := by
  by_cases hline : move.line? ≠ some i
  · exact ⟨l, getElem?_perform_of_ne hi hline, .inl ⟨rfl, rfl⟩⟩
  have hline := Decidable.not_not.mp hline
  cases move with
  | welcomes j => exact watches_onLine hi fun _ => l.passes_welcome _
  | equips j => exact watches_onLine hi fun _ => Line.passes_equip hstage _
  | reads j => exact watches_onLine hi fun _ => l.passes_read _
  | watches j => exact absurd (congrArg Move.watches (Option.some.inj hline)) hmove
  | writes j => exact watches_onLine hi fun _ => l.passes_write _
  | leaves j => exact watches_onLine hi fun _ => l.passes_leave _
  | departs j => exact watches_onLine hi fun _ => Line.passes_depart (hs i l hi)
  | peers j f =>
    obtain rfl : j = i := Option.some.inj hline
    refine ⟨{ l with socket := f l.socket }, ?_, .inl ⟨rfl, rfl⟩⟩
    show (s.lines.modify j _)[j]? = _
    rw [List.getElem?_modify, hi, Option.map_eq_map, Option.map_some, if_pos rfl]
  | accepts | receives | handles | closes | ticks | becomes | stops => exact nomatch hline

/-! ## One look after another -/

/-- The watches of a line. -/
inductive Watcher where
  /-- The watch for heartbeats. -/
  | heartbeat
  /-- The watch over authentication. -/
  | auth
  /-- The watch for signals to close. -/
  | signal
deriving Repr, DecidableEq

/-- One look of a watch. -/
def Watcher.look : Watcher → Line → Exchange → Line × Exchange
  | heartbeat => Line.watchHeartbeat
  | auth => Line.watchAuth
  | signal => Line.watchSignal

/-- **The watches of a line look** one after another. -/
theorem perform_watches (s : Service) (i : Nat) :
    s.perform (.watches i) =
      ((s.onLine i (Watcher.look .heartbeat)).onLine i (Watcher.look .auth)).onLine i
        (Watcher.look .signal) := by
  show s.onLine i Line.watch = _
  cases hi : s.lines[i]? with
  | none => rw [onLine_of_none hi, onLine_of_none hi, onLine_of_none hi, onLine_of_none hi]
  | some l =>
    have hlt := (List.getElem?_eq_some_iff.mp hi).1
    simp [onLine, hlt, Line.watch, Watcher.look]

end Service

end Switchboard
