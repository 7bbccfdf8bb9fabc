import Switchboard.Proofs.Service.Watching

/-!
# Proofs/Service/Vigil — a watch over one line, from the time it is set up

A vigil follows one watch of one line through whatever happens to the service.  It writes down
when handlers told the watch something, when the watch gave the connection up, and when the
connection was lost to anything else.  Moves of all lines and handlers come in any order, and so do
looks of all watches; just the time waits for the watch, which is woken whenever it has something
to do (`Guard.Course`).

A connection is closed once, by a look of the watch or otherwise (`Guard.Ends`).  What a watch is to
do is told by what holds while it is awake and by when the connection is due to be given up
(`Duty`); it does so if the duty stands every incident (`Guard.Keeps.next`).
-/

namespace Switchboard

namespace Service

variable {s : Service} {i : Nat} {l l' : Line}

/-! ## Incidents -/

/-- What happens to a service, where each watch looks by itself. -/
inductive Incident where
  /-- A move is made. -/
  | moves (move : Move)
  /-- One watch of line `i` looks. -/
  | looks (i : Nat) (w : Watcher)

/-- The service after an incident. -/
def meet (s : Service) : Incident → Service
  | .moves move => s.perform move
  | .looks i w => s.onLine i w.look

namespace Incident

/-- What an incident tells the watches over the connection at a place. -/
def tidings? (c : Place) : Incident → Option Tidings
  | moves move => move.tidings? c
  | looks .. => none

/-- How many milliseconds pass. -/
def elapsed : Incident → Nat
  | moves move => move.elapsed
  | looks .. => 0

/-- No more than one passes at a time. -/
theorem elapsed_eq_one {e : Incident} (h : e.elapsed ≠ 0) : e.elapsed = 1 := by
  cases e with
  | looks => exact absurd rfl h
  | moves move =>
    cases move with
    | ticks => rfl
    | _ => exact absurd rfl h

/-- Who is told something is told at once. -/
theorem elapsed_of_tidings {e : Incident} {c : Place} {told : Tidings}
    (h : e.tidings? c = some told) : e.elapsed = 0 := by
  cases e with
  | looks => rfl
  | moves move =>
    cases move with
    | ticks => cases h
    | _ => rfl

/-- Is it this watch of line `i` that looks? -/
def isLook (i : Nat) (w : Watcher) : Incident → Bool
  | looks j w' => j == i && w' == w
  | moves _ => false

/-- There is one incident by which this watch looks. -/
theorem eq_of_isLook {i : Nat} {w : Watcher} {e : Incident} (h : e.isLook i w = true) :
    e = .looks i w := by
  cases e with
  | moves => cases h
  | looks j w' =>
    obtain ⟨hline, hwatch⟩ := Bool.and_eq_true_iff.mp h
    rw [eq_of_beq hline, eq_of_beq hwatch]

/-- Do all watches of line `i` look at one go? -/
def isWatch (i : Nat) : Incident → Bool
  | moves (.watches j) => j == i
  | _ => false

end Incident

end Service

namespace Line

variable {l : Line} {x : Exchange}

/-- A look leaves the pool alone. -/
theorem tends_look (hs : l.Sits x) (w : Service.Watcher) : Tends l x (w.look l x) := by
  cases w with
  | heartbeat => exact tends_watchHeartbeat l x
  | auth => exact tends_watchAuth l x
  | signal => exact tends_watchSignal hs

/-- A look touches no connection but that of the line. -/
theorem onlyAt_look (l : Line) (x : Exchange) (w : Service.Watcher) :
    x.hub.OnlyAt (· = l.place) (w.look l x).2.hub := by
  cases w with
  | heartbeat => exact onlyAt_watchHeartbeat l x
  | auth => exact onlyAt_watchAuth l x
  | signal => exact onlyAt_watchSignal l x

theorem clock_look (l : Line) (x : Exchange) (w : Service.Watcher) :
    (w.look l x).2.clock = x.clock := by
  cases w with
  | heartbeat => exact clock_watchHeartbeat l x
  | auth => exact (calm_watchAuth l x).clock
  | signal => exact (calm_watchSignal l x).clock

end Line

namespace Service

variable {s : Service} {i : Nat} {l l' : Line} {e : Incident}

/-! ## What every incident keeps -/

/-- **A line goes on**: it has the same connection, and is not set up again. -/
structure GoesOn (l l' : Line) : Prop where
  place : l'.place = l.place
  greeted : l.stage ≠ .accepted → l'.stage ≠ .accepted

/-- What is done to one line lets all others go on. -/
theorem goesOn_onLine {f : Line → Exchange → Line × Exchange} {j : Nat} (hi : s.lines[i]? = some l)
    (hf : j = i → GoesOn l (f l s.exchange).1) :
    ∃ l', (s.onLine j f).lines[i]? = some l' ∧ GoesOn l l' := by
  by_cases hji : j = i
  · subst hji
    rw [lines_onLine hi]
    exact ⟨_, List.getElem?_set_self (List.getElem?_eq_some_iff.mp hi).1, hf rfl⟩
  · exact ⟨l, getElem?_onLine_of_ne hi hji, rfl, id⟩

/-- **A line goes on whatever happens.** -/
theorem goesOn_meet (hs : s.Seated) (hi : s.lines[i]? = some l) (e : Incident) :
    ∃ l', (s.meet e).lines[i]? = some l' ∧ GoesOn l l' := by
  cases e with
  | moves move =>
    obtain ⟨l', hl', hgoes⟩ := goes_perform hs hi move
    exact ⟨l', hl', hgoes.place, fun h h' => h (hgoes.accepted h')⟩
  | looks j w =>
    refine goesOn_onLine hi fun _ => ?_
    have htends := Line.tends_look (hs i l hi) w
    exact ⟨htends.place, fun h h' => h (htends.accepted.mp h')⟩

/-- A look finds every line where it was. -/
theorem lines_look (hs : s.Seated) {w : Watcher} {j : Nat}
    (hj : (s.onLine i w.look).lines[j]? = some l') :
    ∃ l, s.lines[j]? = some l ∧ GoesOn l l' := by
  have hlt : j < s.lines.length := by
    have hlt := (List.getElem?_eq_some_iff.mp hj).1
    rw [onLine] at hlt
    split at hlt
    · rwa [List.length_set] at hlt
    · exact hlt
  have hl := List.getElem?_eq_getElem hlt
  obtain ⟨l₁, hl₁, hon⟩ := goesOn_meet hs hl (.looks i w)
  exact ⟨_, hl, Option.some.inj (hl₁.symm.trans hj) ▸ hon⟩

theorem seated_look (hs : s.Seated) (i : Nat) (w : Watcher) : (s.onLine i w.look).Seated := by
  cases hi : s.lines[i]? with
  | none => rwa [onLine_of_none hi]
  | some l₀ =>
    intro j l' hj
    have htends := Line.tends_look (hs i l₀ hi) w
    rw [exchange_onLine hi]
    rw [lines_onLine hi] at hj
    by_cases hij : i = j
    · subst hij
      rw [List.getElem?_set_self (List.getElem?_eq_some_iff.mp hi).1] at hj
      exact Option.some.inj hj ▸ htends.sits (hs i l₀ hi)
    · rw [List.getElem?_set_ne hij] at hj
      have hsits := hs j l' hj
      refine ⟨?_, fun hnone => htends.steady.online.closed _ (hsits.closed hnone)⟩
      rw [htends.steady.online.places.length]
      exact hsits.place

/-- No two lines come to share a connection. -/
theorem Spread.meet (h : s.Spread) (e : Incident) : (s.meet e).Spread := by
  cases e with
  | moves move => exact h.perform move
  | looks i w =>
    refine ⟨seated_look h.seated i w, fun j k l l' hj hk hplace => ?_⟩
    obtain ⟨l₀, hl₀, hon⟩ := lines_look h.seated hj
    obtain ⟨l₁, hl₁, hon'⟩ := lines_look h.seated hk
    exact h.places j k l₀ l₁ hl₀ hl₁ (hon.place.symm.trans (hplace.trans hon'.place))

/-- Nobody who was closed is open later. -/
theorem later_meet (hs : s.Seated) (e : Incident) : s.exchange.Later (s.meet e).exchange := by
  cases e with
  | moves move => exact (happens_perform hs move).later
  | looks i w =>
    show s.exchange.Later (s.onLine i w.look).exchange
    cases hi : s.lines[i]? with
    | none =>
      rw [onLine_of_none hi]
      exact (Exchange.Steady.refl _).later
    | some l =>
      rw [exchange_onLine hi]
      exact (Line.tends_look (hs i l hi) w).steady.later

/-- Time passes by ticks, not by looks. -/
theorem clock_meet (s : Service) (e : Incident) :
    (s.meet e).exchange.clock = s.exchange.clock + e.elapsed := by
  cases e with
  | moves move => exact clock_perform s move
  | looks i w =>
    show (s.onLine i w.look).exchange.clock = s.exchange.clock
    unfold onLine
    split
    · exact Line.clock_look ..
    · rfl

/-- A look changes the line that is watched as the watch does. -/
theorem lines_meet_looks (hi : s.lines[i]? = some l) (w : Watcher) :
    (s.meet (.looks i w)).lines[i]? = some (w.look l s.exchange).1 := by
  show (s.onLine i w.look).lines[i]? = _
  rw [lines_onLine hi, List.getElem?_set_self (List.getElem?_eq_some_iff.mp hi).1]

/-- A look changes what all lines share as the watch does. -/
theorem exchange_meet_looks (hi : s.lines[i]? = some l) (w : Watcher) :
    (s.meet (.looks i w)).exchange = (w.look l s.exchange).2 :=
  exchange_onLine hi

/-! ## What a watch is told -/

/-- **A watch is let alone** by what is not its own look: it goes on or ends with its connection
closed, and what it sees is what it is told. -/
structure Lets {α β : Type} (watch : Line → Option α) (sees : Mark → β) (e : Incident) (l : Line)
    (x : Exchange) (l' : Line) (x' : Exchange) : Prop where
  watch : watch l' = watch l ∨ watch l' = none ∧ (x'.connection l.place).closed = true
  sees : sees (x'.hub.mark l.place) = sees ((x.hub.mark l.place).after (e.tidings? l.place))

section

variable {α β : Type} {watch : Line → Option α} {sees : Mark → β}

/-- **A move lets a watch alone**, unless it is the look of all watches of the line. -/
theorem lets_moves (h : s.Spread) (hi : s.lines[i]? = some l) (hstage : l.stage ≠ .accepted)
    {move : Move} (hmove : move ≠ .watches i)
    (hi' : (s.perform move).lines[i]? = some l')
    (hwatch : ∀ l', (l'.heartbeat = l.heartbeat ∧ l'.auth = l.auth → watch l' = watch l) ∧
      (l'.heartbeat = none ∧ l'.auth = none → watch l' = none)) :
    Lets watch sees (.moves move) l s.exchange l' (s.perform move).exchange := by
  obtain ⟨l₁, hl₁, hlets⟩ := watches_perform h.seated hi hstage hmove
  obtain rfl := Option.some.inj (hl₁.symm.trans hi')
  refine ⟨?_, congrArg sees (mark_perform h hi hmove)⟩
  rcases hlets with hsame | ⟨hheartbeat, hauth, hclosed⟩
  · exact .inl ((hwatch l₁).1 hsame)
  · exact .inr ⟨(hwatch l₁).2 ⟨hheartbeat, hauth⟩, hclosed⟩

/-- A look of another line's watch lets this one alone, and so does one that neither changes it
nor what it sees. -/
theorem lets_looks (h : s.Spread) (hi : s.lines[i]? = some l) {j : Nat} {w : Watcher}
    (hi' : (s.onLine j w.look).lines[i]? = some l')
    (hself : j = i → watch (w.look l s.exchange).1 = watch l ∧
      sees ((w.look l s.exchange).2.hub.mark l.place) = sees (s.exchange.hub.mark l.place)) :
    Lets watch sees (.looks j w) l s.exchange l' (s.onLine j w.look).exchange := by
  by_cases hji : j = i
  · subst hji
    obtain ⟨hwatch, hsees⟩ := hself rfl
    rw [lines_onLine hi, List.getElem?_set_self (List.getElem?_eq_some_iff.mp hi).1] at hi'
    obtain rfl := Option.some.inj hi'
    rw [exchange_onLine hi]
    exact ⟨.inl hwatch, hsees⟩
  · rw [getElem?_onLine_of_ne hi hji] at hi'
    obtain rfl := Option.some.inj hi'
    refine ⟨.inl rfl, congrArg sees (congrArg Connection.mark ?_)⟩
    refine (onlyAt_onLine fun l => l.onlyAt_look s.exchange w).connection _ ?_
    rintro ⟨l', hj, hsame⟩
    exact hji (h.places j i l' l hj hi hsame.symm)

end

/-- The watch for heartbeats is let alone by what is not its look. -/
theorem lets_heartbeat (h : s.Spread) (hi : s.lines[i]? = some l) (hstage : l.stage ≠ .accepted)
    (hwatch : e.isWatch i = false) (hlook : e.isLook i .heartbeat = false)
    (hi' : (s.meet e).lines[i]? = some l') :
    Lets Line.heartbeat Mark.heartbeat e l s.exchange l' (s.meet e).exchange := by
  cases e with
  | moves move =>
    refine lets_moves h hi hstage ?_ hi' fun _ => ⟨And.left, And.left⟩
    rintro rfl
    simp [Incident.isWatch] at hwatch
  | looks j w =>
    refine lets_looks h hi hi' fun hji => ?_
    cases w with
    | heartbeat => simp [Incident.isLook, hji] at hlook
    | auth =>
      have hmarks := (l.calm_watchAuth s.exchange).marks.mark l.place
      exact ⟨l.heartbeat_watchAuth _, congrArg Mark.heartbeat hmarks⟩
    | signal =>
      have hmarks := (l.calm_watchSignal s.exchange).marks.mark l.place
      exact ⟨(l.watches_watchSignal _).1, congrArg Mark.heartbeat hmarks⟩

/-- The watch over authentication is let alone by what is not its look. -/
theorem lets_auth (h : s.Spread) (hi : s.lines[i]? = some l) (hstage : l.stage ≠ .accepted)
    (hwatch : e.isWatch i = false) (hlook : e.isLook i .auth = false)
    (hi' : (s.meet e).lines[i]? = some l') :
    Lets Line.auth Mark.auth e l s.exchange l' (s.meet e).exchange := by
  cases e with
  | moves move =>
    refine lets_moves h hi hstage ?_ hi' fun _ => ⟨And.right, And.right⟩
    rintro rfl
    simp [Incident.isWatch] at hwatch
  | looks j w =>
    refine lets_looks h hi hi' fun hji => ?_
    cases w with
    | auth => simp [Incident.isLook, hji] at hlook
    | heartbeat => exact ⟨l.auth_watchHeartbeat _, l.mark_watchHeartbeat _ _⟩
    | signal =>
      have hmarks := (l.calm_watchSignal s.exchange).marks.mark l.place
      exact ⟨(l.watches_watchSignal _).2, congrArg Mark.auth hmarks⟩

/-! ## Vigils -/

/-- A service while one watch of one line is followed, with what happened to the watch. -/
structure Vigil where
  /-- The service. -/
  service : Service
  /-- When heartbeats were noted, in order. -/
  beats : List Nat
  /-- How the authentication had been decided when the watch was set up. -/
  prior : Option Decision
  /-- When it was decided since, in order. -/
  decisions : List (Nat × Decision)
  /-- When the watch closed the connection. -/
  gaveUp : Option Nat
  /-- When the connection was closed otherwise. -/
  lost : Option Nat

/-- Which watch is followed. -/
structure Guard where
  /-- The watch. -/
  watcher : Watcher
  /-- The line it watches. -/
  line : Nat
  /-- The connection of the line. -/
  place : Place
  /-- When it was set up. -/
  since : Nat
  /-- The plan of the service. -/
  plan : Plan

/-- What a watch is to do. -/
structure Duty where
  /-- What holds of the line while its connection is open. -/
  awake : Vigil → Line → Prop
  /-- The connection is due to be given up at this time. -/
  due : Vigil → Nat → Prop

end Service

namespace Service.Guard

variable (g : Guard)

/-- Is the connection open? -/
def isOpen (s : Service) : Bool := !(s.exchange.connection g.place).closed

/-- The vigil begins when the watches are set up. -/
def start (s : Service) : Vigil where
  service := s.perform (.equips g.line)
  beats := []
  prior := (s.exchange.connection g.place).auth.decision?
  decisions := []
  gaveUp := none
  lost := if g.isOpen s then none else some g.since

/-- **The vigil goes on** with an incident. -/
def next (v : Vigil) (e : Incident) : Vigil :=
  let now := v.service.exchange.clock
  let falls := g.isOpen v.service && !g.isOpen (v.service.meet e)
  { service := v.service.meet e
    beats := if e.tidings? g.place = some .beat then v.beats ++ [now] else v.beats
    prior := v.prior
    decisions := match e.tidings? g.place with
      | some (.decides d) => v.decisions ++ [(now, d)]
      | _ => v.decisions
    gaveUp := if falls && e.isLook g.line g.watcher then some now else v.gaveUp
    lost := if falls && !e.isLook g.line g.watcher then some now else v.lost }

/-- A heartbeat is written down when it is noted. -/
theorem beats_next (v : Vigil) (e : Incident) :
    e.tidings? g.place ≠ some .beat ∧ (g.next v e).beats = v.beats ∨
      e.tidings? g.place = some .beat ∧
        (g.next v e).beats = v.beats ++ [v.service.exchange.clock] := by
  unfold next
  dsimp only
  split
  · exact .inr ⟨‹_›, rfl⟩
  · exact .inl ⟨‹_›, rfl⟩

/-- So is a decision when it is made. -/
theorem decisions_next (v : Vigil) (e : Incident) :
    (∀ d, e.tidings? g.place ≠ some (.decides d)) ∧ (g.next v e).decisions = v.decisions ∨
      ∃ d, e.tidings? g.place = some (.decides d) ∧
        (g.next v e).decisions = v.decisions ++ [(v.service.exchange.clock, d)] := by
  unfold next
  dsimp only
  split
  · exact .inr ⟨_, ‹_›, rfl⟩
  · rename_i hnone
    exact .inl ⟨fun d hd => hnone d hd, rfl⟩

/-- Does the watch have nothing to do? -/
def Rests (v : Vigil) : Prop :=
  ∀ l, v.service.lines[g.line]? = some l →
    g.watcher.look l v.service.exchange = (l, v.service.exchange)

/-- **Everything that can happen** while a watch is followed, from when a service was made.  Time
passes only once the watch has nothing to do, and the watches of its line look one by one
(`perform_watches`). -/
inductive Course : Vigil → Prop where
  /-- The watches of a line that was accepted are set up. -/
  | begins {host : Host} {moves : List Move} {l : Line}
      (hline : ((ofPlan g.plan host).run moves).lines[g.line]? = some l)
      (hstage : l.stage = .accepted) (hplace : l.place = g.place)
      (hclock : ((ofPlan g.plan host).run moves).exchange.clock = g.since) :
      Course (g.start ((ofPlan g.plan host).run moves))
  /-- Something happens. -/
  | goes {v : Vigil} (h : Course v) (e : Incident) (hwatch : e.isWatch g.line = false)
      (hprompt : e.elapsed ≠ 0 → g.Rests v) : Course (g.next v e)

/-! ## What holds of every vigil -/

/-- The line is there and was set up, its connection was closed by the watch, otherwise or not at
all, and whatever was written down is past. -/
structure Sound (v : Vigil) : Prop where
  spread : v.service.Spread
  line : ∃ l, v.service.lines[g.line]? = some l ∧ l.place = g.place ∧ l.stage ≠ .accepted
  plan : v.service.exchange.plan = g.plan
  since : g.since ≤ v.service.exchange.clock
  closed : g.isOpen v.service = false ↔ v.gaveUp.isSome ∨ v.lost.isSome
  once : v.gaveUp = none ∨ v.lost = none
  gaveUp : ∀ t, v.gaveUp = some t → t ≤ v.service.exchange.clock
  lost : ∀ t, v.lost = some t → t ≤ v.service.exchange.clock
  beats : ∀ b ∈ v.beats, b ≤ v.service.exchange.clock
  decisions : ∀ d ∈ v.decisions, d.1 ≤ v.service.exchange.clock

namespace Sound

variable {g} {v : Vigil} {e : Incident}

/-- The connection that is guarded exists. -/
theorem place_lt (h : g.Sound v) : g.place < v.service.exchange.hub.connections.length := by
  obtain ⟨l, hl, hplace, -⟩ := h.line
  exact hplace ▸ (h.spread.seated _ l hl).place

/-- The line keeps the connection that is guarded. -/
theorem place_eq (h : g.Sound v) {l : Line} (hl : v.service.lines[g.line]? = some l) :
    l.place = g.place := by
  obtain ⟨l₀, hl₀, hplace, -⟩ := h.line
  exact Option.some.inj (hl.symm.trans hl₀) ▸ hplace

theorem greeted (h : g.Sound v) {l : Line} (hl : v.service.lines[g.line]? = some l) :
    l.stage ≠ .accepted := by
  obtain ⟨l₀, hl₀, -, hstage⟩ := h.line
  exact Option.some.inj (hl.symm.trans hl₀) ▸ hstage

/-- Whether the connection is open is asked of the same connection at all times. -/
theorem closed_eq (h : g.Sound v) {l : Line} (hl : v.service.lines[g.line]? = some l) :
    (v.service.exchange.connection l.place).closed = !g.isOpen v.service := by
  rw [h.place_eq hl, isOpen, Bool.not_not]

/-- Nobody who was closed is open again. -/
theorem isOpen_meet (h : g.Sound v) (hclosed : g.isOpen v.service = false) (e : Incident) :
    g.isOpen (v.service.meet e) = false := by
  rw [isOpen, Bool.not_eq_false'] at hclosed ⊢
  exact (later_meet h.spread.seated e).closed _ h.place_lt hclosed

/-- A connection that is open now was open before. -/
theorem open_of_meet (h : g.Sound v) (hopen : g.isOpen (v.service.meet e) = true) :
    g.isOpen v.service = true := by
  refine Bool.not_eq_false _ ▸ fun hclosed => ?_
  exact nomatch hopen.symm.trans (h.isOpen_meet hclosed e)

/-- As long as the connection is open a watch that is let alone stays, and sees what it is told. -/
theorem sees_of_lets {α β : Type} {watch : Line → Option α} {sees : Mark → β} (h : g.Sound v)
    {l l' : Line} (hl : v.service.lines[g.line]? = some l)
    (hlets : Lets watch sees e l v.service.exchange l' (v.service.meet e).exchange)
    (hopen : g.isOpen (v.service.meet e) = true) :
    watch l' = watch l ∧ sees ((v.service.meet e).exchange.hub.mark g.place) =
      sees ((v.service.exchange.hub.mark g.place).after (e.tidings? g.place)) := by
  obtain ⟨hwatch, hsees⟩ := hlets
  rw [h.place_eq hl] at hwatch hsees
  refine ⟨hwatch.resolve_right ?_, hsees⟩
  rintro ⟨-, hclosed⟩
  rw [isOpen, hclosed] at hopen
  cases hopen

/-- A connection that is open was not closed. -/
theorem none_of_open (h : g.Sound v) (hopen : g.isOpen v.service = true) :
    v.gaveUp = none ∧ v.lost = none := by
  have hnot := mt h.closed.mpr (by rw [hopen]; decide)
  rw [not_or] at hnot
  exact hnot.imp Option.not_isSome_iff_eq_none.mp Option.not_isSome_iff_eq_none.mp

end Sound

/-- **What an incident does to the connection**: it is closed once at most, by a look of the watch
or by something else. -/
inductive Ends (v : Vigil) (e : Incident) : Prop where
  /-- It stays open. -/
  | stays (hopen : g.isOpen v.service = true) (hopen' : g.isOpen (v.service.meet e) = true)
      (hgaveUp : (g.next v e).gaveUp = none) (hlost : (g.next v e).lost = none)
  /-- It was closed before. -/
  | was (hclosed : g.isOpen v.service = false) (hclosed' : g.isOpen (v.service.meet e) = false)
      (hgaveUp : (g.next v e).gaveUp = v.gaveUp) (hlost : (g.next v e).lost = v.lost)
  /-- The watch gives it up. -/
  | gives (hopen : g.isOpen v.service = true) (hclosed' : g.isOpen (v.service.meet e) = false)
      (hlook : e.isLook g.line g.watcher = true)
      (hgaveUp : (g.next v e).gaveUp = some v.service.exchange.clock)
      (hlost : (g.next v e).lost = none)
  /-- It is closed otherwise. -/
  | loses (hopen : g.isOpen v.service = true) (hclosed' : g.isOpen (v.service.meet e) = false)
      (hlook : e.isLook g.line g.watcher = false) (hgaveUp : (g.next v e).gaveUp = none)
      (hlost : (g.next v e).lost = some v.service.exchange.clock)

namespace Sound

variable {g} {v : Vigil} {e : Incident}

/-- **An incident does one of four things to the connection.** -/
theorem ends (h : g.Sound v) (e : Incident) : g.Ends v e := by
  cases hopen : g.isOpen v.service with
  | false =>
    exact .was hopen (h.isOpen_meet hopen e) (by simp [next, hopen]) (by simp [next, hopen])
  | true =>
    obtain ⟨hgaveUp, hlost⟩ := h.none_of_open hopen
    cases hopen' : g.isOpen (v.service.meet e) with
    | true =>
      exact .stays hopen hopen' (by simp [next, hopen', hgaveUp]) (by simp [next, hopen', hlost])
    | false =>
      cases hlook : e.isLook g.line g.watcher with
      | true =>
        exact .gives hopen hopen' hlook (by simp [next, hopen, hopen', hlook])
          (by simp [next, hlook, hlost])
      | false =>
        exact .loses hopen hopen' hlook (by simp [next, hlook, hgaveUp])
          (by simp [next, hopen, hopen', hlook])

/-- A connection is given up once. -/
theorem gaveUp_next (h : g.Sound v) {t : Nat} (ht : v.gaveUp = some t) (e : Incident) :
    (g.next v e).gaveUp = some t := by
  have hclosed : g.isOpen v.service = false := h.closed.mpr (.inl (ht ▸ rfl))
  simp [Guard.next, hclosed, ht]

/-- **Every incident keeps it.** -/
theorem next (h : g.Sound v) (e : Incident) : g.Sound (g.next v e) := by
  have hclock : (v.service.meet e).exchange.clock = v.service.exchange.clock + e.elapsed :=
    clock_meet v.service e
  have hpast {t : Nat} (ht : t ≤ v.service.exchange.clock) :
      t ≤ (v.service.meet e).exchange.clock := hclock ▸ Nat.le_add_right_of_le ht
  have hnow {t : Nat} (ht : some v.service.exchange.clock = some t) :
      t ≤ (v.service.meet e).exchange.clock := hpast (Nat.le_of_eq (Option.some.inj ht).symm)
  refine {
    spread := h.spread.meet e
    line := ?_
    plan := (later_meet h.spread.seated e).plan.trans h.plan
    since := hpast h.since
    closed := ?_, once := ?_, gaveUp := ?_, lost := ?_, beats := ?_, decisions := ?_ }
  · obtain ⟨l, hl, hplace, hstage⟩ := h.line
    obtain ⟨l', hl', hon⟩ := goesOn_meet h.spread.seated hl e
    exact ⟨l', hl', hon.place.trans hplace, hon.greeted hstage⟩
  · show g.isOpen (v.service.meet e) = false ↔ _
    cases h.ends e with
    | stays hopen hopen' hgaveUp hlost => simp [hopen', hgaveUp, hlost]
    | was hclosed hclosed' hgaveUp hlost =>
      rw [hgaveUp, hlost]
      exact iff_of_true hclosed' (h.closed.mp hclosed)
    | gives hopen hclosed' hlook hgaveUp hlost => simp [hclosed', hgaveUp]
    | loses hopen hclosed' hlook hgaveUp hlost => simp [hclosed', hlost]
  · cases h.ends e with
    | stays _ _ hgaveUp _ | loses _ _ _ hgaveUp _ => exact .inl hgaveUp
    | gives _ _ _ _ hlost => exact .inr hlost
    | was _ _ hgaveUp hlost =>
      rw [hgaveUp, hlost]
      exact h.once
  · intro t ht
    cases h.ends e with
    | stays _ _ hgaveUp _ | loses _ _ _ hgaveUp _ => exact nomatch hgaveUp.symm.trans ht
    | was _ _ hgaveUp _ => exact hpast (h.gaveUp t (hgaveUp.symm.trans ht))
    | gives _ _ _ hgaveUp _ => exact hnow (hgaveUp.symm.trans ht)
  · intro t ht
    cases h.ends e with
    | stays _ _ _ hlost | gives _ _ _ _ hlost => exact nomatch hlost.symm.trans ht
    | was _ _ _ hlost => exact hpast (h.lost t (hlost.symm.trans ht))
    | loses _ _ _ _ hlost => exact hnow (hlost.symm.trans ht)
  · intro b hb
    rcases g.beats_next v e with ⟨-, hsame⟩ | ⟨-, happend⟩
    · exact hpast (h.beats b (hsame ▸ hb))
    · rcases List.mem_append.mp (happend ▸ hb) with hb | hb
      · exact hpast (h.beats b hb)
      · exact hpast (Nat.le_of_eq (List.mem_singleton.mp hb))
  · intro d hd
    rcases g.decisions_next v e with ⟨-, hsame⟩ | ⟨_, -, happend⟩
    · exact hpast (h.decisions d (hsame ▸ hd))
    · rcases List.mem_append.mp (happend ▸ hd) with hd | hd
      · exact hpast (h.decisions d hd)
      · exact hpast (Nat.le_of_eq (congrArg Prod.fst (List.mem_singleton.mp hd)))

end Sound

/-! ## How a vigil begins -/

variable {g} {s : Service} {l : Line}

/-- To set up the watches changes nothing that lines share. -/
theorem exchange_start (hline : s.lines[g.line]? = some l) (hstage : l.stage = .accepted) :
    (g.start s).service.exchange = s.exchange := by
  show (s.onLine g.line Line.equip).exchange = _
  rw [exchange_onLine hline, Line.equip, if_pos hstage]

/-- The vigil begins with fresh watches. -/
theorem line_start (hline : s.lines[g.line]? = some l) (hstage : l.stage = .accepted) :
    (g.start s).service.lines[g.line]? = some (l.setWatches s.exchange) := by
  show (s.onLine g.line Line.equip).lines[g.line]? = _
  rw [lines_onLine hline, List.getElem?_set_self (List.getElem?_eq_some_iff.mp hline).1, Line.equip,
    if_pos hstage]

/-- The vigil begins well. -/
theorem sound_start (hspread : s.Spread) (hplan : s.exchange.plan = g.plan)
    (hline : s.lines[g.line]? = some l) (hstage : l.stage = .accepted) (hplace : l.place = g.place)
    (hclock : s.exchange.clock = g.since) : g.Sound (g.start s) := by
  have hexchange := exchange_start hline hstage
  have hopen : g.isOpen (g.start s).service = g.isOpen s := by rw [isOpen, isOpen, hexchange]
  refine {
    spread := hspread.perform (.equips g.line)
    line := ⟨_, line_start hline hstage, hplace, nofun⟩
    plan := by rw [hexchange, hplan]
    since := Nat.le_of_eq (by rw [hexchange, hclock])
    closed := ?_
    once := .inl rfl
    gaveUp := nofun
    lost := ?_
    beats := nofun
    decisions := nofun }
  · rw [hopen]
    cases h : g.isOpen s <;> simp [start, h]
  · intro t ht
    rw [hexchange, hclock]
    cases h : g.isOpen s <;> simp only [start, h] at ht
    · exact Nat.le_of_eq (Option.some.inj ht).symm
    · exact nomatch ht

/-- **Every vigil is sound.** -/
theorem Course.sound {v : Vigil} (h : g.Course v) : g.Sound v := by
  induction h with
  | begins hline hstage hplace hclock =>
    refine sound_start ((spread_ofPlan _ _).run _) ?_ hline hstage hplace hclock
    exact plan_run (seated_ofPlan _ _) _
  | goes _ e _ _ ih => exact ih.next e

/-! ## What a watch is to do -/

/-- A watch that has just looked has nothing to do, if a second look changes nothing. -/
theorem rests_next {v : Vigil} {w : Watcher} (hl : v.service.lines[g.line]? = some l)
    (hwatcher : g.watcher = w)
    (hagain : w.look (w.look l v.service.exchange).1 (w.look l v.service.exchange).2 =
      w.look l v.service.exchange) : g.Rests (g.next v (.looks g.line w)) := by
  intro l' hl'
  have hexchange : (g.next v (.looks g.line w)).service.exchange = _ := exchange_meet_looks hl w
  obtain rfl := Option.some.inj ((lines_meet_looks hl w).symm.trans hl')
  rw [hexchange, hwatcher, hagain]

variable {d : Duty} {v : Vigil} {e : Incident} {t : Nat}

/-- **A watch does its duty**: it is awake while the connection is open, and gives it up when that
is due; the connection was closed no later than that. -/
structure Keeps (g : Guard) (d : Duty) (v : Vigil) : Prop where
  awake : g.isOpen v.service = true → ∀ l, v.service.lines[g.line]? = some l → d.awake v l
  gaveUp : ∀ t, v.gaveUp = some t → d.due v t
  intime : ∀ t t', v.gaveUp = some t ∨ v.lost = some t → d.due v t' → t ≤ t'

/-- **What an incident asks of a duty.** -/
structure Obeys (g : Guard) (d : Duty) (v : Vigil) (e : Incident) : Prop where
  /-- What was due by now stays so. -/
  kept : ∀ t, d.due v t → t ≤ v.service.exchange.clock → d.due (g.next v e) t
  /-- Nothing comes to be due before now. -/
  back : ∀ t, d.due (g.next v e) t → d.due v t ∨ v.service.exchange.clock ≤ t
  /-- While the watch is awake nothing was due before now. -/
  past : ∀ l t, d.awake v l → d.due v t → v.service.exchange.clock ≤ t
  /-- By a look the watch stays awake, or gives up what is due. -/
  look : e.isLook g.line g.watcher = true → g.isOpen v.service = true →
    ∀ l, v.service.lines[g.line]? = some l → d.awake v l →
      ∃ l', (v.service.meet e).lines[g.line]? = some l' ∧
        (g.isOpen (v.service.meet e) = true ∧ d.awake (g.next v e) l' ∨
          g.isOpen (v.service.meet e) = false ∧ d.due v v.service.exchange.clock)
  /-- By anything else it stays awake. -/
  lets : e.isLook g.line g.watcher = false → g.isOpen (v.service.meet e) = true →
    ∀ l l', v.service.lines[g.line]? = some l → (v.service.meet e).lines[g.line]? = some l' →
      d.awake v l → d.awake (g.next v e) l'

/-- **Every incident keeps it**, if the duty stands it. -/
theorem Keeps.next (hk : g.Keeps d v) (hs : g.Sound v) (h : g.Obeys d v e) :
    g.Keeps d (g.next v e) := by
  obtain ⟨l, hl, -⟩ := hs.line
  -- what is due once this has happened is due now or later
  have hnow {t t' : Nat} (hopen : g.isOpen v.service = true)
      (ht : some v.service.exchange.clock = some t) (ht' : d.due (g.next v e) t') : t ≤ t' := by
    rw [← Option.some.inj ht]
    exact (h.back t' ht').elim (h.past l t' (hk.awake hopen l hl)) id
  cases hs.ends e with
  | stays hopen hopen' hgaveUp hlost =>
    refine ⟨fun _ l' hl' => ?_, fun t ht => ?_, fun t t' ht => ?_⟩
    · have hawake := hk.awake hopen l hl
      cases hlook : e.isLook g.line g.watcher with
      | false => exact h.lets hlook hopen' l l' hl hl' hawake
      | true =>
        obtain ⟨l₁, hl₁, hcases⟩ := h.look hlook hopen l hl hawake
        rcases hcases with ⟨-, hawake'⟩ | ⟨hclosed', -⟩
        · exact Option.some.inj (hl₁.symm.trans hl') ▸ hawake'
        · exact nomatch hclosed'.symm.trans hopen'
    · exact nomatch hgaveUp.symm.trans ht
    · rw [hgaveUp, hlost] at ht
      exact ht.elim nofun nofun
  | was hclosed hclosed' hgaveUp hlost =>
    refine ⟨fun h => absurd h (Bool.eq_false_iff.mp hclosed'), fun t ht => ?_,
      fun t t' ht ht' => ?_⟩
    · have hbefore := hgaveUp.symm.trans ht
      exact h.kept t (hk.gaveUp t hbefore) (hs.gaveUp t hbefore)
    · rw [hgaveUp, hlost] at ht
      rcases h.back t' ht' with hdue | hle
      · exact hk.intime t t' ht hdue
      · exact Nat.le_trans (ht.elim (hs.gaveUp t) (hs.lost t)) hle
  | gives hopen hclosed' hlook hgaveUp hlost =>
    refine ⟨fun h => absurd h (Bool.eq_false_iff.mp hclosed'), fun t ht => ?_,
      fun t t' ht ht' => ?_⟩
    · obtain ⟨l', hl', hcases⟩ := h.look hlook hopen l hl (hk.awake hopen l hl)
      rcases hcases with ⟨hopen', -⟩ | ⟨-, hdue⟩
      · exact nomatch hclosed'.symm.trans hopen'
      · rw [← Option.some.inj (hgaveUp.symm.trans ht)]
        exact h.kept _ hdue (Nat.le_refl _)
    · rw [hgaveUp, hlost] at ht
      exact ht.elim (fun ht => hnow hopen ht ht') nofun
  | loses hopen hclosed' hlook hgaveUp hlost =>
    refine ⟨fun h => absurd h (Bool.eq_false_iff.mp hclosed'), fun t ht => ?_,
      fun t t' ht ht' => ?_⟩
    · exact nomatch hgaveUp.symm.trans ht
    · rw [hgaveUp, hlost] at ht
      exact ht.elim nofun fun ht => hnow hopen ht ht'

/-- Has this time passed, as far as the watch is concerned? -/
def Reached (g : Guard) (v : Vigil) (t : Nat) : Prop :=
  t < v.service.exchange.clock ∨ t = v.service.exchange.clock ∧ g.Rests v

/-- **What is due is done**, once its time has passed, unless the connection was closed otherwise:
there is no time at which a watch that is awake has nothing to do and is past what is due. -/
theorem Keeps.gives (hk : g.Keeps d v) (hs : g.Sound v)
    (hpast : ∀ l, g.isOpen v.service = true → v.service.lines[g.line]? = some l → d.awake v l →
      ∀ t, d.due v t → ¬g.Reached v t)
    (hunique : ∀ t', d.due v t' → t' ≤ t → t' = t) (ht : d.due v t) (hlost : v.lost = none)
    (hreached : g.Reached v t) : v.gaveUp = some t := by
  obtain ⟨l, hl, -⟩ := hs.line
  cases hopen : g.isOpen v.service with
  | true => exact absurd hreached (hpast l hopen hl (hk.awake hopen l hl) t ht)
  | false =>
    rcases hs.closed.mp hopen with hgaveUp | hsome
    · obtain ⟨t', ht'⟩ := Option.isSome_iff_exists.mp hgaveUp
      rw [ht', hunique t' (hk.gaveUp t' ht') (hk.intime t' t (.inl ht') ht)]
    · rw [hlost] at hsome
      cases hsome

/-! ## Courses one incident after another -/

/-- Can these incidents come one after another? -/
def Goes (g : Guard) : Vigil → List Incident → Prop
  | _, [] => True
  | v, e :: rest =>
    e.isWatch g.line = false ∧ (e.elapsed ≠ 0 → g.Rests v) ∧ g.Goes (g.next v e) rest

/-- What takes no time can come at any time. -/
theorem rests_of_elapsed {v : Vigil} {e : Incident} (h : e.elapsed = 0) (hne : e.elapsed ≠ 0) :
    g.Rests v := absurd h hne

/-- A vigil goes on with incidents that can come. -/
theorem Course.foldl {v : Vigil} {incidents : List Incident} (h : g.Course v)
    (hgoes : g.Goes v incidents) : g.Course (incidents.foldl g.next v) := by
  induction incidents generalizing v with
  | nil => exact h
  | cons e rest ih => exact ih (h.goes e hgoes.1 hgoes.2.1) hgoes.2.2

end Service.Guard

end Switchboard
