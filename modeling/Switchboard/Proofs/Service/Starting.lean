import Switchboard.Proofs.Service.Overlap
import Switchboard.Service.Server

/-!
# Proofs/Service/Starting — one start at a time

A start in progress is known to others by the phase of the service alone, and a stop changes the
phase.  As long as no stop comes in between, a service is starting just while a start is in
progress, and there is one at most (`Lifecycle.History.Single`): every other start is refused, none
but this one sets the service running, and a start finds nothing to start only if nothing was ever
bound.  All this is lost with the first stop that comes in between
(`Lifecycle.History.one_start_iff`).
-/

namespace Switchboard

namespace Lifecycle

section

variable {l : Lifecycle} {b : Bool}

/-- A start that ends leaves the service running or stopped. -/
theorem phase_finish_ne_starting (l : Lifecycle) (b : Bool) : (l.finish b).phase ≠ .starting := by
  unfold finish
  split
  · cases b <;> exact nofun
  · rename_i hphase
    exact fun h => nomatch hphase.symm.trans h
  · rename_i hphase
    exact fun h => nomatch hphase.symm.trans h

/-- A listener that is bound on demand does not make a service start, nor keep it from it. -/
theorem phase_spawned (l : Lifecycle) (network : Network) (address : String) :
    (l.spawned network address).2.phase = .starting ↔ l.phase = .starting := by
  unfold spawned record
  dsimp only
  split
  · rename_i hphase
    exact iff_of_false nofun fun h => nomatch hphase.symm.trans h
  · exact Iff.rfl

/-- A stopped service is stopped, whether it was before or not. -/
theorem phase_stop (l : Lifecycle) : l.stop.2.phase = .stopped := by
  by_cases hphase : l.phase = .stopped
  · rw [stop, if_pos hphase]
    exact hphase
  · rw [stop, if_neg hphase]

theorem beginStart_of_starting (h : l.phase = .starting) :
    l.beginStart = (.error .starting, l) := by
  rw [beginStart, h]

/-- A stopped service does not refuse a start because there is another. -/
theorem beginStart_of_stopped (h : l.phase = .stopped) {e : ServiceError}
    (he : l.beginStart.1 = .error e) : e = .noListeners := by
  unfold beginStart at he
  simp only [h] at he
  split at he
  · exact (Except.error.inj he).symm
  · exact nomatch he

/-- There is nothing to start if the service is stopped and remembers no listener. -/
theorem of_noListeners (h : l.beginStart.1 = .error .noListeners) :
    l.phase = .stopped ∧ l.cache = [] := by
  unfold beginStart at h
  split at h
  · exact nomatch h
  · exact nomatch h
  · rename_i hphase
    split at h
    · exact ⟨hphase, ‹_›⟩
    · exact nomatch h

end

namespace History

variable {h h' : History} {act : Act} {i j : Nat} {c d old : Call} {life : Lifecycle}

/-! ## Starts in progress -/

/-- Call `i` is a start in progress. -/
def StartingAt (h : History) (i : Nat) : Prop := ∃ c, h.calls[i]? = some c ∧ c.IsStarting

theorem StartingAt.of_set (hi : h.calls[i]? = some old) (hold : c.IsStarting → old.IsStarting)
    (hj : (h.set i c life).StartingAt j) : h.StartingAt j := by
  obtain ⟨d, hd, hstarting⟩ := hj
  rcases of_calls_set hi hd with ⟨rfl, rfl⟩ | ⟨-, hd⟩
  · exact ⟨old, hi, hold hstarting⟩
  · exact ⟨d, hd, hstarting⟩

theorem StartingAt.set (hi : h.calls[i]? = some old) (hc : old.IsStarting → c.IsStarting)
    (hj : h.StartingAt j) : (h.set i c life).StartingAt j := by
  obtain ⟨d, hd, hstarting⟩ := hj
  rcases calls_set c life hi hd with ⟨rfl, hnow⟩ | hd
  · exact ⟨c, hnow, hc hstarting⟩
  · exact ⟨d, hd, hstarting⟩

theorem StartingAt.call (hj : h.StartingAt j) : (h.call c life).StartingAt j := by
  obtain ⟨d, hd, hstarting⟩ := hj
  exact ⟨d, calls_call hd, hstarting⟩

/-- A call that is found when one more was made was made before, or it is the new one. -/
theorem StartingAt.of_call (hj : (h.call c life).StartingAt j) :
    h.StartingAt j ∨ j = h.calls.length ∧ c.IsStarting := by
  obtain ⟨d, hd, hstarting⟩ := hj
  rcases Nat.lt_or_ge j h.calls.length with hlt | hge
  · exact .inl ⟨d, (List.getElem?_append_left hlt).symm.trans hd, hstarting⟩
  · have hlast : [c][j - h.calls.length]? = some d := (List.getElem?_append_right hge).symm.trans hd
    have hj := (List.getElem?_eq_some_iff.mp hlast).1
    rw [List.length_singleton] at hj
    obtain rfl := List.mem_singleton.mp (List.mem_of_getElem? hlast)
    exact .inr ⟨by omega, hstarting⟩

theorem startingAt_call (hc : c.IsStarting) : (h.call c life).StartingAt h.calls.length :=
  ⟨c, List.getElem?_concat_length, hc⟩

/-- **A start in progress was so before, or it has just begun** in a stopped service. -/
theorem startingAt_of_moves (hmoves : Moves h act h') (hj : h'.StartingAt j) :
    h.StartingAt j ∨ h.life.phase = .stopped ∧ j = h.calls.length := by
  cases hmoves with
  | goes hgoes =>
    refine .inl ?_
    cases hgoes with
    | idle _ => exact hj
    | ends serial => exact hj
    | passes hi => exact hj.of_set hi fun _ => ⟨_, rfl⟩
    | turns hi => exact hj.of_set hi fun _ => ⟨_, rfl⟩
    | listens hi => exact StartingAt.of_set (h := (h.bind _).ask _ _) hi (by rintro ⟨_, ⟨⟩⟩) hj
    | refuses hi => exact hj.of_set hi (by rintro ⟨_, ⟨⟩⟩)
    | rebinds hi => exact StartingAt.of_set (h := h.bind _) hi (fun _ => ⟨_, rfl⟩) hj
    | completes hi => exact StartingAt.of_set (h := h.bind _) hi (fun _ => ⟨_, rfl⟩) hj
    | givesUp hi => exact hj.of_set hi fun _ => ⟨_, rfl⟩
  | calls stage hstage =>
    rcases hj.of_call with hj | ⟨-, s, hs⟩
    · exact .inl hj
    · exact absurd hs (hstage s)
  | stops hphase =>
    rcases hj.of_call with hj | ⟨-, _, ⟨⟩⟩
    exact .inl hj
  | starts hphase hne => exact hj.of_call.imp id fun ⟨hj, _⟩ => ⟨hphase, hj⟩

/-- **Only a start that returns sets a starting service running.** -/
theorem exists_returned (hmoves : Moves h act h') (hphase : h.life.phase = .starting)
    (hrunning : h'.life.phase = .running) :
    ∃ i c, h.StartingAt i ∧ h'.calls[i]? = some c ∧ c.HasReturned := by
  have hstill : h'.life.phase ≠ .starting := fun hstarts => nomatch hrunning.symm.trans hstarts
  cases hmoves with
  | goes hgoes =>
    cases hgoes with
    | idle _ => exact absurd hphase hstill
    | ends serial => exact absurd hphase hstill
    | passes hi => exact absurd hphase hstill
    | turns hi => exact absurd hphase hstill
    | listens hi => exact absurd ((phase_spawned ..).mpr hphase) hstill
    | refuses hi => exact absurd hphase hstill
    | rebinds hi => exact absurd hphase hstill
    | completes hi => exact ⟨_, _, ⟨_, hi, _, rfl⟩, calls_set_self (h := h.bind _) hi, _, rfl⟩
    | givesUp hi => exact ⟨_, _, ⟨_, hi, _, rfl⟩, calls_set_self hi, _, rfl⟩
  | calls stage hstage => exact absurd hphase hstill
  | stops hstopped => exact nomatch hrunning
  | starts hstopped hne => exact nomatch hrunning

/-! ## One at a time -/

/-- **The service is starting just while a start is in progress**, and there is one at most. -/
structure Single (h : History) : Prop where
  phase : h.life.phase = .starting ↔ ∃ i, h.StartingAt i
  unique : ∀ i j, h.StartingAt i → h.StartingAt j → i = j

theorem single_initial : initial.Single := ⟨iff_of_false nofun nofun, nofun⟩

/-- Two starts in progress were so before, as a start begins only if there is none. -/
theorem Single.unique_moves (hs : h.Single) (hmoves : Moves h act h') (hi : h'.StartingAt i)
    (hj : h'.StartingAt j) : i = j := by
  have hnone (hphase : h.life.phase = .stopped) (k : Nat) : ¬h.StartingAt k := fun hk =>
    nomatch hphase.symm.trans (hs.phase.mpr ⟨k, hk⟩)
  rcases startingAt_of_moves hmoves hi with hi | ⟨hphase, rfl⟩ <;>
    rcases startingAt_of_moves hmoves hj with hj | ⟨hphase', rfl⟩
  · exact hs.unique i j hi hj
  · exact absurd hi (hnone hphase' i)
  · exact absurd hj (hnone hphase j)
  · rfl

/-- A start in progress that goes on. -/
theorem Single.phase_goes_on (hs : h.Single) (hi : h.calls[i]? = some old) (hold : old.IsStarting)
    (hc : c.IsStarting) (hphase : life.phase = h.life.phase) :
    (h.set i c life).life.phase = .starting ↔ ∃ j, (h.set i c life).StartingAt j :=
  iff_of_true (hphase.trans (hs.phase.mpr ⟨i, old, hi, hold⟩)) ⟨i, c, calls_set_self hi, hc⟩

/-- A start in progress that returns. -/
theorem Single.phase_returns (hs : h.Single) (hi : h.calls[i]? = some old) (hold : old.IsStarting)
    (hc : ¬c.IsStarting) (hphase : life.phase ≠ .starting) :
    (h.set i c life).life.phase = .starting ↔ ∃ j, (h.set i c life).StartingAt j := by
  refine iff_of_false hphase ?_
  rintro ⟨j, hj⟩
  obtain rfl := hs.unique i j ⟨old, hi, hold⟩ (hj.of_set hi fun _ => hold)
  obtain ⟨d, hd, hstarting⟩ := hj
  exact hc (Option.some.inj ((calls_set_self hi).symm.trans hd) ▸ hstarting)

/-- A call that is no start goes on. -/
theorem Single.phase_other (hs : h.Single) (hi : h.calls[i]? = some old) (hold : ¬old.IsStarting)
    (hc : ¬c.IsStarting) (hphase : life.phase = .starting ↔ h.life.phase = .starting) :
    (h.set i c life).life.phase = .starting ↔ ∃ j, (h.set i c life).StartingAt j := by
  refine (hphase.trans hs.phase).trans (exists_congr fun j => ?_)
  exact ⟨fun hj => hj.set hi fun h => absurd h hold, fun hj => hj.of_set hi fun h => absurd h hc⟩

theorem Single.phase_goes (hs : h.Single) (hgoes : Goes h act h') :
    h'.life.phase = .starting ↔ ∃ i, h'.StartingAt i := by
  cases hgoes with
  | idle _ => exact hs.phase
  | ends serial => exact hs.phase
  | passes hi => exact hs.phase_goes_on hi ⟨_, rfl⟩ ⟨_, rfl⟩ rfl
  | turns hi => exact hs.phase_goes_on hi ⟨_, rfl⟩ ⟨_, rfl⟩ rfl
  | listens hi =>
    exact Single.phase_other (h := (h.bind _).ask _ _) ⟨hs.phase, hs.unique⟩ hi
      (by rintro ⟨_, ⟨⟩⟩) (by rintro ⟨_, ⟨⟩⟩) (phase_spawned ..)
  | refuses hi => exact hs.phase_other hi (by rintro ⟨_, ⟨⟩⟩) (by rintro ⟨_, ⟨⟩⟩) Iff.rfl
  | rebinds hi =>
    exact Single.phase_goes_on (h := h.bind _) ⟨hs.phase, hs.unique⟩ hi ⟨_, rfl⟩ ⟨_, rfl⟩ rfl
  | completes hi =>
    exact Single.phase_returns (h := h.bind _) ⟨hs.phase, hs.unique⟩ hi ⟨_, rfl⟩
      (by rintro ⟨_, ⟨⟩⟩) (phase_finish_ne_starting _ _)
  | givesUp hi =>
    exact hs.phase_returns hi ⟨_, rfl⟩ (by rintro ⟨_, ⟨⟩⟩) (phase_finish_ne_starting _ _)

/-- **Every move keeps this** but a stop in between. -/
theorem Single.moves (hs : h.Single) (hmoves : Moves h act h')
    (hstop : act = .stops → ∀ i, ¬h.StartingAt i) : h'.Single := by
  refine ⟨?_, fun i j => hs.unique_moves hmoves⟩
  cases hmoves with
  | goes hgoes => exact hs.phase_goes hgoes
  | calls stage hstage =>
    refine hs.phase.trans (exists_congr fun j => ⟨StartingAt.call, fun hj => ?_⟩)
    exact hj.of_call.resolve_right fun ⟨_, s, hs⟩ => hstage s hs
  | stops hphase =>
    refine iff_of_false nofun ?_
    rintro ⟨j, hj⟩
    rcases hj.of_call with hj | ⟨-, _, ⟨⟩⟩
    exact hstop rfl j hj
  | starts hphase hne => exact iff_of_true rfl ⟨_, startingAt_call ⟨_, rfl⟩⟩

/-! ## What was bound is not lost -/

/-- Once a listener was bound there is one that is remembered or that a start has taken. -/
def Remembers (h : History) : Prop :=
  h.binders ≠ [] → h.life.cache ≠ [] ∨ ∃ c ∈ h.calls, c.held ≠ []

theorem Remembers.set (hr : h.Remembers) (hi : h.calls[i]? = some old)
    (hheld : old.held ≠ [] → life.cache ≠ [] ∨ c.held ≠ [])
    (hcache : h.life.cache ≠ [] → life.cache ≠ []) : (h.set i c life).Remembers := by
  intro hbinders
  rcases hr hbinders with hne | ⟨d, hd, hne⟩
  · exact .inl (hcache hne)
  · obtain ⟨j, hj⟩ := List.mem_iff_getElem?.mp hd
    rcases calls_set c life hi hj with ⟨rfl, hc⟩ | hd
    · exact (hheld hne).imp id fun hne => ⟨c, List.mem_of_getElem? hc, hne⟩
    · exact .inr ⟨d, List.mem_of_getElem? hd, hne⟩

theorem Remembers.call (hr : h.Remembers)
    (hcache : h.life.cache ≠ [] → life.cache ≠ [] ∨ c.held ≠ []) : (h.call c life).Remembers := by
  intro hbinders
  rcases hr hbinders with hne | ⟨d, hd, hne⟩
  · exact (hcache hne).imp id fun hne =>
      ⟨c, List.mem_append_right _ (List.mem_singleton_self c), hne⟩
  · exact .inr ⟨d, List.mem_append_left _ hd, hne⟩

theorem Remembers.moves (hr : h.Remembers) (hmoves : Moves h act h') : h'.Remembers := by
  cases hmoves with
  | goes hgoes =>
    cases hgoes with
    | idle _ => exact hr
    | ends serial => exact hr
    | passes hi => exact hr.set hi .inr id
    | turns hi => exact hr.set hi .inr id
    | listens hi =>
      refine fun _ => .inl ?_
      show (spawned ..).2.cache ≠ []
      rw [cache_spawned]
      exact List.append_ne_nil_of_right_ne_nil _ (List.cons_ne_nil _ _)
    | refuses hi => exact hr.set hi .inr id
    | rebinds hi =>
      exact fun _ => .inl (List.append_ne_nil_of_right_ne_nil _ (List.cons_ne_nil _ _))
    | completes hi =>
      refine fun _ => .inl ?_
      show (finish _ _).cache ≠ []
      rw [cache_finish]
      exact List.append_ne_nil_of_right_ne_nil _ (List.cons_ne_nil _ _)
    | givesUp hi =>
      refine fun _ => .inl ?_
      show (giveUp _ _).cache ≠ []
      rw [cache_giveUp]
      exact List.cons_ne_nil _ _
  | calls stage hstage => exact hr.call .inl
  | stops hphase => exact hr.call .inl
  | starts hphase hne => exact hr.call .inr

theorem remembers_run (acts : List Act) : (initial.run acts).Remembers :=
  run_induction (fun h => absurd rfl h) Remembers.moves acts

/-! ## Interleavings -/

/-- The call that has set the service starting after one more act, if it is starting. -/
def starterAfter (h : History) (act : Act) (starter : Option Nat) : Option Nat :=
  if (h.perform act).life.phase ≠ .starting then none
  else if h.life.phase = .starting then starter
  else some h.calls.length

/-- The call that has set the service starting, as long as it is. -/
def starter? (acts : List Act) : Option Nat := go initial none acts
where
  /-- Follows the acts one after another. -/
  go (h : History) (starter : Option Nat) : List Act → Option Nat
    | [] => starter
    | act :: rest => go (h.perform act) (h.starterAfter act starter) rest

/-- **One start at a time**, after some acts. -/
structure OneStart (acts : List Act) : Prop where
  /-- At most one start is in progress. -/
  one : ∀ i j, (initial.run acts).StartingAt i → (initial.run acts).StartingAt j → i = j
  /-- Until it returns every other start is refused and takes nothing. -/
  refused : ∀ i, (initial.run acts).StartingAt i →
    ∃ e, (e = .starting ∨ e = .alreadyRunning) ∧
      (initial.run acts).life.beginStart = (.error e, (initial.run acts).life)
  /-- Only the start that has set the service starting sets it running, and returns. -/
  leaves : ∀ i act, starter? acts = some i → (initial.run (acts ++ [act])).life.phase = .running →
    (initial.run acts).StartingAt i ∧
      ∃ c, (initial.run (acts ++ [act])).calls[i]? = some c ∧ c.HasReturned
  /-- A start finds no listeners only if none was ever bound. -/
  noListeners : (initial.run acts).life.beginStart.1 = .error .noListeners →
    (initial.run acts).binders = []

theorem starterAfter_eq (hs : h.Single) {starter : Option Nat}
    (hstarter : ∀ i, starter = some i → h.StartingAt i) (hnext : (h.perform act).Single)
    (hi : h.starterAfter act starter = some i) : (h.perform act).StartingAt i := by
  unfold starterAfter at hi
  split at hi
  · exact nomatch hi
  rename_i hphase
  obtain ⟨j, hj⟩ := hnext.phase.mp (Decidable.not_not.mp hphase)
  have hbefore := startingAt_of_moves (h.moves_perform act) hj
  split at hi
  · rename_i hstarting
    have hj' := hbefore.resolve_right fun ⟨hstopped, _⟩ => nomatch hstopped.symm.trans hstarting
    exact hs.unique i j (hstarter i hi) hj' ▸ hj
  · rename_i hnone
    obtain rfl := Option.some.inj hi
    exact (hbefore.resolve_left fun hj => hnone (hs.phase.mpr ⟨j, hj⟩)).2 ▸ hj

/-- **Without a stop in between there is one start at a time**, the one that has set the service
starting. -/
theorem Single.run (hs : h.Single) {starter : Option Nat}
    (hstarter : ∀ i, starter = some i → h.StartingAt i) {acts : List Act}
    (hstops : ∀ before after, acts = before ++ .stops :: after →
      ∀ i, ¬(h.run before).StartingAt i) :
    (h.run acts).Single ∧ ∀ i, starter?.go h starter acts = some i → (h.run acts).StartingAt i := by
  induction acts generalizing h starter with
  | nil => exact ⟨hs, hstarter⟩
  | cons act acts ih =>
    have hnext : (h.perform act).Single := hs.moves (h.moves_perform act) fun hact =>
      hstops [] acts (by rw [hact]; rfl)
    refine ih hnext (fun i => starterAfter_eq hs hstarter hnext) fun before after heq => ?_
    exact hstops (act :: before) after (by rw [heq]; rfl)

/-- Whatever was bound is remembered, unless a start has taken it. -/
theorem Remembers.binders_eq_nil (hr : h.Remembers) (hstarting : ∀ i, ¬h.StartingAt i)
    (hcache : h.life.cache = []) : h.binders = [] := by
  refine Decidable.byContradiction fun hbinders => ?_
  rcases hr hbinders with hne | ⟨c, hc, hheld⟩
  · exact hne hcache
  · obtain ⟨i, hi⟩ := List.mem_iff_getElem?.mp hc
    exact hheld (Call.held_eq_nil fun hstarts => hstarting i ⟨c, hi, hstarts⟩)

theorem oneStart_of_single {acts : List Act} (hs : (initial.run acts).Single)
    (hstarter : ∀ i, starter? acts = some i → (initial.run acts).StartingAt i) :
    OneStart acts where
  one := hs.unique
  refused i hi := ⟨.starting, .inl rfl, beginStart_of_starting (hs.phase.mpr ⟨i, hi⟩)⟩
  leaves i act hi hrunning := by
    rw [run_append] at hrunning ⊢
    have hmoves := (initial.run acts).moves_perform act
    obtain ⟨j, c, hj, hc, hreturned⟩ :=
      exists_returned hmoves (hs.phase.mpr ⟨i, hstarter i hi⟩) hrunning
    obtain rfl := hs.unique i j (hstarter i hi) hj
    exact ⟨hj, c, hc, hreturned⟩
  noListeners hnone := by
    obtain ⟨hphase, hcache⟩ := of_noListeners hnone
    exact (remembers_run acts).binders_eq_nil
      (fun i hi => nomatch hphase.symm.trans (hs.phase.mpr ⟨i, hi⟩)) hcache

/-- A stop in between lets another start begin. -/
theorem OneStart.not_startingAt {acts : List Act} (hone : OneStart (acts ++ [.stops])) (i : Nat) :
    ¬(initial.run acts).StartingAt i := by
  intro hi
  have hstill : (initial.run (acts ++ [.stops])).StartingAt i := by
    rw [run_append]
    exact hi.call
  obtain ⟨e, he, hrefused⟩ := hone.refused i hstill
  rw [run_append] at hrefused
  obtain rfl := beginStart_of_stopped (phase_stop _) (congrArg Prod.fst hrefused)
  exact he.elim nofun nofun

/-- **There is one start at a time just as long as no stop comes in between a start.**  Without such
a stop every other start is refused until the one in progress returns, that one alone sets the
service running, and a start finds no listeners only if none was ever bound.  After such a stop a
further start is no longer refused because there is one. -/
theorem one_start_iff (acts : List Act) :
    (∀ before after, acts = before ++ after → OneStart before) ↔
      ∀ before after, acts = before ++ .stops :: after →
        ∀ i, ¬(initial.run before).StartingAt i := by
  constructor
  · rintro hone before after rfl i
    refine (hone (before ++ [.stops]) after ?_).not_startingAt i
    rw [List.append_assoc]
    rfl
  · rintro hstops before after rfl
    have hnobody : ∀ i, (none : Option Nat) = some i → initial.StartingAt i := nofun
    have hearlier : ∀ earlier later, before = earlier ++ .stops :: later →
        ∀ i, ¬(initial.run earlier).StartingAt i := fun earlier later heq =>
      hstops earlier (later ++ after) (by rw [heq, List.append_assoc]; rfl)
    obtain ⟨hs, hstarter⟩ := single_initial.run hnobody hearlier
    exact oneStart_of_single hs hstarter

/-- **After a stop that comes in between, a start finds no listeners**, though there is one, and
once a listener was added two starts are in progress, of which the older sets the service
running. -/
theorem not_oneStart_stopped_between :
    let acts : List Act := [.listens .udp, .binds 0 "a", .stops, .starts, .stops]
    let more : List Act := [.listens .tcp, .binds 4 "b", .stops, .starts, .ends 0, .passes 2,
      .passes 2]
    let h := initial.run (acts ++ more)
    (initial.run acts).life.beginStart.1 = .error .noListeners ∧
      (initial.run acts).binders = [0] ∧ ¬OneStart acts ∧
      starter? (acts ++ more) = some 6 ∧ h.life.phase = .starting ∧
      (h.perform (.binds 2 "a")).life.phase = .running ∧
      (∃ c ∈ (h.perform (.binds 2 "a")).calls[6]?, c.IsStarting) ∧ ¬OneStart (acts ++ more) := by
  intro acts more h
  have hnone : (initial.run acts).life.beginStart.1 = .error .noListeners := rfl
  have hbinders : (initial.run acts).binders = [0] := rfl
  have hstarter : starter? (acts ++ more) = some 6 := by decide +kernel
  have hrunning : (h.perform (.binds 2 "a")).life.phase = .running := by decide +kernel
  have hstill : ∃ c ∈ (h.perform (.binds 2 "a")).calls[6]?, c.IsStarting := by decide +kernel
  refine ⟨hnone, hbinders, fun hone => ?_, hstarter, by decide +kernel, hrunning, hstill,
    fun hone => ?_⟩
  · exact List.cons_ne_nil _ _ (hbinders.symm.trans (hone.noListeners hnone))
  obtain ⟨-, c, hc, hreturned⟩ := hone.leaves 6 (.binds 2 "a") hstarter hrunning
  obtain ⟨d, hd, hstarts⟩ := hstill
  obtain rfl := Option.some.inj (hc.symm.trans hd)
  exact hstarts.not_hasReturned hreturned

end History

end Lifecycle

/-- A service that is stopped while a start waits for its listener to end. -/
example :
    let s : Service := .ofPlan ⟨.empty, .standard, none, none, .none⟩ (.fresh true)
    let stopped := ((s.listen "udp" "127.0.0.1:5000" false).2.stop false).2
    let again := (stopped.beginStart.2.stop false).2
    again.life.fresh = 1 ∧ again.start.1 = .error .noListeners := by
  decide +kernel

end Switchboard
