import Switchboard.Proofs.Service.Overlap

/-!
# Proofs/Service/Stopping — a stop wins over the starts it comes in between

A listener is doomed if it was told to end, or if a start that waits has taken it and will tell it
(`Lifecycle.History.Doomed`).  Three facts are kept by every move: each listener is doomed or
remembered; while the service is stopped, each is doomed or was bound by a start in progress; and a
start binds only once all it took were told to end (`Lifecycle.History.Sound`).  So a stopped
service without a start in progress has no live listener, and a stop that comes in between a start
has told all that start has bound when it returns (`Lifecycle.History.stop_wins`).
-/

namespace Switchboard

namespace Lifecycle

/-! ## Told listeners -/

section

variable {l : Lifecycle} {x : Listener} {xs : List Listener} {n : Nat} {b : Bool}

theorem isTold_iff : l.isTold x = true ↔ x.serial ∈ l.told := List.contains_iff_mem

/-- Who is told now was told, and nobody is untold. -/
theorem mem_told_tell : n ∈ (l.tell xs).told ↔ (∃ x ∈ xs, x.serial = n) ∨ n ∈ l.told := by
  rw [tell, List.mem_append, List.mem_map]

/-- No listener is live once all that are remembered were told. -/
theorem live_eq_nil_iff : l.live = [] ↔ ∀ x ∈ l.cache, x.serial ∈ l.told := by
  rw [live, List.filter_eq_nil_iff]
  simp [isTold_iff]

/-- The end of a start untells nobody. -/
theorem mem_told_finish (h : n ∈ l.told) : n ∈ (l.finish b).told := by
  unfold finish
  split
  · exact h
  · exact mem_told_tell.mpr (.inr h)
  · exact h

/-- A start that ends stopped was stopped before, and tells all remembered listeners to end; or it
ends so because nothing serves. -/
theorem phase_finish (h : (l.finish b).phase = .stopped) :
    (l.phase = .stopped ∧ ∀ x ∈ l.cache, x.serial ∈ (l.finish b).told) ∨
      l.phase = .starting ∧ b = false := by
  unfold finish at h ⊢
  split at h
  · rename_i hphase
    cases b with
    | true => exact nomatch h
    | false => exact .inr ⟨hphase, rfl⟩
  · rename_i hphase
    exact .inl ⟨hphase, fun x hx => mem_told_tell.mpr (.inl ⟨x, hx, rfl⟩)⟩
  · rename_i hphase
    exact nomatch hphase.symm.trans h

/-- **A start that was overtaken by a stop does not set the service running.** -/
theorem phase_finish_of_stopped (h : l.phase = .stopped) (b : Bool) :
    (l.finish b).phase = .stopped := by
  rw [finish, h]
  exact h

/-- A start that gives up leaves a stopped service stopped. -/
theorem phase_giveUp_of_stopped (h : l.phase = .stopped) (xs : List Listener) :
    (l.giveUp xs).phase = .stopped :=
  phase_finish_of_stopped (l := { l with cache := xs ++ l.cache }) h _

end

/-! ## What every move keeps -/

/-- What a start has told to end: those it has waited for and the one it waits for, and all it took
before it binds an address. -/
def Tells (told : List Nat) (took : List Listener) : Start → Prop
  | .waiting taken rest => taken = took ∧ ∃ before, took = before ++ rest ∧
      ∀ x ∈ before ++ rest.take 1, x.serial ∈ told
  | .binding rest => ∃ before, took = before ++ rest ∧ ∀ x ∈ took, x.serial ∈ told

/-- A start goes on having told what it must, whoever else is told. -/
theorem Tells.mono {told told' : List Nat} {took : List Listener} {s : Start}
    (h : Tells told took s) (htold : ∀ n ∈ told, n ∈ told') : Tells told' took s := by
  cases s with
  | waiting taken rest =>
    obtain ⟨rfl, before, heq, hbefore⟩ := h
    exact ⟨rfl, before, heq, fun x hx => htold _ (hbefore x hx)⟩
  | binding rest =>
    obtain ⟨before, heq, hall⟩ := h
    exact ⟨before, heq, fun x hx => htold _ (hall x hx)⟩

namespace History

variable {h h' : History} {act : Act} {i n : Nat} {c old : Call} {life : Lifecycle}

/-- The listener was told to end, or a start waits for it or for one it took before it. -/
def Doomed (h : History) (n : Nat) : Prop :=
  n ∈ h.life.told ∨ ∃ c ∈ h.calls, ∃ x ∈ c.awaited, x.serial = n

/-- The start that bound the listener is in progress. -/
def Unfinished (h : History) (n : Nat) : Prop :=
  ∃ i c, h.binders[n]? = some i ∧ h.calls[i]? = some c ∧ c.IsStarting

/-- **What is known of a service whose calls overlap.** -/
structure Sound (h : History) : Prop where
  /-- There is a call that bound each listener. -/
  binders : h.binders.length = h.life.fresh
  /-- Listeners have the numbers of those that were bound. -/
  numbered : ∀ x, (x ∈ h.life.cache ∨ ∃ c ∈ h.calls, x ∈ c.took) → x.serial < h.life.fresh
  /-- A start has told what it must have. -/
  starts : ∀ c ∈ h.calls, ∀ s, c.stage = .starting s → Tells h.life.told c.took s
  /-- A listener is doomed or remembered, -/
  covered : ∀ n < h.life.fresh, h.Doomed n ∨ ∃ x ∈ h.life.cache, x.serial = n
  /-- and in a stopped service it is doomed or a start in progress has bound it. -/
  stopped : h.life.phase = .stopped → ∀ n < h.life.fresh, h.Doomed n ∨ h.Unfinished n

/-- At first there is no listener. -/
theorem sound_initial : initial.Sound :=
  ⟨rfl, fun _ hx => hx.elim nofun fun ⟨_, hc, _⟩ => absurd hc List.not_mem_nil, fun _ => nofun,
    fun _ => nofun, fun _ _ => nofun⟩

/-- Every listener is doomed once all that were remembered are told to end. -/
theorem Sound.doomed (hs : h.Sound) (hdoomed : h.Doomed n → h'.Doomed n)
    (htold : ∀ x ∈ h.life.cache, x.serial ∈ h'.life.told) (hn : n < h.life.fresh) :
    h'.Doomed n := by
  rcases hs.covered n hn with hbefore | ⟨x, hx, rfl⟩
  · exact hdoomed hbefore
  · exact .inl (htold x hx)

/-! ## One move -/

/-- A new call dooms whom it doomed before. -/
theorem Doomed.call (hd : h.Doomed n) (htold : ∀ n ∈ h.life.told, n ∈ life.told) :
    (h.call c life).Doomed n := by
  rcases hd with hn | ⟨d, hd, x, hx⟩
  · exact .inl (htold n hn)
  · exact .inr ⟨d, List.mem_append_left _ hd, x, hx⟩

/-- A call that goes on may forget only listeners that were told. -/
theorem Doomed.set (hd : h.Doomed n) (hi : h.calls[i]? = some old)
    (htold : ∀ n ∈ h.life.told, n ∈ life.told)
    (hawaited : ∀ x ∈ old.awaited, x.serial ∈ life.told ∨ x ∈ c.awaited) :
    (h.set i c life).Doomed n := by
  rcases hd with hn | ⟨d, hd, x, hx, rfl⟩
  · exact .inl (htold n hn)
  · obtain ⟨j, hj⟩ := List.mem_iff_getElem?.mp hd
    rcases calls_set c life hi hj with ⟨rfl, hc⟩ | hd
    · exact (hawaited x hx).imp id fun hx => ⟨c, List.mem_of_getElem? hc, x, hx, rfl⟩
    · exact .inr ⟨d, List.mem_of_getElem? hd, x, hx, rfl⟩

/-- A new call finishes none that is in progress. -/
theorem Unfinished.call (hu : h.Unfinished n) : (h.call c life).Unfinished n := by
  obtain ⟨i, d, hbinder, hd, hstarting⟩ := hu
  exact ⟨i, d, hbinder, calls_call hd, hstarting⟩

/-- A start stays in progress while a call goes on, unless it is the call that returns. -/
theorem Unfinished.set (hu : h.Unfinished n) (hi : h.calls[i]? = some old)
    (hstarting : old.IsStarting → c.IsStarting) : (h.set i c life).Unfinished n := by
  obtain ⟨j, d, hbinder, hd, hstarts⟩ := hu
  rcases calls_set c life hi hd with ⟨rfl, hc⟩ | hd
  · exact ⟨j, c, hbinder, hc, hstarting hstarts⟩
  · exact ⟨j, d, hbinder, hd, hstarts⟩

/-- A new call. -/
theorem Sound.call (hs : h.Sound) (hfresh : life.fresh = h.life.fresh)
    (htold : ∀ n ∈ h.life.told, n ∈ life.told)
    (hold : ∀ x ∈ life.cache ++ c.took, x ∈ h.life.cache)
    (hstart : ∀ s, c.stage = .starting s → Tells life.told c.took s)
    (hcache : ∀ x ∈ h.life.cache, x ∈ life.cache ∨ x ∈ c.awaited)
    (hstopped : life.phase = .stopped →
      h.life.phase = .stopped ∨ ∀ x ∈ h.life.cache, x.serial ∈ life.told) :
    (h.call c life).Sound where
  binders := hs.binders.trans hfresh.symm
  numbered x hx := by
    refine hfresh.symm ▸ hs.numbered x ?_
    rcases hx with hx | ⟨d, hd, hx⟩
    · exact .inl (hold x (List.mem_append_left _ hx))
    · rcases List.mem_append.mp hd with hd | hd
      · exact .inr ⟨d, hd, hx⟩
      · obtain rfl := List.mem_singleton.mp hd
        exact .inl (hold x (List.mem_append_right _ hx))
  starts d hd s hstage := by
    rcases List.mem_append.mp hd with hd | hd
    · exact (hs.starts d hd s hstage).mono htold
    · obtain rfl := List.mem_singleton.mp hd
      exact hstart s hstage
  covered n hn := by
    rcases hs.covered n (hfresh ▸ hn) with hdoomed | ⟨x, hx, rfl⟩
    · exact .inl (hdoomed.call htold)
    · rcases hcache x hx with hx | hx
      · exact .inr ⟨x, hx, rfl⟩
      · exact .inl (.inr ⟨c, List.mem_append_right _ (List.mem_singleton_self c), x, hx, rfl⟩)
  stopped hphase n hn := by
    rcases hstopped hphase with hbefore | hall
    · exact (hs.stopped hbefore n (hfresh ▸ hn)).imp (Doomed.call · htold) Unfinished.call
    · exact .inl (hs.doomed (Doomed.call · htold) hall (hfresh ▸ hn))

/-- A call that goes on. -/
theorem Sound.set (hs : h.Sound) (hi : h.calls[i]? = some old) (hfresh : life.fresh = h.life.fresh)
    (htold : ∀ n ∈ h.life.told, n ∈ life.told)
    (hold : ∀ x ∈ life.cache ++ c.took, x ∈ h.life.cache ++ old.took)
    (hstart : ∀ s, c.stage = .starting s → Tells life.told c.took s)
    (hawaited : ∀ x ∈ old.awaited, x.serial ∈ life.told ∨ x ∈ c.awaited)
    (hcache : ∀ x ∈ h.life.cache, x ∈ life.cache)
    (hstopped : life.phase = .stopped →
      h.life.phase = .stopped ∧ (old.IsStarting → c.IsStarting) ∨
        ∀ x ∈ h.life.cache, x.serial ∈ life.told) :
    (h.set i c life).Sound where
  binders := hs.binders.trans hfresh.symm
  numbered x hx := by
    have hbefore (hx : x ∈ life.cache ++ c.took) : x.serial < h.life.fresh :=
      hs.numbered x ((List.mem_append.mp (hold x hx)).imp id fun hx =>
        ⟨old, List.mem_of_getElem? hi, hx⟩)
    rw [History.set, hfresh]
    rcases hx with hx | ⟨d, hd, hx⟩
    · exact hbefore (List.mem_append_left _ hx)
    · rcases List.mem_or_eq_of_mem_set hd with hd | rfl
      · exact hs.numbered x (.inr ⟨d, hd, hx⟩)
      · exact hbefore (List.mem_append_right _ hx)
  starts d hd s hstage := by
    rcases List.mem_or_eq_of_mem_set hd with hd | rfl
    · exact (hs.starts d hd s hstage).mono htold
    · exact hstart s hstage
  covered n hn := by
    rcases hs.covered n (hfresh ▸ hn) with hdoomed | ⟨x, hx, rfl⟩
    · exact .inl (hdoomed.set hi htold hawaited)
    · exact .inr ⟨x, hcache x hx, rfl⟩
  stopped hphase n hn := by
    rcases hstopped hphase with ⟨hbefore, hstarting⟩ | hall
    · exact (hs.stopped hbefore n (hfresh ▸ hn)).imp (Doomed.set · hi htold hawaited)
        (Unfinished.set · hi hstarting)
    · exact .inl (hs.doomed (Doomed.set · hi htold hawaited) hall (hfresh ▸ hn))

/-- A listener that is bound is remembered; in a stopped service only a start binds one. -/
theorem Sound.record (hs : h.Sound) (hi : h.calls[i]? = some c)
    (hstarting : h.life.phase = .stopped → c.IsStarting) (network : Network) (address : String) :
    ({ h.bind i with life := (h.life.record network address).2 } : History).Sound where
  binders := by
    show (h.binders ++ [i]).length = h.life.fresh + 1
    rw [List.length_append, hs.binders]
    rfl
  numbered x hx := by
    rcases hx with hx | hx
    · rcases List.mem_append.mp hx with hx | hx
      · exact Nat.lt_succ_of_lt (hs.numbered x (.inl hx))
      · obtain rfl := List.mem_singleton.mp hx
        exact Nat.lt_succ_self _
    · exact Nat.lt_succ_of_lt (hs.numbered x (.inr hx))
  starts := hs.starts
  covered n hn := by
    rcases Nat.lt_succ_iff_lt_or_eq.mp hn with hn | rfl
    · exact (hs.covered n hn).imp id fun ⟨x, hx, hserial⟩ => ⟨x, List.mem_append_left _ hx, hserial⟩
    · exact .inr ⟨_, List.mem_append_right _ (List.mem_singleton_self _), rfl⟩
  stopped hphase n hn := by
    rcases Nat.lt_succ_iff_lt_or_eq.mp hn with hn | rfl
    · refine (hs.stopped hphase n hn).imp id fun ⟨j, d, hbinder, hd⟩ => ⟨j, d, ?_, hd⟩
      exact (List.getElem?_append_left (hs.binders.symm ▸ hn)).trans hbinder
    · refine .inr ⟨i, c, ?_, hi, hstarting hphase⟩
      show (h.binders ++ [i])[h.life.fresh]? = some i
      rw [← hs.binders, List.getElem?_concat_length]

/-- To write down what is asked for concerns no listener. -/
theorem Sound.ask (hs : h.Sound) (network : Network) (address : String) :
    (h.ask network address).Sound :=
  ⟨hs.binders, hs.numbered, hs.starts, hs.covered, hs.stopped⟩

/-- A service set running. -/
theorem Sound.sets_running (hs : h.Sound) :
    ({ h with life := { h.life with phase := .running } } : History).Sound :=
  ⟨hs.binders, hs.numbered, hs.starts, hs.covered, nofun⟩

/-- **A start passes a listener that has ended and tells the next one.** -/
theorem Sound.pass (hs : h.Sound) {took taken rest : List Listener} {x : Listener}
    (hi : h.calls[i]? = some ⟨took, .starting (.waiting taken (x :: rest))⟩) :
    (h.set i ⟨took, .starting (.waiting taken rest)⟩ (h.life.tell (rest.take 1))).Sound := by
  obtain ⟨rfl, before, htook, htold⟩ := hs.starts _ (List.mem_of_getElem? hi) _ rfl
  have hx : x.serial ∈ h.life.told := htold x (List.mem_append_right _ List.mem_cons_self)
  refine hs.set hi rfl (fun _ hn => mem_told_tell.mpr (.inr hn)) (fun _ => id) (fun s hstage => ?_)
    (fun y hy => ?_) (fun _ => id) fun hp => .inl ⟨hp, fun _ => ⟨_, rfl⟩⟩
  · obtain rfl := Stage.starting.inj hstage
    refine ⟨rfl, before ++ [x], by rw [htook, List.append_assoc]; rfl, fun y hy => ?_⟩
    rcases List.mem_append.mp hy with hy | hy
    · exact mem_told_tell.mpr (.inr (htold y hy))
    · exact mem_told_tell.mpr (.inl ⟨y, hy, rfl⟩)
  · rcases List.mem_cons.mp hy with rfl | hy
    · exact .inl (mem_told_tell.mpr (.inr hx))
    · exact .inr hy

/-- A start that has waited for all has told all it took. -/
theorem Sound.turn (hs : h.Sound) {took taken : List Listener}
    (hi : h.calls[i]? = some ⟨took, .starting (.waiting taken [])⟩) :
    (h.set i ⟨took, .starting (.binding taken)⟩ h.life).Sound := by
  obtain ⟨rfl, before, htook, htold⟩ := hs.starts _ (List.mem_of_getElem? hi) _ rfl
  refine hs.set hi rfl (fun _ => id) (fun _ => id) (fun s hstage => ?_) nofun (fun _ => id)
    fun hp => .inl ⟨hp, fun _ => ⟨_, rfl⟩⟩
  obtain rfl := Stage.starting.inj hstage
  exact ⟨[], rfl, fun x hx => htold x (htook ▸ hx)⟩

/-- To listen sets a stopped service running, so its new listener need not be doomed. -/
theorem Sound.listens (hs : h.Sound) {took : List Listener} {network : Network} (address : String)
    (hi : h.calls[i]? = some ⟨took, .listening network⟩) :
    (((h.bind i).ask network address).set i ⟨took, .returned (.ok ())⟩
      (h.life.spawned network address).2).Sound := by
  have hbound : ({ h.bind i with life := (h.life.spawned network address).2 } : History).Sound := by
    by_cases hphase : h.life.phase = .stopped
    · have hlife : (h.life.spawned network address).2 =
          (({ h.life with phase := .running } : Lifecycle).record network address).2 :=
        if_pos hphase
      rw [hlife]
      exact hs.sets_running.record hi (by rintro ⟨⟩) network address
    · have hlife : (h.life.spawned network address).2 = (h.life.record network address).2 :=
        if_neg hphase
      rw [hlife]
      exact hs.record hi (absurd · hphase) network address
  exact (hbound.ask network address).set (c := ⟨took, .returned (.ok ())⟩) hi rfl (fun _ => id)
    (fun _ => id) (by rintro _ ⟨⟩) (List.forall_mem_nil _) (fun _ => id) fun hp =>
      .inl ⟨hp, by rintro ⟨_, ⟨⟩⟩⟩

/-- A listener that is bound again is the start's to finish. -/
theorem Sound.rebind (hs : h.Sound) {took rest : List Listener} {x y : Listener} (address : String)
    (hi : h.calls[i]? = some ⟨took, .starting (.binding (x :: y :: rest))⟩) :
    ((h.bind i).set i ⟨took, .starting (.binding (y :: rest))⟩
      (h.life.record x.network address).2).Sound := by
  obtain ⟨before, htook, htold⟩ := hs.starts _ (List.mem_of_getElem? hi) _ rfl
  refine (hs.record hi (fun _ => ⟨_, rfl⟩) x.network address).set hi rfl (fun _ => id) (fun _ => id)
    (fun s hstage => ?_) nofun (fun _ => id) fun hp => .inl ⟨hp, fun _ => ⟨_, rfl⟩⟩
  obtain rfl := Stage.starting.inj hstage
  exact ⟨before ++ [x], by rw [htook, List.append_assoc]; rfl, htold⟩

/-- **A start that ends in a stopped service tells what is remembered**, so none of its listeners
is left over. -/
theorem Sound.complete (hs : h.Sound) {took : List Listener} {x : Listener} (address : String)
    (hi : h.calls[i]? = some ⟨took, .starting (.binding [x])⟩) :
    ((h.bind i).set i ⟨took, .returned (.ok ())⟩
      ((h.life.record x.network address).2.finish true)).Sound := by
  refine (hs.record hi (fun _ => ⟨_, rfl⟩) x.network address).set hi (fresh_finish ..)
    (fun _ => mem_told_finish) (fun y hy => by rwa [cache_finish] at hy) nofun nofun
    (fun y hy => (cache_finish ..).symm ▸ hy) fun hp => .inr ?_
  rcases phase_finish hp with ⟨-, hall⟩ | ⟨-, hfalse⟩
  · exact hall
  · exact nomatch hfalse

/-- A start that gives up remembers what it did not bind, all of which was told. -/
theorem Sound.giveUp (hs : h.Sound) {took rest : List Listener} {x : Listener} (e : ServiceError)
    (hi : h.calls[i]? = some ⟨took, .starting (.binding (x :: rest))⟩) :
    (h.set i ⟨took, .returned (.error e)⟩ (h.life.giveUp (x :: rest))).Sound := by
  obtain ⟨before, htook, -⟩ := hs.starts _ (List.mem_of_getElem? hi) _ rfl
  refine hs.set hi (fresh_finish ..) (fun _ hn => mem_told_finish (b := _) hn) (fun y hy => ?_)
    nofun
    nofun (fun y hy => by rw [cache_giveUp]; exact List.mem_append_right _ hy)
    fun hp => .inr fun y hy => ?_
  · rw [cache_giveUp, htook] at hy
    rw [htook]
    grind
  · have hy' : y ∈ x :: rest ++ h.life.cache := List.mem_append_right _ hy
    rcases phase_finish hp with ⟨-, hall⟩ | ⟨-, hlive⟩
    · exact hall y hy'
    · exact mem_told_finish (live_eq_nil_iff.mp (by simpa using hlive) y hy')

/-- Every act keeps what is known. -/
theorem Sound.goes (hs : h.Sound) (hgoes : Goes h act h') : h'.Sound := by
  cases hgoes with
  | idle => exact hs
  | ends serial => exact ⟨hs.binders, hs.numbered, hs.starts, hs.covered, hs.stopped⟩
  | passes hi => exact hs.pass hi
  | turns hi => exact hs.turn hi
  | listens hi => exact hs.listens _ hi
  | refuses hi =>
    exact hs.set hi rfl (fun _ => id) (fun _ => id) (by rintro _ ⟨⟩) (List.forall_mem_nil _)
      (fun _ => id) fun hp => .inl ⟨hp, by rintro ⟨_, ⟨⟩⟩⟩
  | rebinds hi => exact hs.rebind _ hi
  | completes hi => exact hs.complete _ hi
  | givesUp hi => exact hs.giveUp _ hi

/-- **Every move keeps what is known.** -/
theorem Sound.moves (hs : h.Sound) (hmoves : Moves h act h') : h'.Sound := by
  cases hmoves with
  | goes hgoes => exact hs.goes hgoes
  | calls stage hstage =>
    exact hs.call rfl (fun _ => id) (by simp) (fun s hs => absurd hs (hstage s)) (fun _ => .inl)
      .inl
  | stops hphase =>
    exact hs.call rfl (fun _ hn => mem_told_tell.mpr (.inr hn)) (by simp [tell]) nofun
      (fun _ => .inl) fun _ => .inr fun x hx => mem_told_tell.mpr (.inl ⟨x, hx, rfl⟩)
  | starts hphase hne =>
    refine hs.call rfl (fun _ hn => mem_told_tell.mpr (.inr hn)) (by simp) (fun s hstage => ?_)
      (fun _ => .inr) nofun
    obtain rfl := Stage.starting.inj hstage
    exact ⟨rfl, [], rfl, fun x hx => mem_told_tell.mpr (.inl ⟨x, hx, rfl⟩)⟩

/-- **It is known of every interleaving.** -/
theorem sound_run (acts : List Act) : (initial.run acts).Sound :=
  run_induction sound_initial Sound.moves acts

/-! ## A stop among starts -/

/-- Nothing can set the service running: it is stopped and nobody is about to listen. -/
structure Still (h : History) : Prop where
  phase : h.life.phase = .stopped
  calls : ∀ c ∈ h.calls, ¬c.IsListening

/-- A service stays still while no call is about to listen. -/
theorem Still.set (hs : h.Still) (hphase : life.phase = .stopped) (hc : ¬c.IsListening) :
    (h.set i c life).Still where
  phase := hphase
  calls d hd := by
    rcases List.mem_or_eq_of_mem_set hd with hd | rfl
    · exact hs.calls d hd
    · exact hc

/-- **Only a new call sets a stopped service running.** -/
theorem Still.goes (hs : h.Still) (hgoes : Goes h act h') : h'.Still := by
  cases hgoes with
  | idle => exact hs
  | ends serial => exact ⟨hs.phase, hs.calls⟩
  | passes hi => exact hs.set hs.phase nofun
  | turns hi => exact hs.set hs.phase nofun
  | listens hi => exact absurd ⟨_, rfl⟩ (hs.calls _ (List.mem_of_getElem? hi))
  | refuses hi => exact absurd ⟨_, rfl⟩ (hs.calls _ (List.mem_of_getElem? hi))
  | rebinds hi => exact Still.set (h := h.bind _) ⟨hs.phase, hs.calls⟩ hs.phase nofun
  | completes hi =>
    exact Still.set (h := h.bind _) ⟨hs.phase, hs.calls⟩
      (phase_finish_of_stopped (l := (h.life.record ..).2) hs.phase true) nofun
  | givesUp hi => exact hs.set (phase_giveUp_of_stopped hs.phase _) nofun

end History

end Lifecycle

end Switchboard
