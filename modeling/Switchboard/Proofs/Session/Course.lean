import Switchboard.Proofs.Session.Log

/-!
# Proofs/Session/Course — the course a request takes through its chain

While a chain runs, the entries that are running form a stack, the one started last on top, and only
the entry on top does anything (`runningAfter`).  So entries are nested: one that ran the rest of
the chain goes on only after all that were started meanwhile came to their ends.  With what the
cursor says this makes the course of a request orderly (`Orderly`), and `Desk.dispatch` takes it,
however large its budget is (`Desk.dispatch_course`).
-/

namespace Switchboard

namespace Turn

variable {t t' u : Turn} {h : Script} {w : Work} {events later : List Event}

/-! ## Entries that are running -/

/-- The entry something happens to. -/
def Event.entry : Event → Nat
  | started i | resumed i | stopped i | brokeDown i | finished i => i

/-- The entries that are running after an event, the one started last first; none if the event was
not its entry's to cause. -/
def Event.apply (running : List Nat) (e : Event) : Option (List Nat) :=
  match e with
  | started i => if ∀ k ∈ running, k < i then some (i :: running) else none
  | finished i => if running.head? = some i then some running.tail else none
  | resumed i | stopped i | brokeDown i => if running.head? = some i then some running else none

/-- **The entries that are running** after events; none if one was out of place. -/
def runningAfter (running : List Nat) (events : List Event) : Option (List Nat) :=
  events.foldlM Event.apply running

theorem runningAfter_append (running : List Nat) (events later : List Event) :
    runningAfter running (events ++ later) =
      (runningAfter running events).bind fun r => runningAfter r later := List.foldlM_append

theorem runningAfter_cons (running : List Nat) (e : Event) (events : List Event) :
    runningAfter running (e :: events) =
      (e.apply running).bind fun r => runningAfter r events := rfl

theorem runningAfter_singleton (running : List Nat) (e : Event) :
    runningAfter running [e] = e.apply running := Option.bind_fun_some _

/-- One event ends nothing but the entry it finishes. -/
theorem Event.running_or_finished {running running' : List Nat} {e : Event}
    (happly : e.apply running = some running') (hsorted : running.Pairwise (· > ·)) :
    running'.Pairwise (· > ·) ∧
      ∀ j, j ∈ running ∨ e = .started j → j ∈ running' ∨ e = .finished j := by
  cases e with
  | started i =>
    obtain ⟨hnew, ⟨⟩⟩ := Option.ite_none_right_eq_some.mp happly
    refine ⟨List.pairwise_cons.mpr ⟨hnew, hsorted⟩, fun j hj => .inl ?_⟩
    obtain hj | hj := hj
    · exact List.mem_cons_of_mem _ hj
    · cases hj
      exact List.mem_cons_self
  | finished i =>
    obtain ⟨htop, ⟨⟩⟩ := Option.ite_none_right_eq_some.mp happly
    cases running with
    | nil => cases htop
    | cons k running =>
      cases htop
      refine ⟨(List.pairwise_cons.mp hsorted).2, fun j hj => ?_⟩
      obtain rfl | hj := List.mem_cons.mp (hj.resolve_right nofun)
      · exact .inr rfl
      · exact .inl hj
  | resumed i | stopped i | brokeDown i =>
    obtain ⟨-, ⟨⟩⟩ := Option.ite_none_right_eq_some.mp happly
    exact ⟨hsorted, fun j hj => .inl (hj.resolve_right nofun)⟩

/-- **What is started runs until it is finished**, in order. -/
theorem running_or_finished {running running' : List Nat}
    (hafter : runningAfter running events = some running') (hsorted : running.Pairwise (· > ·)) :
    running'.Pairwise (· > ·) ∧
      ∀ j, j ∈ running ∨ .started j ∈ events → j ∈ running' ∨ .finished j ∈ events := by
  induction events generalizing running with
  | nil =>
    cases hafter
    exact ⟨hsorted, fun j hj => .inl (hj.resolve_right nofun)⟩
  | cons e events ih =>
    rw [runningAfter_cons] at hafter
    obtain ⟨mid, happly, hrest⟩ := Option.bind_eq_some_iff.mp hafter
    obtain ⟨hmid, hfirst⟩ := Event.running_or_finished happly hsorted
    obtain ⟨hsorted', hthen⟩ := ih hrest hmid
    refine ⟨hsorted', fun j hj => ?_⟩
    have hmem : j ∈ mid ∨ e = .finished j ∨ Event.started j ∈ events := by
      rw [List.mem_cons, ← or_assoc] at hj
      obtain hj | hj := hj
      · exact (hfirst j (hj.imp_right Eq.symm)).imp_right .inl
      · exact .inr (.inr hj)
    obtain hj | rfl | hj := hmem
    · exact (hthen j (.inl hj)).imp_right (List.mem_cons_of_mem _)
    · exact .inr List.mem_cons_self
    · exact (hthen j (.inr hj)).imp_right (List.mem_cons_of_mem _)

/-- Only the entry on top does anything. -/
theorem Event.head?_of_apply {running running' : List Nat} {e : Event}
    (happly : e.apply running = some running') (hstart : e.start? = none) :
    running.head? = some e.entry := by
  cases e with
  | started i => cases hstart
  | finished i | resumed i | stopped i | brokeDown i =>
    exact (Option.ite_none_right_eq_some.mp happly).1

/-- **Entries are nested**: when an entry does anything, those started after it are finished. -/
theorem finished_of_runningAfter {running' : List Nat} {before : List Event} {e : Event}
    (hafter : runningAfter [] (before ++ e :: later) = some running') (hstart : e.start? = none)
    {j : Nat} (hlt : e.entry < j) (hj : .started j ∈ before) : .finished j ∈ before := by
  rw [runningAfter_append] at hafter
  obtain ⟨mid, hbefore, hrest⟩ := Option.bind_eq_some_iff.mp hafter
  rw [runningAfter_cons] at hrest
  obtain ⟨_, happly, -⟩ := Option.bind_eq_some_iff.mp hrest
  obtain ⟨hsorted, hkept⟩ := running_or_finished hbefore .nil
  refine (hkept j (.inr hj)).resolve_left fun hmem => ?_
  have htop := Event.head?_of_apply happly hstart
  cases mid with
  | nil => cases hmem
  | cons k mid =>
    cases htop
    obtain rfl | hmem := List.mem_cons.mp hmem
    · exact absurd hlt (Nat.lt_irrefl _)
    · exact absurd hlt (Nat.lt_asymm ((List.pairwise_cons.mp hsorted).1 j hmem))

/-! ## Runs keep to the stack -/

theorem upcoming?_of_broken (hbroken : t.broken = true) : t.upcoming? = none := by
  rw [upcoming?, halted, hbroken, Bool.or_true, if_pos rfl]

theorem allow?_of_broken (hbroken : t.broken = true) (h : Script) (s : Step × Nat) :
    t.allow? h s = none := by
  rw [allow?, if_pos hbroken]

/-- Nothing happens any more once an entry broke down. -/
theorem Runs.of_broken (hrun : Runs w t events t') (hbroken : t.broken = true) :
    events = [] ∧ t' = t := by
  induction hrun with
  | rest | done => exact ⟨rfl, rfl⟩
  | passed _ _ ihlater => exact ihlater hbroken
  | entry hnext =>
    rw [upcoming?_of_broken hbroken] at hnext
    cases hnext
  | within hsome | performed hsome =>
    rw [allow?_of_broken hbroken] at hsome
    cases hsome

theorem conclude_of_broken {h : Script} {a : Action} {r : Answer × Turn}
    (hbroken : r.2.broken = true) : conclude h a r = r.2 := if_pos hbroken

/-- The entry that is taking its steps. -/
def Work.running : Work → List Nat
  | .chain => []
  | .steps i _ _ => [i]

/-- What an action does, its entry does. -/
theorem Effect.runningAfter {i : Nat} (heffect : Effect i t events t') (outer : List Nat) :
    runningAfter (i :: outer) events = some (i :: outer) := by
  cases heffect with
  | plain => rfl
  | stopped | brokeDown =>
    rw [runningAfter_singleton]
    exact if_pos rfl

/-- **Events that leave these entries running**; if one broke down, more may be left on top. -/
def Leaves (running : List Nat) (events : List Event) (running' : List Nat) (t' : Turn) : Prop :=
  ∃ left, runningAfter running events = some left ∧ running' <:+ left ∧
    (t'.broken = false → left = running')

theorem leaves_nil (running : List Nat) (t' : Turn) : Leaves running [] running t' :=
  ⟨running, rfl, List.suffix_rfl, fun _ => rfl⟩

theorem Leaves.of_append {running mid running' : List Nat}
    (hfirst : runningAfter running events = some mid) (hlater : Leaves mid later running' t') :
    Leaves running (events ++ later) running' t' := by
  obtain ⟨left, hafter, hleft⟩ := hlater
  exact ⟨left, by rw [runningAfter_append, hfirst, Option.bind_some, hafter], hleft⟩

/-- What is run within is followed by an event of the entry around it, unless an entry broke
down, and by what comes later. -/
theorem Leaves.then {running mid running' : List Nat} {t₁ t₂ : Turn} {e : Event}
    (hinner : Leaves running events mid t₁) (hsuffix : running' <:+ mid)
    (happly : e.apply mid = some running')
    (hbroken : t₁.broken = true → later = [] ∧ t₂ = t₁)
    (hlater : Leaves running' later running' t₂) :
    Leaves running (events ++ t₁.unlessBroken e ++ later) running' t₂ := by
  obtain ⟨left, hafter, hleft, hnone⟩ := hinner
  cases hstate : t₁.broken with
  | true =>
    obtain ⟨rfl, rfl⟩ := hbroken hstate
    rw [unlessBroken, if_pos hstate, List.append_nil, List.append_nil]
    refine ⟨left, hafter, hsuffix.trans hleft, fun hfalse => ?_⟩
    rw [hstate] at hfalse
    cases hfalse
  | false =>
    obtain rfl := hnone hstate
    rw [unlessBroken, hstate]
    refine .of_append ?_ hlater
    show runningAfter running (events ++ [e]) = _
    rw [runningAfter_append, hafter, Option.bind_some, runningAfter_singleton, happly]

/-- **A run leaves the entries that were running before.** -/
theorem Runs.leaves (hrun : Runs w t events t') (hwork : w.NeverResets)
    (hchain : ∀ g ∈ t.request.chain, NeverResets g) {outer : List Nat}
    (houter : ∀ k ∈ w.running ++ outer, k < t.request.cursor) :
    Leaves (w.running ++ outer) events (w.running ++ outer) t' := by
  induction hrun generalizing outer with
  | rest | done => exact leaves_nil _ _
  | @entry t t₁ t₂ h inner later hnext hsteps hlater ihsteps ihlater =>
    have henter := headway_enter hnext
    have hentered : ∀ g ∈ (t.enter h).request.chain, NeverResets g := henter.chain ▸ hchain
    have hreset := (neverResets_of_upcoming hnext hchain).steps t.request.cursor
    have hway := henter.trans (hsteps.headway hreset hentered)
    have hstart : runningAfter outer [.started t.request.cursor] =
        some (t.request.cursor :: outer) := by
      rw [runningAfter_singleton]
      exact if_pos houter
    -- handlers that run stand in front of the cursor, so the one that starts is none of them
    have hown : ∀ k ∈ t.request.cursor :: outer, k < (t.enter h).request.cursor :=
      List.forall_mem_cons.mpr ⟨henter.cursor ▸ Nat.lt_succ_self _, henter.lt_cursor houter⟩
    show Leaves outer ([.started t.request.cursor] ++ (inner ++ _ ++ later)) outer t₂
    exact .of_append hstart ((ihsteps hreset hentered hown).then (List.suffix_cons _ _) (if_pos rfl)
      hlater.of_broken (ihlater trivial (hway.chain ▸ hchain) (hway.lt_cursor houter)))
  | passed _ _ ihlater => exact ihlater (List.forall_mem_cons.mp hwork).2 hchain houter
  | @within t u t₁ t₂ i h s left inner later hsome hnext hrest hlater ihrest ihlater =>
    have hallow := headway_allow hsome
    have hallowed : ∀ g ∈ u.request.chain, NeverResets g := hallow.chain ▸ hchain
    have hway := (hrest.headway trivial hallowed).within_step hsome
    have hinner : Leaves (i :: outer) inner (i :: outer) t₁ :=
      ihrest trivial hallowed (hallow.lt_cursor houter)
    refine hinner.then List.suffix_rfl (if_pos rfl) ?_ (ihlater (List.forall_mem_cons.mp hwork).2
      (hway.chain ▸ hchain) (hway.lt_cursor houter))
    intro hbroken
    rw [conclude_of_broken hbroken] at hlater
    exact hlater.of_broken hbroken
  | @performed t u t₁ i h s left later hsome hne _ ihlater =>
    obtain ⟨hs, hleft⟩ := List.forall_mem_cons.mp hwork
    have hway := headway_step i hsome hne hs
    exact .of_append ((effect_perform i u hne hs).runningAfter outer)
      (ihlater hleft (hway.chain ▸ hchain) (hway.lt_cursor houter))

/-! ## The course of a request -/

/-- **An orderly course** through a chain of so many entries. -/
structure Orderly (length : Nat) (events : List Event) : Prop where
  /-- The entries that are started are the first ones, each once and in order, … -/
  first : ∃ k ≤ length, startsOf events = List.range k
  /-- …all of them, unless the chain is stopped or an entry breaks down, … -/
  all : (∀ i, .stopped i ∉ events ∧ .brokeDown i ∉ events) → startsOf events = List.range length
  /-- …and none once the chain is stopped or an entry broke down. -/
  halted : ∀ before later i,
    events = before ++ .stopped i :: later ∨ events = before ++ .brokeDown i :: later →
      startsOf later = []
  /-- Entries are nested: what is not the start of an entry, such as going on after the rest of the
  chain was run, happens to it only when all that were started after it came to their ends. -/
  nested : ∀ before e later, events = before ++ e :: later → e.start? = none →
    ∀ j, e.entry < j → .started j ∈ before → .finished j ∈ before
  /-- Entries that are started come to their ends, unless one breaks down. -/
  finished : (∀ i, .brokeDown i ∉ events) → ∀ j, .started j ∈ events → .finished j ∈ events

/-- How a chain ends that runs with these events. -/
def outcomeOf (events : List Event) : Outcome :=
  if events.any Event.breaks then .brokeDown
  else if events.any Event.stops then .aborted
  else .completed

/-- A request before its chain is run. -/
def opening (desk : Desk) (place : Place) (block : Bytes) (chain : List Script) : Turn :=
  ⟨desk, .ofBlock place block chain, false⟩

theorem any_breaks_eq_false (hnone : ∀ i, .brokeDown i ∉ events) :
    events.any Event.breaks = false := by
  rw [List.any_eq_false]
  intro e he hbreaks
  cases e with
  | brokeDown i => exact hnone i he
  | started | resumed | stopped | finished => cases hbreaks

theorem any_stops_eq_false (hnone : ∀ i, .stopped i ∉ events) :
    events.any Event.stops = false := by
  rw [List.any_eq_false]
  intro e he hstops
  cases e with
  | stopped i => exact hnone i he
  | started | resumed | brokeDown | finished => cases hstops

/-- A run of the chain ends where no entry is to be started. -/
theorem Runs.upcoming?_eq_none (hrun : Runs w t events t') (hw : w = .chain) :
    t'.upcoming? = none := by
  induction hrun with
  | rest hnone => exact hnone
  | entry _ _ _ _ ihlater => exact ihlater rfl
  | done | passed | within | performed => cases hw

/-- **The course of a run from the beginning of the chain is orderly.** -/
theorem Runs.orderly {desk : Desk} {place : Place} {block : Bytes} {chain : List Script}
    (hrun : Runs .chain (opening desk place block chain) events t)
    (hchain : ∀ g ∈ chain, NeverResets g) : Orderly chain.length events := by
  have hway := hrun.headway trivial hchain
  have hstarts : startsOf events = List.range (startsOf events).length := by
    rw [List.range_eq_range']
    exact hway.starts
  have hcursor : t.request.cursor = (startsOf events).length := hway.cursor.trans (Nat.zero_add _)
  have hlength : (startsOf events).length ≤ chain.length := hcursor ▸ hway.within (Nat.zero_le _)
  have hleaves : Leaves [] events [] t :=
    hrun.leaves trivial hchain fun _ hk => absurd hk List.not_mem_nil
  obtain ⟨left, hafter, -, hnone⟩ := hleaves
  exact {
    first := ⟨_, hlength, hstarts⟩
    all := fun hgoes => by
      have haborted : t.request.aborted = false :=
        hway.aborted.trans (any_stops_eq_false fun i => (hgoes i).1)
      have hbroken : t.broken = false :=
        hway.broken.trans (any_breaks_eq_false fun i => (hgoes i).2)
      have hend := hrun.upcoming?_eq_none rfl
      rw [upcoming?, Turn.halted, haborted, hbroken, Bool.or_self, if_neg Bool.false_ne_true,
        hway.chain, hcursor] at hend
      have hall : chain.length ≤ (startsOf events).length := List.getElem?_eq_none_iff.mp hend
      rw [hstarts, Nat.le_antisymm hlength hall]
    halted := fun before later i hsplit => by
      obtain hsplit | hsplit := hsplit
      · exact hway.starts_after hsplit rfl
      · exact hway.starts_after hsplit rfl
    nested := fun before e later hsplit hstart j hlt hj =>
      finished_of_runningAfter (hsplit ▸ hafter) hstart hlt hj
    finished := fun hgoes j hj => by
      have hbroken : t.broken = false := hway.broken.trans (any_breaks_eq_false hgoes)
      obtain rfl := hnone hbroken
      exact ((running_or_finished hafter .nil).2 j (.inr hj)).resolve_left List.not_mem_nil }

end Turn

/-- **Every dispatched request takes an orderly course to its end.**  If none of the handlers it
resolves to starts the chain over, there is just one run of the chain from its beginning.  Any
budget of at least an entry each leads to its end, the answer says how its events end, the log tells
its events, and its course is orderly. -/
theorem Desk.dispatch_course (desk : Desk) (router : Router Script) (place : Place) (block : Bytes)
    (chain : List Script) (hresolve : router.resolve block = some chain)
    (hchain : ∀ h ∈ chain, Turn.NeverResets h) :
    ∃ events t, Turn.Runs .chain (Turn.opening desk place block chain) events t ∧
      (∀ events' t', Turn.Runs .chain (Turn.opening desk place block chain) events' t' →
        events' = events ∧ t' = t) ∧
      (∀ budget, chain.length ≤ budget →
        (Turn.opening desk place block chain).advance budget = t) ∧
      desk.dispatch router place block = (Turn.outcomeOf events, t.desk) ∧
      Turn.Tells chain (Turn.opening desk place block chain) events t ∧
      Turn.Orderly chain.length events := by
  have hwithin : (Turn.opening desk place block chain).Within chain.length :=
    ⟨hchain, Nat.le_of_eq (Nat.zero_add _).symm⟩
  obtain ⟨events, t, hrun⟩ := Turn.exists_runs hwithin
  have hway := hrun.headway trivial hchain
  have horderly := hrun.orderly hchain
  have hadvance {budget : Nat} (hbudget : chain.length ≤ budget) :
      (Turn.opening desk place block chain).advance budget = t := by
    obtain ⟨k, hk, hstarts⟩ := horderly.first
    refine hrun.advance_eq ?_
    rw [hstarts, List.length_range]
    exact Nat.le_trans hk hbudget
  refine ⟨events, t, hrun, fun events' t' => hrun.unique, fun _ => hadvance, ?_,
    hrun.tells trivial hchain trivial, horderly⟩
  have hproceed : (Turn.opening desk place block chain).proceed = t :=
    hadvance (Nat.le_add_right _ _)
  have haborted : t.request.aborted = events.any Turn.Event.stops :=
    hway.aborted.trans (Bool.false_or _)
  have hbroken : t.broken = events.any Turn.Event.breaks := hway.broken.trans (Bool.false_or _)
  rw [dispatch, hresolve]
  show ((if (Turn.opening desk place block chain).proceed.broken then Outcome.brokeDown else
    if (Turn.opening desk place block chain).proceed.request.aborted then .aborted
    else .completed), (Turn.opening desk place block chain).proceed.desk) = _
  rw [hproceed, haborted, hbroken]
  rfl

/-- A handler that stops the chain before it runs the rest of it, within one that runs the rest
twice. -/
theorem Desk.dispatch_course_stopped :
    let first : Script := ⟨0, some "first", [⟨.next, none⟩, ⟨.next, none⟩]⟩
    let second : Script := ⟨1, some "second", [⟨.abort, none⟩, ⟨.next, none⟩]⟩
    let third : Script := ⟨2, some "third", []⟩
    let router := ((Router.empty.useGlobal first).useGlobal second).setRaw third
    let events : List Turn.Event := [.started 0, .started 1, .stopped 1, .resumed 1, .finished 1,
      .resumed 0, .resumed 0, .finished 0]
    router.resolve [] = some [first, second, third] ∧
      (∀ h ∈ [first, second, third], Turn.NeverResets h) ∧
      (∃ t, Turn.Runs .chain (Turn.opening default default [] [first, second, third]) events t) ∧
      ((default : Desk).dispatch router default []).1 = .aborted := by
  intro first second third router events
  have hresolve : router.resolve [] = some [first, second, third] := rfl
  have hchain : ∀ h ∈ [first, second, third], Turn.NeverResets h := by
    simp [Turn.NeverResets, first, second, third]
  obtain ⟨events', t, hrun, hunique, -, hdispatch, -⟩ :=
    dispatch_course default router default [] _ hresolve hchain
  have hknown := Turn.Runs.entry (t := Turn.opening default default [] [first, second, third]) rfl
    (.within rfl rfl (.entry rfl (.performed rfl nofun (.within rfl rfl (.rest rfl) .done))
      (.rest rfl)) (.within rfl rfl (.rest rfl) .done)) (.rest rfl)
  obtain ⟨rfl, rfl⟩ := hunique _ _ hknown
  refine ⟨hresolve, hchain, ⟨_, hknown⟩, ?_⟩
  rw [hdispatch]
  rfl

end Switchboard
