import Switchboard.Proofs.Session.Trace

/-!
# Proofs/Session/Headway — the cursor of a chain only grows

Without handlers that start the chain over, a run starts the entries from the cursor on, one by one,
and none of them once the chain is stopped or an entry broke down (`Headway`).  Hence it ends
(`exists_runs`): a run within has fewer entries to start than the one around it.
-/

namespace Switchboard

namespace Turn

variable {t t₁ t₂ t' u : Turn} {h : Script} {s : Step × Nat} {w : Work} {events later : List Event}

/-- **What events make of a turn** whose chain is not started over. -/
structure Headway (t : Turn) (events : List Event) (t' : Turn) : Prop where
  /-- The chain stays the same. -/
  chain : t'.request.chain = t.request.chain
  /-- The cursor passes the entries that are started, … -/
  cursor : t'.request.cursor = t.request.cursor + (startsOf events).length
  /-- …one by one, … -/
  starts : startsOf events = List.range' t.request.cursor (startsOf events).length
  /-- …and not beyond the chain. -/
  within : t.request.cursor ≤ t.request.chain.length →
    t'.request.cursor ≤ t.request.chain.length
  /-- The chain is stopped if an entry stops it. -/
  aborted : t'.request.aborted = (t.request.aborted || events.any Event.stops)
  /-- A handler broke down if an entry does. -/
  broken : t'.broken = (t.broken || events.any Event.breaks)
  /-- Nothing is started once the chain is halted, … -/
  idle : t.halted = true → startsOf events = []
  /-- …nor after an event that halts it. -/
  after : events.Pairwise fun e e' => (e.stops || e.breaks) = true → e'.start? = none

namespace Headway

/-- An event that halts leaves the turn halted. -/
theorem halted_of_mem (hway : Headway t events t') {e : Event} (he : e ∈ events)
    (hhalts : (e.stops || e.breaks) = true) : t'.halted = true := by
  rw [halted, hway.aborted, hway.broken]
  obtain hstops | hbreaks := Bool.or_eq_true_iff.mp hhalts
  · rw [List.any_eq_true.mpr ⟨e, he, hstops⟩, Bool.or_true, Bool.true_or]
  · rw [List.any_eq_true.mpr ⟨e, he, hbreaks⟩, Bool.or_true, Bool.or_true]

/-- A turn that was halted stays so. -/
theorem halted_of_halted (hway : Headway t events t') (hhalted : t.halted = true) :
    t'.halted = true := by
  rw [halted, hway.aborted, hway.broken]
  obtain haborted | hbroken := Bool.or_eq_true_iff.mp hhalted
  · rw [haborted, Bool.true_or, Bool.true_or]
  · rw [hbroken, Bool.true_or, Bool.or_true]

/-- Nothing is started, but the chain may be halted. -/
theorem of_no_start (hchain : t'.request.chain = t.request.chain)
    (hcursor : t'.request.cursor = t.request.cursor)
    (haborted : t'.request.aborted = (t.request.aborted || events.any Event.stops))
    (hbroken : t'.broken = (t.broken || events.any Event.breaks))
    (hstarts : startsOf events = []) : Headway t events t' where
  chain := hchain
  cursor := by rw [hstarts, hcursor]; rfl
  starts := by rw [hstarts]; rfl
  within hle := hcursor ▸ hle
  aborted := haborted
  broken := hbroken
  idle _ := hstarts
  after := List.pairwise_of_forall_mem_list fun _ _ e he _ =>
    (List.filterMap_eq_nil_iff.mp hstarts) e he

/-- Headway may be made in two stretches. -/
theorem trans (hfirst : Headway t events t₁) (hthen : Headway t₁ later t₂) :
    Headway t (events ++ later) t₂ where
  chain := hthen.chain.trans hfirst.chain
  cursor := by
    rw [hthen.cursor, hfirst.cursor, startsOf_append, List.length_append, Nat.add_assoc]
  starts := by
    have hlater := hthen.starts
    rw [hfirst.cursor] at hlater
    rw [startsOf_append, List.length_append, ← List.range'_append_1, ← hlater, ← hfirst.starts]
  within hle := by
    have hlength := hthen.within
    rw [hfirst.chain] at hlength
    exact hlength (hfirst.within hle)
  aborted := by rw [hthen.aborted, hfirst.aborted, List.any_append, Bool.or_assoc]
  broken := by rw [hthen.broken, hfirst.broken, List.any_append, Bool.or_assoc]
  idle hhalted := by
    rw [startsOf_append, hfirst.idle hhalted, hthen.idle (hfirst.halted_of_halted hhalted)]
    rfl
  after := List.pairwise_append.mpr ⟨hfirst.after, hthen.after, fun _ he e' he' hhalts =>
    List.filterMap_eq_nil_iff.mp (hthen.idle (hfirst.halted_of_mem he hhalts)) e' he'⟩

/-- **Nothing starts after an event that halts.** -/
theorem starts_after (hway : Headway t events t') {before : List Event} {e : Event}
    (hsplit : events = before ++ e :: later) (hhalts : (e.stops || e.breaks) = true) :
    startsOf later = [] := by
  have hafter := hway.after
  rw [hsplit] at hafter
  obtain ⟨-, hafter, -⟩ := List.pairwise_append.mp hafter
  exact List.filterMap_eq_nil_iff.mpr fun e' he' =>
    (List.pairwise_cons.mp hafter).1 e' he' hhalts

/-- What was started before stays before the cursor. -/
theorem lt_cursor (hway : Headway t events t') {outer : List Nat}
    (houter : ∀ k ∈ outer, k < t.request.cursor) : ∀ k ∈ outer, k < t'.request.cursor := by
  intro k hk
  rw [hway.cursor]
  exact Nat.lt_add_right _ (houter k hk)

end Headway

/-! ## One thing after another -/

theorem request_note (t : Turn) (h : Script) (entry : String → Entry) :
    (t.note h entry).request = t.request ∧ (t.note h entry).broken = t.broken := by
  unfold note
  split <;> exact ⟨rfl, rfl⟩

/-- A turn with the same request in the same state. -/
theorem headway_of_same (hrequest : t'.request = t.request) (hbroken : t'.broken = t.broken) :
    Headway t [] t' :=
  .of_no_start (by rw [hrequest]) (by rw [hrequest])
    (by rw [hrequest]; exact (Bool.or_false _).symm)
    (by rw [hbroken]; exact (Bool.or_false _).symm) rfl

theorem headway_allow (hsome : t.allow? h s = some u) : Headway t [] u := by
  obtain ⟨uses, rfl⟩ := exists_of_allow hsome
  exact headway_of_same rfl rfl

/-- To write down the answer of an action is no event. -/
theorem headway_conclude (h : Script) (a : Action) (r : Answer × Turn) :
    Headway r.2 [] (conclude h a r) := by
  unfold conclude
  split
  · exact headway_of_same rfl rfl
  · obtain ⟨hrequest, hbroken⟩ := request_note r.2 h fun name => .did name a r.1
    exact headway_of_same hrequest hbroken

theorem headway_unlessBroken (t : Turn) (e : Event) (hstart : e.start? = none)
    (hstops : e.stops = false) (hbreaks : e.breaks = false) : Headway t (t.unlessBroken e) t := by
  unfold unlessBroken
  split
  · exact headway_of_same rfl rfl
  · refine .of_no_start rfl rfl ?_ ?_ ?_
    · rw [List.any_cons, hstops]; exact (Bool.or_false _).symm
    · rw [List.any_cons, hbreaks]; exact (Bool.or_false _).symm
    · rw [startsOf, List.filterMap_cons, hstart]; rfl

/-- To enter a handler is to start it. -/
theorem headway_enter (hnext : t.upcoming? = some h) :
    Headway t [.started t.request.cursor] (t.enter h) := by
  obtain ⟨hrequest, hbroken⟩ :=
    request_note { t with request := { t.request with cursor := t.request.cursor + 1 } } h .started
  obtain ⟨hgoes, hat⟩ := upcoming?_eq_some hnext
  obtain ⟨hlt, -⟩ := List.getElem?_eq_some_iff.mp hat
  exact {
    chain := by rw [enter, hrequest]
    cursor := by rw [enter, hrequest]; rfl
    starts := rfl
    within := fun _ => by rw [enter, hrequest]; exact hlt
    aborted := by rw [enter, hrequest]; exact (Bool.or_false _).symm
    broken := by rw [enter, hbroken]; exact (Bool.or_false _).symm
    idle := fun hhalted => absurd hhalted (Bool.eq_false_iff.mp hgoes)
    after := List.pairwise_singleton _ _ }

/-- What an action does is headway. -/
theorem Effect.headway {i : Nat} (heffect : Effect i t events t') : Headway t events t' := by
  cases heffect with
  | plain => exact .of_no_start rfl rfl (Bool.or_false _).symm (Bool.or_false _).symm rfl
  | stopped => exact .of_no_start rfl rfl (Bool.or_true _).symm (Bool.or_false _).symm rfl
  | brokeDown => exact .of_no_start rfl rfl (Bool.or_false _).symm (Bool.or_true _).symm rfl

/-- A step that runs the rest of the chain. -/
theorem Headway.within_step (hsome : t.allow? h s = some u) (hrest : Headway u events t₁) :
    Headway t events (conclude h .next (.nothing, t₁)) := by
  have hway := ((headway_allow hsome).trans hrest).trans (headway_conclude h .next (.nothing, t₁))
  rwa [List.append_nil] at hway

/-- A step that does something else. -/
theorem headway_step (i : Nat) (hsome : t.allow? h s = some u) (hnext : s.1.action ≠ .next)
    (hreset : s.1.action ≠ .reset) :
    Headway t (eventsOf i s.1.action)
      (conclude h s.1.action (perform id s.1.action u)) := by
  have hway := ((headway_allow hsome).trans (effect_perform i u hnext hreset).headway).trans
    (headway_conclude h s.1.action (perform id s.1.action u))
  rwa [List.append_nil] at hway

/-! ## Runs -/

/-- **A handler that never starts the chain over.** -/
def NeverResets (h : Script) : Prop := ∀ s ∈ h.steps, s.action ≠ .reset

/-- None of the steps that are left starts the chain over. -/
def Work.NeverResets : Work → Prop
  | .chain => True
  | .steps _ _ left => ∀ s ∈ left, s.1.action ≠ .reset

/-- The steps of a handler that never starts the chain over do not either. -/
theorem NeverResets.steps (hreset : NeverResets h) (i : Nat) :
    (Work.steps i h h.steps.zipIdx).NeverResets :=
  fun _ hs => hreset _ (List.fst_mem_of_mem_zipIdx hs)

theorem neverResets_of_upcoming (hnext : t.upcoming? = some h)
    (hchain : ∀ g ∈ t.request.chain, NeverResets g) : NeverResets h :=
  hchain h (List.mem_of_getElem? (upcoming?_eq_some hnext).2)

/-- **What a run makes of a turn.** -/
theorem Runs.headway (hrun : Runs w t events t') (hwork : w.NeverResets)
    (hchain : ∀ g ∈ t.request.chain, NeverResets g) : Headway t events t' := by
  induction hrun with
  | rest | done => exact headway_of_same rfl rfl
  | @entry t t₁ t₂ h inner later hnext _ _ ihsteps ihlater =>
    have henter := headway_enter hnext
    have hreset := (neverResets_of_upcoming hnext hchain).steps t.request.cursor
    have hway := henter.trans (ihsteps hreset (henter.chain ▸ hchain))
    exact (hway.trans (headway_unlessBroken t₁ (.finished _) rfl rfl rfl)).trans
      (ihlater trivial (hway.chain ▸ hchain))
  | passed _ _ ihlater => exact ihlater (List.forall_mem_cons.mp hwork).2 hchain
  | @within t u t₁ t₂ i h s left inner later hsome _ _ _ ihrest ihlater =>
    have hinner := ihrest trivial ((headway_allow hsome).chain ▸ hchain)
    have hway := (hinner.trans (headway_unlessBroken t₁ (.resumed i) rfl rfl rfl)).within_step hsome
    exact hway.trans (ihlater (List.forall_mem_cons.mp hwork).2 (hway.chain ▸ hchain))
  | @performed t u t₁ i h s left later hsome hne _ ihlater =>
    obtain ⟨hs, hleft⟩ := List.forall_mem_cons.mp hwork
    have hway := headway_step i hsome hne hs
    exact hway.trans (ihlater hleft (hway.chain ▸ hchain))

/-! ## Every chain comes to an end -/

/-- At most so many entries are left, none of which starts the chain over. -/
structure Within (n : Nat) (t : Turn) : Prop where
  chain : ∀ h ∈ t.request.chain, NeverResets h
  left : t.request.chain.length ≤ t.request.cursor + n

/-- No more entries are left than before. -/
theorem Headway.keeps_within (hway : Headway t events t') {n : Nat} (hwithin : t.Within n) :
    t'.Within n where
  chain := hway.chain ▸ hwithin.chain
  left := by
    have hleft := hwithin.left
    have hcursor := hway.cursor
    rw [hway.chain]
    omega

/-- Steps come to an end if the rest of the chain does that they may run. -/
theorem exists_runs_steps {n : Nat}
    (hrest : ∀ u : Turn, u.Within n → ∃ events t', Runs .chain u events t') (i : Nat) (h : Script)
    (left : List (Step × Nat)) (hleft : ∀ s ∈ left, s.1.action ≠ .reset) {t : Turn}
    (hwithin : t.Within n) : ∃ events t', Runs (.steps i h left) t events t' := by
  induction left generalizing t with
  | nil => exact ⟨_, _, .done⟩
  | cons s left ih =>
    obtain ⟨hs, hleft⟩ := List.forall_mem_cons.mp hleft
    cases hsome : t.allow? h s with
    | none =>
      obtain ⟨events, t', hrun⟩ := ih hleft hwithin
      exact ⟨_, _, .passed hsome hrun⟩
    | some u =>
      have hu : u.Within n := (headway_allow hsome).keeps_within hwithin
      by_cases hnext : s.1.action = .next
      · obtain ⟨inner, t₁, hinner⟩ := hrest u hu
        have hway := (hinner.headway trivial hu.chain).within_step hsome
        obtain ⟨later, t₂, hlater⟩ := ih hleft (hway.keeps_within hwithin)
        exact ⟨_, _, .within hsome hnext hinner hlater⟩
      · have hway := headway_step i hsome hnext hs
        obtain ⟨later, t₁, hlater⟩ := ih hleft (hway.keeps_within hwithin)
        exact ⟨_, _, .performed hsome hnext hlater⟩

/-- **The rest of a chain comes to an end.** -/
theorem exists_runs {n : Nat} (hwithin : t.Within n) : ∃ events t', Runs .chain t events t' := by
  induction n generalizing t with
  | zero =>
    have hnone : t.request.chain[t.request.cursor]? = none := List.getElem?_eq_none hwithin.left
    exact ⟨_, _, .rest (by rw [upcoming?, hnone, ite_self])⟩
  | succ n ih =>
    cases hnext : t.upcoming? with
    | none => exact ⟨_, _, .rest hnext⟩
    | some h =>
      have henter := headway_enter hnext
      have hentered : (t.enter h).Within n :=
        { chain := henter.chain ▸ hwithin.chain
          left := by
            have hleft := hwithin.left
            rw [henter.chain, henter.cursor]
            show _ ≤ t.request.cursor + 1 + n
            omega }
      have hsteps := (neverResets_of_upcoming hnext hwithin.chain).steps t.request.cursor
      obtain ⟨inner, t₁, hinner⟩ := exists_runs_steps @ih _ h _ hsteps hentered
      have hway := hinner.headway hsteps hentered.chain
      obtain ⟨later, t₂, hlater⟩ := ih (hway.keeps_within hentered)
      exact ⟨_, _, .entry hnext hinner hlater⟩

end Turn

end Switchboard
