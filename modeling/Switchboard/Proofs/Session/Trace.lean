import Switchboard.Session.Run

/-!
# Proofs/Session/Trace — how a chain runs, and what happens to its entries

`Runs` says how a chain runs, without a budget: the next entry is started, its steps are taken one
after another, and then the entries after it follow; a step that runs the rest of the chain is a
run within.  Beside the turn it ends at, a run has the events of its entries.  There is at most one
run from a turn (`Runs.unique`), and `advance` ends where the run does if its budget is no less than
the number of entries that are started (`Runs.advance_eq`).

What any other action can do to a turn is said once (`Effect`).
-/

namespace Switchboard

namespace Turn

/-! ## Events -/

/-- What happens to an entry of a chain, which is given by its place. -/
inductive Event where
  /-- It is started. -/
  | started (i : Nat)
  /-- It goes on after it ran the rest of the chain. -/
  | resumed (i : Nat)
  /-- It stops the chain. -/
  | stopped (i : Nat)
  /-- It breaks down. -/
  | brokeDown (i : Nat)
  /-- It comes to its end. -/
  | finished (i : Nat)
deriving Repr, DecidableEq

namespace Event

/-- The entry that is started. -/
def start? : Event → Option Nat
  | started i => some i
  | _ => none

/-- Is the chain stopped? -/
def stops : Event → Bool
  | stopped _ => true
  | _ => false

/-- Does an entry break down? -/
def breaks : Event → Bool
  | brokeDown _ => true
  | _ => false

end Event

/-- **The entries that are started**, in order. -/
def startsOf (events : List Event) : List Nat := events.filterMap Event.start?

theorem startsOf_append (events more : List Event) :
    startsOf (events ++ more) = startsOf events ++ startsOf more := List.filterMap_append

theorem startsOf_started (i : Nat) (events : List Event) :
    startsOf (.started i :: events) = i :: startsOf events := rfl

/-- What happens to an entry as it performs an action. -/
def eventsOf (i : Nat) : Action → List Event
  | .abort => [.stopped i]
  | .breakDown => [.brokeDown i]
  | _ => []

theorem startsOf_eventsOf (i : Nat) (a : Action) : startsOf (eventsOf i a) = [] := by
  unfold eventsOf
  split <;> rfl

variable {t u : Turn} {h : Script} {s : Step × Nat} {rest rest' : Turn → Turn} {budget : Nat}

/-! ## The next entry -/

/-- Was the chain stopped, or did an entry break down? -/
def halted (t : Turn) : Bool := t.request.aborted || t.broken

/-- The entry that is started next. -/
def upcoming? (t : Turn) : Option Script :=
  if t.halted then none else t.request.chain[t.request.cursor]?

/-- The turn at which an entry takes its first step. -/
def enter (t : Turn) (h : Script) : Turn :=
  { t with request := { t.request with cursor := t.request.cursor + 1 } }.note h .started

theorem upcoming?_eq_some (hnext : t.upcoming? = some h) :
    t.halted = false ∧ t.request.chain[t.request.cursor]? = some h := by
  unfold upcoming? at hnext
  split at hnext
  · cases hnext
  · rename_i hgoes
    exact ⟨Bool.eq_false_iff.mpr hgoes, hnext⟩

theorem advance_of_none (hnone : t.upcoming? = none) : t.advance budget = t := by
  cases budget with
  | zero => rfl
  | succ budget =>
    unfold upcoming? halted at hnone
    unfold advance
    dsimp only
    split
    · rfl
    · rename_i hgoes
      rw [if_neg hgoes] at hnone
      rw [hnone]

theorem advance_of_some (hnext : t.upcoming? = some h) :
    t.advance (budget + 1) =
      (h.steps.zipIdx.foldl (step (advance budget) h) (t.enter h)).advance budget := by
  obtain ⟨hgoes, hat⟩ := upcoming?_eq_some hnext
  unfold halted at hgoes
  rw [advance]
  dsimp only
  rw [if_neg (Bool.eq_false_iff.mp hgoes), hat]
  rfl

/-! ## A step -/

/-- The turn at which the action of a step is performed, unless the step is passed over. -/
def allow? (t : Turn) (h : Script) (s : Step × Nat) : Option Turn :=
  if t.broken then none
  else
    match s.1.times with
    | none => some t
    | some k =>
      if t.usesOf (h.serial, s.2) < k then some (t.countUse (h.serial, s.2)) else none

/-- The turn after an action, which a handler that did not break down logs. -/
def conclude (h : Script) (a : Action) (r : Answer × Turn) : Turn :=
  if r.2.broken then r.2 else r.2.note h fun name => .did name a r.1

/-- At most the uses of a limited step are counted before its action. -/
theorem exists_of_allow (hsome : t.allow? h s = some u) :
    ∃ uses, u = { t with desk := { t.desk with uses := uses } } := by
  unfold allow? at hsome
  split at hsome
  · cases hsome
  · split at hsome
    · cases hsome
      exact ⟨t.desk.uses, rfl⟩
    · split at hsome
      · cases hsome
        exact ⟨_, rfl⟩
      · cases hsome

theorem step_of_none (hnone : t.allow? h s = none) : step rest h t s = t := by
  unfold allow? at hnone
  unfold step
  split at hnone
  · rename_i hbroken
    rw [if_pos hbroken]
  · rename_i hbroken
    rw [if_neg hbroken]
    split at hnone
    · cases hnone
    · rename_i k hk
      split at hnone
      · cases hnone
      · rename_i hlimit
        simp only [hk, decide_eq_false hlimit]
        rfl

theorem step_of_some (hsome : t.allow? h s = some u) :
    step rest h t s = conclude h s.1.action (perform rest s.1.action u) := by
  unfold allow? at hsome
  unfold step
  split at hsome
  · cases hsome
  · rename_i hbroken
    rw [if_neg hbroken]
    split at hsome
    · rename_i hk
      cases hsome
      simp only [hk]
      rfl
    · rename_i k hk
      split at hsome
      · rename_i hlimit
        cases hsome
        simp only [hk, decide_eq_true hlimit]
        rfl
      · cases hsome

/-- Only `next` runs the rest of the chain. -/
theorem perform_of_ne_next {a : Action} (hne : a ≠ .next) :
    perform rest a t = perform rest' a t := by
  cases a with
  | next => exact absurd rfl hne
  | _ => rfl

/-- **What an action does** that neither runs the rest of the chain nor starts it over. -/
inductive Effect (i : Nat) (t : Turn) : List Event → Turn → Prop where
  /-- It changes the hub and the values of the request. -/
  | plain (hub : Hub) (values : Store) :
      Effect i t [] { t.withHub hub with request := { t.request with values := values } }
  /-- It stops the chain. -/
  | stopped : Effect i t [.stopped i] { t with request := { t.request with aborted := true } }
  /-- It breaks down. -/
  | brokeDown : Effect i t [.brokeDown i] { t with broken := true }

theorem effect_trying (i : Nat) (t : Turn) (f : Hub → Except SessionError Unit × Hub) :
    Effect i t [] (t.trying f).2 := by
  unfold trying
  split <;> exact .plain _ _

theorem effect_viewing {α : Type} (i : Nat) (t : Turn) (r : Except WireError α) (f : α → Answer) :
    Effect i t [] (t.viewing r f).2 := by
  unfold viewing
  split <;> exact .plain _ _

theorem effect_perform (i : Nat) (t : Turn) {a : Action} (hnext : a ≠ .next) (hreset : a ≠ .reset) :
    Effect i t (eventsOf i a) (perform id a t).2 := by
  cases a with
  | next => exact absurd rfl hnext
  | reset => exact absurd rfl hreset
  | abort => exact .stopped
  | breakDown => exact .brokeDown
  | messageId | header | urlPattern | bind | bindWith => exact effect_viewing ..
  | reply | replyRaw | replyJson | replyUrl | fill => exact effect_trying ..
  | online | offline | sendToUser => exact effect_trying ..
  | sendBack =>
    unfold perform
    dsimp only
    split
    · exact .plain _ _
    · split
      · exact .plain _ _
      · exact effect_trying ..
  | upper =>
    unfold perform
    dsimp only
    split
    · exact .plain _ _
    · exact effect_trying ..
  | _ => exact .plain _ _

/-! ## Runs -/

/-- An event, unless an entry broke down. -/
def unlessBroken (t : Turn) (e : Event) : List Event := if t.broken then [] else [e]

/-- What is left to run. -/
inductive Work where
  /-- The rest of the chain. -/
  | chain
  /-- The steps an entry has left. -/
  | steps (i : Nat) (h : Script) (left : List (Step × Nat))

/-- **The run of what is left**, with what happens to the entries, from one turn to another. -/
inductive Runs : Work → Turn → List Event → Turn → Prop where
  /-- No entry is started. -/
  | rest {t : Turn} (hnone : t.upcoming? = none) : Runs .chain t [] t
  /-- An entry is started and comes to its end, and the entries after it follow. -/
  | entry {t t₁ t₂ : Turn} {h : Script} {inner later : List Event} (hnext : t.upcoming? = some h)
      (hsteps : Runs (.steps t.request.cursor h h.steps.zipIdx) (t.enter h) inner t₁)
      (hlater : Runs .chain t₁ later t₂) :
      Runs .chain t (.started t.request.cursor :: inner ++
        t₁.unlessBroken (.finished t.request.cursor) ++ later) t₂
  /-- The entry has no steps left. -/
  | done {t : Turn} {i : Nat} {h : Script} : Runs (.steps i h []) t [] t
  /-- A step is passed over. -/
  | passed {t t₁ : Turn} {i : Nat} {h : Script} {s : Step × Nat} {left : List (Step × Nat)}
      {later : List Event} (hnone : t.allow? h s = none)
      (hlater : Runs (.steps i h left) t later t₁) : Runs (.steps i h (s :: left)) t later t₁
  /-- A step runs the rest of the chain, and the entry goes on. -/
  | within {t u t₁ t₂ : Turn} {i : Nat} {h : Script} {s : Step × Nat} {left : List (Step × Nat)}
      {inner later : List Event} (hsome : t.allow? h s = some u) (hnext : s.1.action = .next)
      (hrest : Runs .chain u inner t₁)
      (hlater : Runs (.steps i h left) (conclude h .next (.nothing, t₁)) later t₂) :
      Runs (.steps i h (s :: left)) t (inner ++ t₁.unlessBroken (.resumed i) ++ later) t₂
  /-- A step does something else. -/
  | performed {t u t₁ : Turn} {i : Nat} {h : Script} {s : Step × Nat} {left : List (Step × Nat)}
      {later : List Event} (hsome : t.allow? h s = some u) (hne : s.1.action ≠ .next)
      (hlater : Runs (.steps i h left) (conclude h s.1.action (perform id s.1.action u)) later t₁) :
      Runs (.steps i h (s :: left)) t (eventsOf i s.1.action ++ later) t₁

/-- What is left is run with a budget. -/
def Work.run (budget : Nat) : Work → Turn → Turn
  | .chain => advance budget
  | .steps _ h left => left.foldl (step (advance budget) h)

namespace Runs

variable {w : Work} {t t' : Turn} {events : List Event}

/-- A budget that covers the entries that are started is never noticed. -/
theorem run_eq (hrun : Runs w t events t') {budget : Nat}
    (hbudget : (startsOf events).length ≤ budget) : w.run budget t = t' := by
  induction hrun generalizing budget with
  | rest hnone => exact advance_of_none hnone
  | @entry t t₁ t₂ h inner later hnext _ _ ihsteps ihlater =>
    have hlength : (startsOf inner).length + (startsOf later).length + 1 ≤ budget := by
      simp only [List.cons_append, startsOf_started, startsOf_append, List.length_cons,
        List.length_append] at hbudget
      omega
    obtain ⟨budget, rfl⟩ : ∃ b, budget = b + 1 := ⟨budget - 1, by omega⟩
    have hinner : h.steps.zipIdx.foldl (step (advance budget) h) (t.enter h) = t₁ :=
      ihsteps (by omega)
    show t.advance (budget + 1) = t₂
    rw [advance_of_some hnext, hinner]
    exact ihlater (by omega)
  | done => rfl
  | @passed t t₁ i h s left later hnone _ ihlater =>
    show left.foldl _ (step _ h t s) = t₁
    rw [step_of_none hnone]
    exact ihlater hbudget
  | @within t u t₁ t₂ i h s left inner later hsome hnext _ _ ihrest ihlater =>
    have hlength : (startsOf inner).length + (startsOf later).length ≤ budget := by
      rw [startsOf_append, startsOf_append, List.length_append, List.length_append] at hbudget
      omega
    have hinner : u.advance budget = t₁ := ihrest (by omega)
    show left.foldl _ (step _ h t s) = t₂
    rw [step_of_some hsome, hnext]
    show left.foldl _ (conclude h .next (.nothing, u.advance budget)) = t₂
    rw [hinner]
    exact ihlater (by omega)
  | @performed t u t₁ i h s left later hsome hne _ ihlater =>
    rw [startsOf_append, startsOf_eventsOf, List.nil_append] at hbudget
    show left.foldl _ (step _ h t s) = t₁
    rw [step_of_some hsome, perform_of_ne_next hne]
    exact ihlater hbudget

/-- **`advance` ends where the run does**, if its budget covers the entries that are started. -/
theorem advance_eq (hrun : Runs .chain t events t') {budget : Nat}
    (hbudget : (startsOf events).length ≤ budget) : t.advance budget = t' := hrun.run_eq hbudget

/-- **There is at most one run.** -/
theorem unique {more : List Event} {u : Turn} (hrun : Runs w t events t')
    (hother : Runs w t more u) :
    more = events ∧ u = t' := by
  -- how a run goes on is told by the turn, so the other run goes on alike
  induction hrun generalizing more u with
  | rest hnone =>
    cases hother with
    | rest => exact ⟨rfl, rfl⟩
    | entry hnext => rw [hnone] at hnext; cases hnext
  | entry hnext _ _ ihsteps ihlater =>
    cases hother with
    | rest hnone => rw [hnone] at hnext; cases hnext
    | entry hnext' hsteps hlater =>
      rw [hnext] at hnext'
      cases hnext'
      obtain ⟨rfl, rfl⟩ := ihsteps hsteps
      obtain ⟨rfl, rfl⟩ := ihlater hlater
      exact ⟨rfl, rfl⟩
  | done =>
    cases hother
    exact ⟨rfl, rfl⟩
  | passed hnone _ ihlater =>
    cases hother with
    | passed _ hlater => exact ihlater hlater
    | within hsome => rw [hnone] at hsome; cases hsome
    | performed hsome => rw [hnone] at hsome; cases hsome
  | within hsome hnext _ _ ihrest ihlater =>
    cases hother with
    | passed hnone => rw [hnone] at hsome; cases hsome
    | within hsome' _ hrest hlater =>
      rw [hsome] at hsome'
      cases hsome'
      obtain ⟨rfl, rfl⟩ := ihrest hrest
      obtain ⟨rfl, rfl⟩ := ihlater hlater
      exact ⟨rfl, rfl⟩
    | performed _ hne => exact absurd hnext hne
  | performed hsome hne _ ihlater =>
    cases hother with
    | passed hnone => rw [hnone] at hsome; cases hsome
    | within _ hnext => exact absurd hnext hne
    | performed hsome' _ hlater =>
      rw [hsome] at hsome'
      cases hsome'
      obtain ⟨rfl, rfl⟩ := ihlater hlater
      exact ⟨rfl, rfl⟩

end Runs

end Turn

end Switchboard
