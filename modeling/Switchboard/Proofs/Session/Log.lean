import Switchboard.Proofs.Session.Headway

/-!
# Proofs/Session/Log — the log tells the course of a chain

Handlers with a name log when they are started and what they did.  So the log says in order which of
them were started and which went on after they ran the rest of the chain: just the events of the run
(`Runs.tells`).
-/

namespace Switchboard

namespace Turn

variable {t t' u : Turn} {h : Script} {s : Step × Nat} {w : Work} {events : List Event}

/-- What a log tells of the course of a chain. -/
inductive Mark where
  /-- A handler of this name was started. -/
  | started (name : String)
  /-- A handler of this name went on after the rest of the chain. -/
  | resumed (name : String)
deriving Repr, DecidableEq

/-- What an entry of the log tells. -/
def Mark.ofEntry : Entry → Option Mark
  | .started name => some (.started name)
  | .did name .next _ => some (.resumed name)
  | .did .. => none

/-- What is told of an event, if the handler logs. -/
def Mark.ofEvent (chain : List Script) : Event → Option Mark
  | .started i => (chain[i]?.bind Script.name).map .started
  | .resumed i => (chain[i]?.bind Script.name).map .resumed
  | _ => none

/-- **What the log tells**, the oldest first. -/
def told (t : Turn) : List Mark := t.desk.log.reverse.filterMap Mark.ofEntry

/-- **The log tells the events** that lead from one turn to another. -/
def Tells (chain : List Script) (t : Turn) (events : List Event) (t' : Turn) : Prop :=
  t'.told = t.told ++ events.filterMap (Mark.ofEvent chain)

variable {chain : List Script} {t₁ t₂ : Turn} {later : List Event}

theorem Tells.trans (hfirst : Tells chain t events t₁) (hthen : Tells chain t₁ later t₂) :
    Tells chain t (events ++ later) t₂ := by
  unfold Tells at *
  rw [hthen, hfirst, List.append_assoc, List.filterMap_append]

/-- Events that are not told, and a log that tells nothing new. -/
theorem tells_of_same (htold : t'.told = t.told)
    (hevents : events.filterMap (Mark.ofEvent chain) = []) : Tells chain t events t' := by
  unfold Tells
  rw [htold, hevents, List.append_nil]

/-! ## One thing after another -/

theorem told_note (t : Turn) (h : Script) (entry : String → Entry) :
    (t.note h entry).told =
      t.told ++ (h.name.bind fun name => Mark.ofEntry (entry name)).toList := by
  unfold note
  cases h.name with
  | none => exact (List.append_nil _).symm
  | some name =>
    unfold told
    dsimp only
    rw [List.reverse_cons, List.filterMap_append, List.filterMap_cons, List.filterMap_nil,
      Option.bind_some]
    cases Mark.ofEntry (entry name) <;> rfl

/-- What a handler logs of an event is told of its place in the chain. -/
theorem tells_note {i : Nat} (hi : chain[i]? = some h) {e : Event} {mark : String → Mark}
    {entry : String → Entry} (hentry : ∀ name, Mark.ofEntry (entry name) = some (mark name))
    (he : Mark.ofEvent chain e = (chain[i]?.bind Script.name).map mark) :
    Tells chain t [e] (t.note h entry) := by
  unfold Tells
  rw [told_note, List.filterMap_cons, List.filterMap_nil, he, hi, Option.bind_some]
  cases h.name with
  | none => rfl
  | some name => rw [Option.bind_some, hentry]; rfl

theorem tells_allow (hsome : t.allow? h s = some u) : Tells chain t [] u := by
  obtain ⟨uses, rfl⟩ := exists_of_allow hsome
  exact tells_of_same rfl rfl

/-- Actions do not log by themselves. -/
theorem Effect.tells {i : Nat} (heffect : Effect i t events t') : Tells chain t events t' := by
  cases heffect <;> exact tells_of_same rfl rfl

/-- What is logged of an action tells nothing, unless it ran the rest of the chain. -/
theorem tells_conclude (h : Script) {a : Action} (hnext : a ≠ .next) (r : Answer × Turn) :
    Tells chain r.2 [] (conclude h a r) := by
  have hsilent (name : String) : Mark.ofEntry (.did name a r.1) = none := by
    cases a with
    | next => exact absurd rfl hnext
    | _ => rfl
  refine tells_of_same ?_ rfl
  unfold conclude
  split
  · rfl
  · rw [told_note]
    cases h.name with
    | none => exact List.append_nil _
    | some name => rw [Option.bind_some, hsilent]; exact List.append_nil _

theorem tells_step (i : Nat) (hsome : t.allow? h s = some u) (hnext : s.1.action ≠ .next)
    (hreset : s.1.action ≠ .reset) :
    Tells chain t (eventsOf i s.1.action)
      (conclude h s.1.action (perform id s.1.action u)) := by
  have hperform : Tells chain u _ _ := (effect_perform i u hnext hreset).tells
  have hdone := ((tells_allow hsome).trans hperform).trans (tells_conclude h hnext _)
  rwa [List.append_nil] at hdone

/-! ## Runs -/

/-- The steps that are left are those of an entry of the chain. -/
def Work.IsOf (chain : List Script) : Work → Prop
  | .chain => True
  | .steps i h _ => chain[i]? = some h

/-- **The log tells which handlers a run starts and which go on.** -/
theorem Runs.tells (hrun : Runs w t events t') (hwork : w.NeverResets)
    (hchain : ∀ g ∈ t.request.chain, NeverResets g) (hof : w.IsOf t.request.chain) :
    Tells t.request.chain t events t' := by
  -- the chain stays the same, so what a part of the run tells is told of the same entries
  induction hrun with
  | rest | done => exact tells_of_same rfl rfl
  | @entry t t₁ t₂ h inner later hnext hsteps _ ihsteps ihlater =>
    have henter := headway_enter hnext
    have hentered : ∀ g ∈ (t.enter h).request.chain, NeverResets g := henter.chain ▸ hchain
    have hreset := (neverResets_of_upcoming hnext hchain).steps t.request.cursor
    have hway := henter.trans (hsteps.headway hreset hentered)
    obtain ⟨-, hat⟩ := upcoming?_eq_some hnext
    have hstart : Tells t.request.chain t [.started t.request.cursor] (t.enter h) :=
      tells_note hat (fun _ => rfl) rfl
    have hinner := ihsteps hreset hentered (henter.chain ▸ hat)
    have hfinish :
        Tells t.request.chain t₁ (t₁.unlessBroken (.finished t.request.cursor)) t₁ := by
      refine tells_of_same rfl ?_
      unfold unlessBroken
      split <;> rfl
    have hlater := ihlater trivial (hway.chain ▸ hchain) trivial
    rw [henter.chain] at hinner
    rw [hway.chain] at hlater
    exact ((hstart.trans hinner).trans hfinish).trans hlater
  | passed _ _ ihlater => exact ihlater (List.forall_mem_cons.mp hwork).2 hchain hof
  | @within t u t₁ t₂ i h s left inner later hsome hnext hrest hlater ihrest ihlater =>
    have hallow := headway_allow hsome
    have hallowed : ∀ g ∈ u.request.chain, NeverResets g := hallow.chain ▸ hchain
    have hway := (hrest.headway trivial hallowed).within_step hsome
    have hinner := ihrest trivial hallowed trivial
    have hback : Tells t.request.chain t₁ (t₁.unlessBroken (.resumed i))
        (conclude h .next (.nothing, t₁)) := by
      unfold unlessBroken conclude
      split
      · exact tells_of_same rfl rfl
      · exact tells_note hof (fun _ => rfl) rfl
    have hlater := ihlater (List.forall_mem_cons.mp hwork).2 (hway.chain ▸ hchain)
      (hway.chain ▸ hof)
    rw [hallow.chain] at hinner
    rw [hway.chain] at hlater
    exact (((tells_allow hsome).trans hinner).trans hback).trans hlater
  | @performed t u t₁ i h s left later hsome hne _ ihlater =>
    obtain ⟨hs, hleft⟩ := List.forall_mem_cons.mp hwork
    have hway := headway_step i hsome hne hs
    have hlater := ihlater hleft (hway.chain ▸ hchain) (hway.chain ▸ hof)
    rw [hway.chain] at hlater
    exact (tells_step i hsome hne hs).trans hlater

end Turn

end Switchboard
