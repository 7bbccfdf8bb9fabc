import Switchboard.Proofs.Service.Units

/-!
# Proofs/Service/Reading — a stream as units

Every octet sequence is units, then frames that no unit starts, then octets that no frame starts
(`Reading`), in one way only.  More octets only extend the units, and once the octets are dead
nothing that arrives brings a further unit (`Reading.dead_append`).  An intake reads its stream this
way whatever pieces it is fed in (`Intake.Follows.feed`).
-/

namespace Switchboard

/-- The octets received are the frames of the units, the frames that are held back, and a tail. -/
structure Reading (maxFrame limit : Nat) (received : Bytes) (units : List (List Bytes))
    (held : List Bytes) (tail : Bytes) : Prop where
  frames : Cut (IsFrame maxFrame) received (units.flatten ++ held) tail
  units : Cut (Intake.IsUnit limit) (units.flatten ++ held) units held

/-- No further unit can come of it: the next length is bad, or the frames held back are stuck. -/
def Dead (maxFrame limit : Nat) (held : List Bytes) (tail : Bytes) : Prop :=
  BadLength maxFrame tail ∨ Intake.Stuck limit held

namespace Reading

variable {maxFrame limit : Nat} {received bs tail tail' : Bytes}
  {units units' : List (List Bytes)} {held held' frames : List Bytes}

/-- Nothing was received yet. -/
theorem nil : Reading maxFrame limit [] [] [] [] where
  frames := .nil fun _ _ hf h => hf.ne_nil (List.append_eq_nil_iff.mp h.symm).1
  units := .nil fun _ _ hu h => hu.ne_nil (List.append_eq_nil_iff.mp h.symm).1

/-- **A stream is read in one way.** -/
theorem unique (h : Reading maxFrame limit received units held tail)
    (h' : Reading maxFrame limit received units' held' tail') :
    units' = units ∧ held' = held ∧ tail' = tail := by
  obtain ⟨hframes, htail⟩ :=
    Cut.unique (fun _ _ _ _ hp hq => hp.prefix_free hq) h'.frames h.frames
  have hunits := h'.units
  rw [hframes] at hunits
  obtain ⟨rfl, rfl⟩ := Cut.unique (fun _ _ _ _ hp hq => hp.prefix_free hq) hunits h.units
  exact ⟨rfl, rfl, htail⟩

/-- More octets: what is left over goes in front of them, and so do the frames held back. -/
theorem append (h : Reading maxFrame limit received units held tail)
    (hframes : Cut (IsFrame maxFrame) (tail ++ bs) frames tail')
    (hunits : Cut (Intake.IsUnit limit) (held ++ frames) units' held') :
    Reading maxFrame limit (received ++ bs) (units ++ units') held' tail' := by
  have hall : units.flatten ++ held ++ frames = (units ++ units').flatten ++ held' := by
    rw [List.append_assoc, hunits.eq, List.flatten_append, List.append_assoc]
  constructor
  · rw [← hall]
    exact h.frames.append hframes
  · rw [← hall]
    exact h.units.append hunits

/-- The frames of one unit are read as that unit. -/
theorem unit {u : List Bytes} (hunit : Intake.IsUnit limit u)
    (hframes : ∀ f ∈ u, IsFrame maxFrame f) : Reading maxFrame limit u.flatten [u] [] [] where
  frames := by
    rw [List.flatten_singleton, List.append_nil]
    exact .flatten (fun _ hf => hf.ne_nil) hframes
  units := by
    rw [List.append_nil]
    exact .flatten (fun _ hu => hu.ne_nil) (List.forall_mem_singleton.mpr hunit)

/-- **After whole units a stream goes on as a fresh one.** -/
theorem append_fresh (h : Reading maxFrame limit received units [] [])
    (h' : Reading maxFrame limit bs units' held tail) :
    Reading maxFrame limit (received ++ bs) (units ++ units') held tail :=
  h.append h'.frames h'.units

/-- Every octet sequence can be cut into frames. -/
theorem exists_frames (maxFrame : Nat) (bs : Bytes) :
    ∃ frames tail, Cut (IsFrame maxFrame) bs frames tail :=
  Cut.exists_cut (fun _ hf => hf.ne_nil) bs

/-- Every sequence of frames can be cut into units. -/
theorem exists_units (limit : Nat) (frames : List Bytes) :
    ∃ units held, Cut (Intake.IsUnit limit) frames units held :=
  Cut.exists_cut (fun _ hu => hu.ne_nil) frames

/-- **More octets only extend the units.** -/
theorem extend (h : Reading maxFrame limit received units held tail) (bs : Bytes) :
    ∃ units' held' tail',
      Reading maxFrame limit (received ++ bs) (units ++ units') held' tail' := by
  obtain ⟨frames, tail', hframes⟩ := exists_frames maxFrame (tail ++ bs)
  obtain ⟨units', held', hunits⟩ := exists_units limit (held ++ frames)
  exact ⟨units', held', tail', h.append hframes hunits⟩

/-- **Nothing comes of dead octets any more.** -/
theorem dead_append (h : Reading maxFrame limit received units held tail)
    (hdead : Dead maxFrame limit held tail) (bs : Bytes) :
    ∃ held' tail', Reading maxFrame limit (received ++ bs) units held' tail' ∧
      Dead maxFrame limit held' tail' := by
  rcases hdead with hbad | hstuck
  · have hframes : Cut (IsFrame maxFrame) (tail ++ bs) [] (tail ++ bs) :=
      .nil fun f s hf => (hbad.append bs).not_frame hf
    have hunits : Cut (Intake.IsUnit limit) (held ++ []) [] held := by
      rw [List.append_nil]
      exact .nil h.units.maximal
    have hread := h.append hframes hunits
    rw [List.append_nil] at hread
    exact ⟨held, tail ++ bs, hread, .inl (hbad.append bs)⟩
  · obtain ⟨frames, tail', hframes⟩ := exists_frames maxFrame (tail ++ bs)
    have hstuck' := hstuck.append frames
    have hread := h.append hframes (.nil fun u s hu => hstuck'.not_unit hu)
    rw [List.append_nil] at hread
    exact ⟨held ++ frames, tail', hread, .inr hstuck'⟩

end Reading

namespace Intake

variable {maxFrame limit : Nat} {i i' : Intake} {received bs : Bytes} {units : List (List Bytes)}

/-- **The intake has read `received`** and dispatched its units; it keeps the rest. -/
structure Follows (maxFrame limit : Nat) (i : Intake) (received : Bytes)
    (units : List (List Bytes)) : Prop where
  max : i.splitter.max = maxFrame
  good : ¬BadLength maxFrame i.splitter.buffer
  keeps : ∃ held, Reading maxFrame limit received units held i.splitter.buffer ∧ Holds limit i held

/-- What an intake keeps is not dead. -/
theorem Follows.not_dead (h : Follows maxFrame limit i received units) {held : List Bytes}
    {tail : Bytes} (hread : Reading maxFrame limit received units held tail) :
    ¬Dead maxFrame limit held tail := by
  obtain ⟨-, hgood, held', hread', hholds⟩ := h
  obtain ⟨-, rfl, rfl⟩ := hread'.unique hread
  rintro (hbad | hstuck)
  · exact hgood hbad
  · exact hholds.batch.not_stuck hstuck

/-- An intake to which nothing has arrived. -/
theorem follows_start (maxFrame limit : Nat) :
    Follows maxFrame limit (start maxFrame limit) [] [] := by
  refine ⟨rfl, ?_, [], .nil, rfl, .nothing⟩
  rintro ⟨n, hn, -⟩
  cases hn

/-- **What a piece comes to**: the units that it completes are dispatched, and the intake ends
exactly where the octets are dead. -/
theorem Follows.feed (h : Follows maxFrame limit i received units) (bs : Bytes) :
    ∃ units', (i.feed bs).1 = units'.flatten ∧
      match (i.feed bs).2 with
      | .ok i' => Follows maxFrame limit i' (received ++ bs) (units ++ units')
      | .error _ => ∃ held tail,
          Reading maxFrame limit (received ++ bs) (units ++ units') held tail ∧
            Dead maxFrame limit held tail := by
  obtain ⟨rfl, -, held, hread, hholds⟩ := h
  obtain ⟨hcut, hmax, hfault⟩ := (i.splitter.feed bs).cut_drain
  have hframes : ∀ f ∈ (i.splitter.feed bs).drain.1, IsFrame i.splitter.max f := hcut.whole
  obtain ⟨units', held', hunits, hnow, hnext⟩ := cut_acceptAll hholds hframes
  have hread' := hread.append hcut hunits
  refine ⟨units', hnow, ?_⟩
  unfold Intake.feed
  generalize (i.splitter.feed bs).drain = r at *
  obtain ⟨frames, fault, splitter⟩ := r
  dsimp only at *
  generalize i.acceptAll frames = a at *
  obtain ⟨now, next⟩ := a
  dsimp only at *
  cases next with
  | error e => exact ⟨held', _, hread', .inr hnext⟩
  | ok i' =>
    cases fault with
    | some e =>
      have hbad : BadLength i.splitter.max splitter.buffer :=
        Classical.not_not.mp fun hgood => nomatch hfault.mpr hgood
      exact ⟨held', _, hread', .inl hbad⟩
    | none => exact ⟨hmax, hfault.mp rfl, held', hread', hnext.within, hnext.batch⟩

end Intake

end Switchboard
