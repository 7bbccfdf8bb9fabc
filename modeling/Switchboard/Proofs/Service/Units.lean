import Switchboard.Proofs.Stream.Cut
import Switchboard.Proofs.Wire.Directive
import Switchboard.Service.Intake

/-!
# Proofs/Service/Units — frames that are dispatched together

What a frame announces is in the grammar of its header (`Announces`).  A unit is a well-formed frame
that announces no followers, or one that announces as many as follow it.  What an intake holds back
is the beginning of a unit (`Holding`); what ends it can never become one (`Stuck`).  One frame at a
time, an intake cuts the frames it is given into units (`cut_acceptAll`).
-/

namespace Switchboard

/-- The wire form of a block, with nothing after it. -/
def WellFormed (frame : Bytes) : Prop := ∃ b : Block, b.Fits ∧ frame = b.bytes

/-- Of frames, just the well-formed ones can be read. -/
theorem IsFrame.wellFormed_iff {max : Nat} {frame : Bytes} (h : IsFrame max frame) :
    WellFormed frame ↔ ∃ front, Block.trim frame = .ok front := by
  constructor
  · rintro ⟨b, hb, rfl⟩
    refine ⟨b.bytes, ?_⟩
    have := Block.trim_bytes_append hb []
    rwa [List.append_nil] at this
  · rintro ⟨front, hfront⟩
    cases hf : Block.fields frame with
    | error why =>
      rw [Block.trim, Block.fieldsOf, hf] at hfront
      cases hfront
    | ok f =>
      obtain ⟨b, rest, hb, rfl, -⟩ := Block.eq_bytes_append_of_fields hf
      obtain ⟨n, hn, -, -, hlen⟩ := h
      rw [Block.length?_bytes_append hb] at hn
      injection hn with hn
      rw [List.length_append, Block.length_bytes, hn] at hlen
      have hrest : rest = [] := List.length_eq_zero_iff.mp (by omega)
      exact ⟨b, hb, by rw [hrest, List.append_nil]⟩

namespace Intake

/-! ## What a frame announces -/

/-- **The frame announces `n` followers**: its header can be read, and the text under `Pipe` is a
directive for a positive count of 64 bits. -/
def Announces (frame : Bytes) (n : Nat) : Prop :=
  ∃ (b : Block) (h : Header) (text : String), b.Fits ∧ frame = b.bytes ∧
    Header.decode b.header = .ok h ∧ h.get? "Pipe" = some (.string text) ∧
    Header.Directs text n ∧ 1 ≤ n ∧ n ≤ 0xFFFF_FFFF_FFFF_FFFF

section

variable {b : Block} {frame : Bytes} {n m : Nat}

theorem followersOf_bytes_eq_some_iff (hb : b.Fits) :
    followersOf b.bytes = some n ↔ ∃ h, Header.decode b.header = .ok h ∧ h.followers? = some n := by
  have hheader := Block.headerOf_bytes_append hb []
  rw [List.append_nil] at hheader
  rw [followersOf, hheader]
  cases Header.decode b.header with
  | error e => exact ⟨nofun, fun ⟨_, hh, _⟩ => nomatch hh⟩
  | ok h => exact ⟨fun hn => ⟨h, rfl, hn⟩, fun ⟨_, hh, hn⟩ => Except.ok.inj hh ▸ hn⟩

/-- **An intake finds the followers that a frame announces**, of every frame that can be read. -/
theorem followersOf_eq_some_iff (hframe : WellFormed frame) :
    followersOf frame = some n ↔ Announces frame n := by
  obtain ⟨b, hb, rfl⟩ := hframe
  rw [followersOf_bytes_eq_some_iff hb]
  constructor
  · rintro ⟨h, hh, hn⟩
    obtain ⟨⟨hpos, hmax⟩, text, htext, hdirects⟩ := Header.followers?_eq_some_iff.mp hn
    exact ⟨b, h, text, hb, rfl, hh, htext, hdirects, hpos, hmax⟩
  · rintro ⟨c, h, text, hc, hbytes, hh, htext, hdirects, hpos, hmax⟩
    obtain ⟨rfl, -⟩ := Block.bytes_append_inj hb hc (congrArg (· ++ []) hbytes)
    exact ⟨h, hh, Header.followers?_eq_some_iff.mpr ⟨⟨hpos, hmax⟩, text, htext, hdirects⟩⟩

theorem followersOf_eq_none_iff (hframe : WellFormed frame) :
    followersOf frame = none ↔ ∀ n, ¬Announces frame n := by
  rw [Option.eq_none_iff_forall_ne_some]
  exact forall_congr' fun n => not_congr (followersOf_eq_some_iff hframe)

theorem Announces.wellFormed (h : Announces frame n) : WellFormed frame := by
  obtain ⟨b, -, -, hb, rfl, -⟩ := h
  exact ⟨b, hb, rfl⟩

theorem Announces.pos (h : Announces frame n) : 0 < n := by
  obtain ⟨-, -, -, -, -, -, -, -, hpos, -⟩ := h
  exact hpos

/-- A frame announces one count only. -/
theorem Announces.unique (h : Announces frame n) (h' : Announces frame m) : n = m := by
  have hn := (followersOf_eq_some_iff h.wellFormed).mpr h
  have hm := (followersOf_eq_some_iff h.wellFormed).mpr h'
  exact Option.some.inj (hn.symm.trans hm)

end

/-! ## Units -/

/-- **Frames that are dispatched together**: one that announces no followers, or a head within the
limit and as many followers as it announces.  What a follower announces does not count. -/
inductive IsUnit (limit : Nat) : List Bytes → Prop where
  /-- A frame outside any pipeline. -/
  | alone {frame : Bytes} (hframe : WellFormed frame) (hnone : ∀ n, ¬Announces frame n) :
      IsUnit limit [frame]
  /-- A pipeline. -/
  | pipeline {head : Bytes} {followers : List Bytes} (hhead : WellFormed head)
      (hcount : Announces head followers.length) (hlimit : followers.length ≤ limit)
      (hfollowers : ∀ f ∈ followers, WellFormed f) : IsUnit limit (head :: followers)

/-- **Frames that no unit starts**, whatever follows them. -/
inductive Stuck (limit : Nat) : List Bytes → Prop where
  /-- The first frame is not well-formed. -/
  | head {frame : Bytes} {rest : List Bytes} (hframe : ¬WellFormed frame) :
      Stuck limit (frame :: rest)
  /-- The first frame announces more followers than allowed. -/
  | tooMany {frame : Bytes} {rest : List Bytes} {n : Nat} (hcount : Announces frame n)
      (hlimit : limit < n) : Stuck limit (frame :: rest)
  /-- One of the followers is not well-formed. -/
  | follower {frame f : Bytes} {rest : List Bytes} {n : Nat} (hcount : Announces frame n)
      (hf : f ∈ rest.take n) (hbad : ¬WellFormed f) : Stuck limit (frame :: rest)

/-- **What an intake holds back** is a head that waits for followers, or nothing. -/
inductive Holding (limit : Nat) : Option Batch → List Bytes → Prop where
  /-- No pipeline is arriving. -/
  | nothing : Holding limit none []
  /-- Some followers of a pipeline are missing. -/
  | pipeline {head : Bytes} {followers : List Bytes} {missing : Nat} (hhead : WellFormed head)
      (hcount : Announces head (followers.length + missing))
      (hlimit : followers.length + missing ≤ limit) (hmissing : 0 < missing)
      (hfollowers : ∀ f ∈ followers, WellFormed f) :
      Holding limit (some ⟨head :: followers, missing⟩) (head :: followers)

section

variable {limit : Nat} {u v s t held : List Bytes} {batch : Option Batch}

theorem IsUnit.ne_nil (h : IsUnit limit u) : u ≠ [] := by
  rintro rfl
  cases h

/-- No unit starts another. -/
theorem IsUnit.prefix_free (hu : IsUnit limit u) (hv : IsUnit limit v) (h : u ++ s = v ++ t) :
    u = v := by
  cases hu with
  | alone hframe hnone =>
    cases hv with
    | alone _ _ =>
      injection h with h
      rw [h]
    | pipeline hhead hcount _ _ =>
      injection h with h
      exact absurd (h ▸ hcount) (hnone _)
  | pipeline hhead hcount _ _ =>
    cases hv with
    | alone _ hnone =>
      injection h with h
      exact absurd (h ▸ hcount) (hnone _)
    | pipeline _ hcount' _ _ =>
      injection h with h hrest
      rw [h] at hcount
      rw [h, List.append_inj_left hrest (hcount.unique hcount')]

/-- Frames that are stuck stay so, whatever arrives after them. -/
theorem Stuck.append (h : Stuck limit held) (s : List Bytes) : Stuck limit (held ++ s) := by
  cases h with
  | head hframe => exact .head hframe
  | tooMany hcount hlimit => exact .tooMany hcount hlimit
  | follower hcount hf hbad =>
    refine .follower hcount ?_ hbad
    rw [List.append_eq, List.take_append]
    exact List.mem_append_left _ hf

/-- No unit starts stuck frames. -/
theorem Stuck.not_unit (h : Stuck limit held) (hu : IsUnit limit u) : held ≠ u ++ s := by
  rintro rfl
  cases hu with
  | alone hframe hnone =>
    cases h with
    | head hbad => exact hbad hframe
    | tooMany hcount _ => exact hnone _ hcount
    | follower hcount _ _ => exact hnone _ hcount
  | pipeline hhead hcount hlimit hfollowers =>
    cases h with
    | head hbad => exact hbad hhead
    | tooMany hcount' hmany =>
      have hn := hcount.unique hcount'
      omega
    | follower hcount' hf hbad =>
      have hn := hcount.unique hcount'
      rw [← hn, List.append_eq, List.take_left] at hf
      exact hbad (hfollowers _ hf)

/-- No unit is held back. -/
theorem Holding.not_unit (h : Holding limit batch held) (hu : IsUnit limit u) : held ≠ u ++ s := by
  rintro rfl
  cases hu with
  | alone hframe hnone =>
    cases h with
    | pipeline _ hcount _ _ _ => exact hnone _ hcount
  | pipeline hhead hcount hlimit hfollowers =>
    cases h with
    | pipeline _ hcount' _ hmissing _ =>
      have hn := hcount.unique hcount'
      rw [List.append_eq, List.length_append] at hn
      omega

/-- What is held back is not stuck. -/
theorem Holding.not_stuck (h : Holding limit batch held) : ¬Stuck limit held := by
  intro hstuck
  cases h with
  | nothing => cases hstuck
  | pipeline hhead hcount hlimit _ hfollowers =>
    cases hstuck with
    | head hbad => exact hbad hhead
    | tooMany hcount' hmany =>
      have hn := hcount.unique hcount'
      omega
    | follower _ hf hbad => exact hbad (hfollowers _ (List.mem_of_mem_take hf))

/-! ## One frame after another -/

variable {i : Intake} {max : Nat} {frame : Bytes}

/-- An intake that holds back `held`. -/
structure Holds (limit : Nat) (i : Intake) (held : List Bytes) : Prop where
  within : i.maxFollowers = limit
  batch : Holding limit i.batch held

/-- What one more frame comes to: it is refused because there is no way on, or some units are
dispatched and the rest is held back. -/
inductive Accepted (limit : Nat) (frames : List Bytes) :
    Except WireError (List Bytes × Intake) → Prop where
  /-- The frames are stuck. -/
  | refused {e : WireError} (hstuck : Stuck limit frames) : Accepted limit frames (.error e)
  /-- The frames are units and the beginning of one. -/
  | dispatched {units : List (List Bytes)} {held : List Bytes} {i : Intake}
      (hcut : Cut (IsUnit limit) frames units held) (hholds : Holds limit i held) :
      Accepted limit frames (.ok (units.flatten, i))

/-- A frame that is not well-formed leaves no way on. -/
theorem Holding.stuck_append (h : Holding limit batch held) (hbad : ¬WellFormed frame) :
    Stuck limit (held ++ [frame]) := by
  cases h with
  | nothing => exact .head hbad
  | @pipeline head followers missing _ hcount _ hmissing _ =>
    have hall : (followers ++ [frame]).length ≤ followers.length + missing := by
      rw [List.length_append, List.length_singleton]
      omega
    refine .follower hcount ?_ hbad
    rw [List.append_eq, List.take_of_length_le hall]
    exact List.mem_append_right _ (List.mem_singleton_self frame)

/-- A frame outside any pipeline. -/
theorem accepted_lead (h : Holds limit i []) (hframe : WellFormed frame) :
    Accepted limit [frame] (i.lead frame) := by
  unfold lead
  cases hcount : followersOf frame with
  | none =>
    have halone : IsUnit limit [frame] :=
      .alone hframe ((followersOf_eq_none_iff hframe).mp hcount)
    exact .dispatched (.cons halone (.nil fun u s hu => Holding.nothing.not_unit hu)) h
  | some n =>
    replace hcount := (followersOf_eq_some_iff hframe).mp hcount
    dsimp only
    split
    · rename_i hmany
      exact .refused (.tooMany hcount (h.within ▸ hmany))
    · rename_i hfew
      have hholding : Holding limit (some ⟨[frame], n⟩) [frame] := by
        refine @Holding.pipeline limit frame [] n hframe ?_ ?_ hcount.pos ?_
        · rwa [List.length_nil, Nat.zero_add]
        · rw [List.length_nil, Nat.zero_add, ← h.within]
          exact Nat.le_of_not_lt hfew
        · exact fun f hf => absurd hf List.not_mem_nil
      exact .dispatched (.nil fun u s hu => hholding.not_unit hu) ⟨h.within, hholding⟩

/-- One more frame of a pipeline. -/
theorem accepted_join {b : Batch} (hlimit : i.maxFollowers = limit)
    (h : Holding limit (some b) held) (hframe : WellFormed frame) :
    Accepted limit (held ++ [frame]) (.ok (i.join b frame)) := by
  cases h with
  | @pipeline head followers missing hhead hcount hwithin hmissing hfollowers =>
    have hall : ∀ f ∈ followers ++ [frame], WellFormed f := by
      intro f hf
      rcases List.mem_append.mp hf with hf | hf
      · exact hfollowers f hf
      · rwa [List.mem_singleton.mp hf]
    have hlength : (followers ++ [frame]).length = followers.length + 1 := List.length_append
    unfold join
    split
    · -- the last follower
      rename_i hlast
      have hone : followers.length + missing = (followers ++ [frame]).length := by
        dsimp only at hlast
        omega
      rw [hone] at hcount hwithin
      have hcut : Cut (IsUnit limit) (head :: (followers ++ [frame]))
          [head :: (followers ++ [frame])] [] := by
        have hnone : Cut (IsUnit limit) [] [] [] := .nil fun u s hu => Holding.nothing.not_unit hu
        have := hnone.cons (.pipeline hhead hcount hwithin hall)
        rwa [List.append_nil] at this
      have := Accepted.dispatched hcut (i := { i with batch := none }) ⟨hlimit, .nothing⟩
      rwa [List.flatten_singleton] at this
    · rename_i hmore
      dsimp only at hmore ⊢
      have hsum : followers.length + missing = (followers ++ [frame]).length + (missing - 1) := by
        omega
      rw [hsum] at hcount hwithin
      have hholding : Holding limit (some ⟨head :: (followers ++ [frame]), missing - 1⟩)
          (head :: (followers ++ [frame])) := .pipeline hhead hcount hwithin (by omega) hall
      exact .dispatched (.nil fun u s hu => hholding.not_unit hu) ⟨hlimit, hholding⟩

/-- **One more frame** is refused or cut. -/
theorem accepted_accept (h : Holds limit i held) (hframe : IsFrame max frame) :
    Accepted limit (held ++ [frame]) (i.accept frame) := by
  obtain ⟨hlimit, hbatch⟩ := h
  unfold accept
  cases htrim : Block.trim frame with
  | error e =>
    refine .refused (hbatch.stuck_append fun hwell => ?_)
    obtain ⟨front, hfront⟩ := hframe.wellFormed_iff.mp hwell
    exact nomatch htrim.symm.trans hfront
  | ok front =>
    have hwell := hframe.wellFormed_iff.mpr ⟨front, htrim⟩
    cases hb : i.batch with
    | none =>
      rw [hb] at hbatch
      cases hbatch
      exact accepted_lead ⟨hlimit, hb ▸ .nothing⟩ hwell
    | some b =>
      rw [hb] at hbatch
      exact accepted_join hlimit hbatch hwell

/-- **Frames are cut into units** as they are accepted: what was dispatched is whole units, and what
is left is held back, or stuck if a frame was refused. -/
theorem cut_acceptAll {frames : List Bytes} (h : Holds limit i held)
    (hframes : ∀ f ∈ frames, IsFrame max f) :
    ∃ units held', Cut (IsUnit limit) (held ++ frames) units held' ∧
      (i.acceptAll frames).1 = units.flatten ∧
      match (i.acceptAll frames).2 with
      | .ok i' => Holds limit i' held'
      | .error _ => Stuck limit held' := by
  induction frames generalizing i held with
  | nil =>
    rw [List.append_nil]
    exact ⟨[], held, .nil fun u s hu => h.batch.not_unit hu, rfl, h⟩
  | cons frame rest ih =>
    obtain ⟨hframe, hrest⟩ := List.forall_mem_cons.mp hframes
    have hstep := accepted_accept h hframe
    rw [List.append_cons]
    unfold acceptAll
    cases hacc : i.accept frame with
    | error e =>
      rw [hacc] at hstep
      cases hstep with
      | refused hstuck =>
        have hstuck := hstuck.append rest
        exact ⟨[], _, .nil fun u s hu => hstuck.not_unit hu, rfl, hstuck⟩
    | ok r =>
      obtain ⟨now, i'⟩ := r
      rw [hacc] at hstep
      cases hstep with
      | @dispatched units held' _ hcut hholds =>
        obtain ⟨units', held'', hcut', hnow, hnext⟩ := ih hholds hrest
        refine ⟨units ++ units', held'', hcut.append hcut', ?_, hnext⟩
        rw [List.flatten_append, ← hnow]

end

end Intake

end Switchboard
