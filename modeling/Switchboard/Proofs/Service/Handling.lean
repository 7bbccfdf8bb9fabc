import Switchboard.Proofs.Session.Places
import Switchboard.Service.Outlet

/-!
# Proofs/Service/Handling — what a step of an outlet does with replies

Whatever an outlet is doing, a step takes one reply into its hands, refuses one that is too long,
passes octets on to the stream, turns to what comes next, or gives up (`Outlet.Handles`,
`handles_step`).  All that is told later of outlets follows from these five cases.  There is a step
as long as the outlet has not ended, if its connection is closed and the stream has room
(`isSome_step`).
-/

namespace Switchboard

/-- Writing leaves no more than there was. -/
theorem Socket.length_writeUpTo_le (budget : Nat) (bs : Bytes) (s : Socket) :
    (writeUpTo budget bs s).1.length ≤ bs.length := by
  induction budget generalizing bs s with
  | zero => exact Nat.le_refl _
  | succ budget ih =>
    unfold writeUpTo
    split
    · exact Nat.le_refl _
    · exact Nat.le_trans (ih _ _) (List.length_drop ▸ Nat.sub_le ..)

/-- A write never leaves more than it was given. -/
theorem Socket.length_write_le (bs : Bytes) (s : Socket) : (s.write bs).1.length ≤ bs.length :=
  length_writeUpTo_le _ bs s

/-- Writing gets on while there is room. -/
theorem Socket.length_write_lt {bs : Bytes} {s : Socket} (hbs : bs ≠ [])
    (hroom : s.waiting < room) :
    (s.write bs).1.length < bs.length := by
  have hpos := List.length_pos_iff.mpr hbs
  rw [write, writeUpTo, if_neg (not_or.mpr ⟨hbs, Nat.not_le.mpr hroom⟩)]
  refine Nat.lt_of_le_of_lt (length_writeUpTo_le _ _ _) ?_
  rw [List.length_drop]
  exact Nat.sub_lt hpos (by decide)

/-- Whether the peer is gone is not changed by a write. -/
theorem Socket.peerGone_write (bs : Bytes) (s : Socket) : (s.write bs).2.peerGone = s.peerGone := by
  unfold write
  generalize bs.length / piece + 1 = budget
  induction budget generalizing bs s with
  | zero => rfl
  | succ budget ih =>
    unfold writeUpTo
    split
    · rfl
    · exact ih _ _

namespace Outlet

/-! ## What an outlet is doing -/

/-- The octets in the outlet's hands. -/
def left (o : Outlet) : Bytes :=
  match o.phase with
  | .ready | .ended => []
  | .writing left _ | .gathering left _ | .flushing left _ | .ending left _ => left

/-- Does the outlet write replies one by one, as it does until it sees that the connection is
closed? -/
def isServing (o : Outlet) : Bool :=
  match o.phase with
  | .ready | .writing .. => true
  | _ => false

/-- Does the outlet take no more replies? -/
def isOver (o : Outlet) : Bool :=
  match o.phase with
  | .ending .. | .ended => true
  | _ => false

theorem isServing_of_isOver {o : Outlet} (h : o.isOver = true) : o.isServing = false := by
  unfold isOver at h
  unfold isServing
  split at h <;> simp_all

/-- When the outlet gives up, once the time it has left is counted. -/
def deadline? (o : Outlet) : Option Nat :=
  match o.phase with
  | .ready | .ended => none
  | .writing _ until? => until?
  | .gathering _ t | .flushing _ t | .ending _ t => some t

/-- Has the outlet any time left? -/
def HasTime (o : Outlet) (now : Nat) : Prop := ∀ t ∈ o.deadline?, now < t

instance (o : Outlet) (now : Nat) : Decidable (o.HasTime now) :=
  inferInstanceAs (Decidable (∀ t ∈ o.deadline?, now < t))

/-- Who has time is not due. -/
theorem HasTime.isDue {o : Outlet} {now : Nat} (h : o.HasTime now) : o.isDue now = false := by
  unfold Outlet.isDue
  split
  case h_4 => rfl
  all_goals
    rename_i t hphase
    exact decide_eq_false (Nat.not_le.mpr (h t (by simp [deadline?, hphase])))

/-- How far the outlet is from its end, as long as it takes no reply and writes nothing. -/
def rank (o : Outlet) : Nat :=
  match o.phase with
  | .ended => 0
  | .ending .. => 1
  | .gathering held _ => if held = [] then 2 else 4
  | .flushing .. => 3
  | .ready => 5
  | .writing _ (some _) => 6
  | .writing _ none => 7

theorem rank_lt (o : Outlet) : o.rank < 8 := by
  unfold rank
  split <;> try split
  all_goals decide

/-- How far the outlet is from its end when these blocks are queued.  A block or an octet counts for
more than any change of `rank`. -/
def distance (o : Outlet) (queued : List Bytes) : Nat :=
  8 * (o.left.length + queued.flatten.length + queued.length) + o.rank

/-- The outlet is nearer to its end than before. -/
def Nearer (o o' : Outlet) : Prop :=
  o'.left.length < o.left.length ∨ o'.left.length = o.left.length ∧ o'.rank < o.rank

/-- **What a step of an outlet can do.** -/
inductive Handles (now : Nat) (place : Place) (o : Outlet) (c : Channel) (o' : Outlet)
    (c' : Channel) : Prop where
  /-- It takes the oldest reply into its hands. -/
  | takes (reply : Reply) (taken : c.hub.takeReply place = some (reply, c'.hub))
      (socket : c'.socket = c.socket) (left : o'.left = o.left ++ reply.block)
      (serving : o'.isServing = o.isServing) (idle : o'.isOver = false)
  /-- It refuses the oldest reply, which is too long. -/
  | refuses (reply : Reply) (hub : Hub) (taken : c.hub.takeReply place = some (reply, hub))
      (long : o.maxFrame < Sink.lengthOf reply.block)
      (hub' : c'.hub = hub.close place ∨ c'.hub = hub ∧ o.isServing = false)
  /-- It passes octets on, or finds that it has to hurry. -/
  | writes (hub : c'.hub = c.hub)
      (bytes : c'.socket.sent ++ o'.left = c.socket.sent ++ o.left)
      (serving : o'.isServing = o.isServing) (idle : o'.isOver = o.isOver) (nearer : Nearer o o')
  /-- It turns to what comes next; it takes no more only if nothing is queued. -/
  | turns (same : c' = c) (left : o'.left = o.left)
      (serving : o'.isServing = o.isServing ∨ (c.hub.connection place).closed = true)
      (idle : o'.isOver = true → (c.hub.queueOf place).replies = []) (nearer : o'.rank < o.rank)
  /-- It gives up, because the peer is gone or does not read in time. -/
  | givesUp (why : c.socket.peerGone = true ∨
        o.isDue now = true ∧ (c.socket.write o.left).1 ≠ [])
      (hub : c'.hub = c.hub.close place ∨
        c'.hub = c.hub ∧ ((c.hub.connection place).closed = true ∨ o.isServing = false))

/-! ## Each kind of step -/

variable {o o' : Outlet} {m now : Nat} {place : Place} {c c' : Channel} {bs : Bytes} {t : Nat}

/-- An outlet that has written everything is nearer to its end. -/
theorem nearer_of_left_nil (h : o'.left = []) (hrank : o'.rank < o.rank) : Nearer o o' := by
  rw [Nearer, h]
  rcases Nat.eq_zero_or_pos o.left.length with hnil | hpos
  · exact .inr ⟨hnil.symm, hrank⟩
  · exact .inl hpos

theorem handles_stepClosed (h : stepClosed ⟨m, .ready⟩ now place c = some (o', c')) :
    Handles now place ⟨m, .ready⟩ c o' c' := by
  unfold stepClosed at h
  split at h
  · rename_i hclosed
    cases h
    exact .turns rfl rfl (.inr hclosed) nofun (by simp [rank])
  · cases h

theorem handles_stepReady (h : stepReady ⟨m, .ready⟩ now place c = some (o', c')) :
    Handles now place ⟨m, .ready⟩ c o' c' := by
  unfold stepReady at h
  split at h
  · rename_i reply hub htaken
    split at h
    · rename_i hlong
      cases h
      exact .refuses reply hub htaken hlong (.inl rfl)
    · cases h
      exact .takes reply htaken rfl rfl rfl rfl
  · exact handles_stepClosed h

theorem handles_stepWriting {until? : Option Nat}
    (h : stepWriting ⟨m, .writing bs until?⟩ now place c bs until? = some (o', c')) :
    Handles now place ⟨m, .writing bs until?⟩ c o' c' := by
  have hsent := c.socket.sent_write bs
  have hlength := c.socket.length_write_le bs
  unfold stepWriting at h
  split at h
  · rename_i hgone
    cases h
    exact .givesUp (.inl hgone) (.inl rfl)
  dsimp only at h
  split at h
  · rename_i hrest
    cases h
    rw [hrest] at hsent
    refine .writes rfl hsent rfl rfl (nearer_of_left_nil rfl ?_)
    cases until? <;> simp [rank]
  rename_i hrest
  split at h
  · -- the connection was closed: the time it has left is counted from now on
    rename_i hhurry
    cases h
    obtain ⟨-, rfl⟩ := Bool.and_eq_true_iff.mp hhurry |>.imp_right of_decide_eq_true
    refine .writes rfl hsent rfl rfl ?_
    rcases Nat.lt_or_eq_of_le hlength with hless | heq
    · exact .inl hless
    · exact .inr ⟨heq, by simp [rank]⟩
  split at h
  · rename_i hdue
    cases h
    obtain ⟨hclosed, hdue⟩ := Bool.and_eq_true_iff.mp hdue
    refine .givesUp (.inr ⟨?_, hrest⟩) (.inr ⟨rfl, .inl hclosed⟩)
    cases until? with
    | none => cases hdue
    | some t => exact hdue
  split at h
  · cases h
  · rename_i hne
    cases h
    exact .writes rfl hsent rfl rfl (.inl (Nat.lt_of_le_of_ne hlength hne))

theorem handles_stepGathering
    (h : stepGathering ⟨m, .gathering bs t⟩ now place c bs t = some (o', c')) :
    Handles now place ⟨m, .gathering bs t⟩ c o' c' := by
  unfold stepGathering at h
  split at h
  · rename_i reply hub htaken
    have htaken : c.hub.takeReply place = some (reply, hub) := by
      split at htaken
      · exact htaken
      · cases htaken
    split at h
    · rename_i hlong
      cases h
      exact .refuses reply hub htaken hlong (.inr ⟨rfl, rfl⟩)
    · cases h
      exact .takes reply htaken rfl rfl rfl rfl
  · rename_i hnone
    split at h
    · -- with nothing in hand there is always room for one more, so nothing is queued
      rename_i hnil
      subst hnil
      cases h
      exact .turns rfl rfl (.inl rfl) (fun _ => Hub.takeReply_eq_none_iff.mp hnone)
        (by simp [rank, beginEnd])
    · rename_i hheld
      cases h
      refine .turns rfl rfl (.inl rfl) nofun ?_
      simp [rank, hheld]

theorem handles_stepFlushing
    (h : stepFlushing ⟨m, .flushing bs t⟩ now c bs t = some (o', c')) :
    Handles now place ⟨m, .flushing bs t⟩ c o' c' := by
  have hsent := c.socket.sent_write bs
  have hlength := c.socket.length_write_le bs
  unfold stepFlushing at h
  split at h
  · rename_i hgone
    cases h
    exact .givesUp (.inl hgone) (.inr ⟨rfl, .inr rfl⟩)
  dsimp only at h
  split at h
  · rename_i hrest
    cases h
    rw [hrest] at hsent
    exact .writes rfl hsent rfl rfl (nearer_of_left_nil rfl (by simp [rank]))
  rename_i hrest
  split at h
  · rename_i hdue
    cases h
    exact .givesUp (.inr ⟨decide_eq_true hdue, hrest⟩) (.inr ⟨rfl, .inr rfl⟩)
  split at h
  · cases h
  · rename_i hne
    cases h
    exact .writes rfl hsent rfl rfl (.inl (Nat.lt_of_le_of_ne hlength hne))

theorem handles_stepEnding
    (h : stepEnding ⟨m, .ending bs t⟩ now c bs t = some (o', c')) :
    Handles now place ⟨m, .ending bs t⟩ c o' c' := by
  have hsent := c.socket.sent_write bs
  have hlength := c.socket.length_write_le bs
  unfold stepEnding at h
  split at h
  · rename_i hgone
    cases h
    exact .givesUp (.inl hgone) (.inr ⟨rfl, .inr rfl⟩)
  dsimp only at h
  split at h
  · rename_i hrest
    cases h
    rw [hrest] at hsent
    exact .writes rfl hsent rfl rfl (nearer_of_left_nil rfl (by simp [rank]))
  rename_i hrest
  split at h
  · rename_i hdue
    cases h
    exact .givesUp (.inr ⟨decide_eq_true hdue, hrest⟩) (.inr ⟨rfl, .inr rfl⟩)
  split at h
  · cases h
  · rename_i hne
    cases h
    exact .writes rfl hsent rfl rfl (.inl (Nat.lt_of_le_of_ne hlength hne))

/-- **Every step is one of these.** -/
theorem handles_step (h : o.step now place c = some (o', c')) : Handles now place o c o' c' := by
  obtain ⟨m, phase⟩ := o
  cases phase with
  | ready => exact handles_stepReady h
  | writing left until? => exact handles_stepWriting h
  | gathering held t => exact handles_stepGathering h
  | flushing left t => exact handles_stepFlushing h
  | ending left t => exact handles_stepEnding h
  | ended => cases h

/-- A step of an outlet that was ready and found nothing queued, and that looks only now whether the
connection is closed. -/
def look (o : Outlet) (now : Nat) (place : Place) (c : Channel) : Option (Outlet × Channel) :=
  match o.phase with
  | .ready => o.stepClosed now place c
  | _ => none

/-- A look that finds the connection closed is one of the things that can happen. -/
theorem handles_look (h : o.look now place c = some (o', c')) : Handles now place o c o' c' := by
  obtain ⟨m, phase⟩ := o
  cases phase with
  | ready => exact handles_stepClosed h
  | writing left until? | gathering held t | flushing left t | ending left t | ended => cases h

/-- The limit on lengths never changes. -/
theorem maxFrame_step (h : o.step now place c = some (o', c')) : o'.maxFrame = o.maxFrame := by
  unfold step stepReady stepClosed stepWriting stepGathering stepFlushing stepEnding at h
  grind [beginEnd]

theorem maxFrame_look (h : o.look now place c = some (o', c')) : o'.maxFrame = o.maxFrame := by
  unfold look stepClosed at h
  grind

/-- A step does not use up time. -/
theorem HasTime.step (ho : o.HasTime now) (h : o.step now place c = some (o', c')) :
    o'.HasTime now := by
  unfold HasTime deadline? at *
  unfold Outlet.step stepReady stepClosed stepWriting stepGathering stepFlushing stepEnding at h
  grind [beginEnd, patience]

/-- A step neither loses the peer nor finds it again. -/
theorem peerGone_step (h : o.step now place c = some (o', c')) :
    c'.socket.peerGone = c.socket.peerGone := by
  unfold step stepReady stepClosed stepWriting stepGathering stepFlushing stepEnding at h
  have hwrite : ∀ bs, (c.socket.write bs).2.peerGone = c.socket.peerGone :=
    fun bs => Socket.peerGone_write bs c.socket
  grind

/-! ## There is a step -/

/-- **An outlet of a closed connection has something to do until it has ended**, as long as there is
room in the stream. -/
theorem isSome_step (now : Nat) (hclosed : (c.hub.connection place).closed = true)
    (hroom : c.socket.waiting < Socket.room) (ho : o.phase ≠ .ended) :
    (o.step now place c).isSome = true := by
  obtain ⟨m, phase⟩ := o
  -- as long as there is room, writing gets on
  have hgetsOn : ∀ bs, (c.socket.write bs).1 ≠ [] → (c.socket.write bs).1.length ≠ bs.length := by
    intro bs hrest hsame
    have hbs : bs ≠ [] := fun h => hrest (List.length_eq_zero_iff.mp (hsame.trans (h ▸ rfl)))
    exact absurd hsame (Nat.ne_of_lt (Socket.length_write_lt hbs hroom))
  cases phase with
  | ready =>
    show (stepReady ..).isSome = true
    unfold stepReady
    split
    · split <;> rfl
    · rw [stepClosed, if_pos hclosed]
      rfl
  | writing left until? =>
    show (stepWriting ..).isSome = true
    unfold stepWriting
    split
    · rfl
    dsimp only
    split
    · rfl
    rename_i hrest
    rw [if_neg (hgetsOn left hrest)]
    split
    · rfl
    · split <;> rfl
  | gathering held t =>
    show (stepGathering ..).isSome = true
    unfold stepGathering
    split <;> split <;> rfl
  | flushing left t =>
    show (stepFlushing ..).isSome = true
    unfold stepFlushing
    split
    · rfl
    dsimp only
    split
    · rfl
    rename_i hrest
    rw [if_neg (hgetsOn left hrest)]
    split <;> rfl
  | ending left t =>
    show (stepEnding ..).isSome = true
    unfold stepEnding
    split
    · rfl
    dsimp only
    split
    · rfl
    rename_i hrest
    rw [if_neg (hgetsOn left hrest)]
    split <;> rfl
  | ended => exact absurd rfl ho

end Outlet

end Switchboard
