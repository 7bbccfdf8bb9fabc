import Switchboard.Proofs.Service.Accepted
import Switchboard.Proofs.Service.Quiet

/-!
# Proofs/Service/Open — writing over an open connection

As long as its connection is open, the outlet is ready or writes a block in its own time
(`Outlet.Writes`).  Whatever steps it makes, the connection stays open if what was accepted fits
(`Outlet.History.Opened.run_steps`); and there is a step as long as something is left to be written
and the stream has room (`Outlet.History.Opened.run_steps_lt`).
-/

namespace Switchboard

namespace Socket

variable {s : Socket}

/-- **The stream of a peer that is still there**: it has not finished sending, and the service holds
its own end. -/
structure Holds (s : Socket) : Prop where
  sending : s.peerFinished = false
  there : s.peerGone = false
  held : s.released = false

theorem released_write (bs : Bytes) (s : Socket) : (s.write bs).2.released = s.released := by
  rw [write]
  generalize bs.length / piece + 1 = budget
  induction budget generalizing bs s with
  | zero => rfl
  | succ budget ih =>
    unfold writeUpTo
    split
    · rfl
    · exact ih _ _

theorem Holds.write (h : s.Holds) (bs : Bytes) : (s.write bs).2.Holds where
  sending := (sameInput_write bs s).2.trans h.sending
  there := (peerGone_write bs s).trans h.there
  held := (released_write bs s).trans h.held

/-- The peer can send. -/
theorem Holds.receive (h : s.Holds) (bs : Bytes) :
    s.receive bs = (true, { s with arrived := s.arrived ++ bs }) := by
  rw [Socket.receive, h.sending, h.there, h.held]
  rfl

end Socket

namespace Outlet

variable {o o' : Outlet} {now : Nat} {place : Place} {c c' : Channel}

/-- **The outlet of an open connection**: it is ready, or writes a block in its own time. -/
def Writes (o : Outlet) : Prop := o.phase = .ready ∨ ∃ left, o.phase = .writing left none

theorem Writes.deadline? (h : o.Writes) : o.deadline? = none := by
  rcases h with h | ⟨left, h⟩ <;> simp [Outlet.deadline?, h]

theorem Writes.ne_ended (h : o.Writes) : o.phase ≠ .ended := by
  rcases h with h | ⟨left, h⟩ <;> simp [h]

theorem Writes.isDue (h : o.Writes) (now : Nat) : o.isDue now = false :=
  HasTime.isDue fun _ ht => nomatch h.deadline? ▸ ht

/-- **A step over an open connection** leaves the connection alone. -/
theorem Writes.step (h : o.Writes) (hopen : (c.hub.connection place).closed = false)
    (hstream : c.socket.Holds)
    (hfits : ∀ reply ∈ (c.hub.queueOf place).replies, Sink.lengthOf reply.block ≤ o.maxFrame)
    (hstep : o.step now place c = some (o', c')) :
    o'.Writes ∧ c'.hub.connection place = c.hub.connection place ∧ c'.socket.Holds := by
  obtain ⟨m, phase⟩ := o
  rcases h with rfl | ⟨left, rfl⟩
  · have hstep : stepReady ⟨m, .ready⟩ now place c = some (o', c') := hstep
    unfold stepReady at hstep
    split at hstep
    · rename_i reply hub htaken
      obtain ⟨rest, hreplies, rfl⟩ := Hub.takeReply_eq_some_iff.mp htaken
      have hfit := hfits reply (hreplies ▸ List.mem_cons_self)
      rw [if_neg (Nat.not_lt.mpr hfit)] at hstep
      cases hstep
      exact ⟨.inr ⟨_, rfl⟩, rfl, hstream⟩
    · rw [stepClosed, hopen] at hstep
      cases hstep
  · have hstep : stepWriting ⟨m, .writing left none⟩ now place c left none = some (o', c') := hstep
    unfold stepWriting at hstep
    rw [hstream.there, hopen, if_neg Bool.false_ne_true] at hstep
    dsimp only at hstep
    split at hstep
    · cases hstep
      exact ⟨.inl rfl, rfl, hstream.write left⟩
    · simp only [Bool.false_and, Bool.false_eq_true, if_false] at hstep
      split at hstep
      · cases hstep
      · cases hstep
        exact ⟨.inr ⟨_, rfl⟩, rfl, hstream.write left⟩

/-- **There is a step** as long as something is to be written and the stream has room. -/
theorem Writes.isSome_step (h : o.Writes) (now : Nat) (hroom : c.socket.waiting < Socket.room)
    (hleft : o.phase ≠ .ready ∨ (c.hub.queueOf place).replies ≠ []) :
    (o.step now place c).isSome = true := by
  obtain ⟨m, phase⟩ := o
  rcases h with rfl | ⟨left, rfl⟩
  · show (stepReady ..).isSome = true
    unfold stepReady
    split
    · split <;> rfl
    · rename_i hnone
      exact absurd (Hub.takeReply_eq_none_iff.mp hnone) (hleft.resolve_left (· rfl))
  · show (stepWriting ..).isSome = true
    unfold stepWriting
    split
    · rfl
    dsimp only
    split
    · rfl
    rename_i hrest
    have hgetsOn : (c.socket.write left).1.length ≠ left.length := by
      intro hsame
      have hne : left ≠ [] := fun h => hrest (List.length_eq_zero_iff.mp (hsame.trans (h ▸ rfl)))
      exact absurd hsame (Nat.ne_of_lt (Socket.length_write_lt hne hroom))
    rw [if_neg hgetsOn]
    split
    · rfl
    · split <;> rfl

namespace History

variable {h : History} {capacity maxFrame : Nat}

/-- Nothing was done, or the outlet has got on. -/
def GetsOn (h h' : History) : Prop :=
  h' = h ∨ h'.outlet.distance h'.queued < h.outlet.distance h.queued

theorem GetsOn.trans {h' h'' : History} (hon : GetsOn h h') (hon' : GetsOn h' h'') :
    GetsOn h h'' := by
  rcases hon with rfl | hless
  · exact hon'
  · rcases hon' with rfl | hless'
    · exact .inr hless
    · exact .inr (Nat.lt_trans hless' hless)

/-- The connection is open, its outlet writes what was accepted to its peer. -/
structure Opened (capacity maxFrame : Nat) (h : History) : Prop where
  sound : Sound capacity maxFrame h
  kept : Kept h
  fits : ∀ block ∈ h.accepted, Sink.lengthOf block ≤ maxFrame
  opened : h.connection.closed = false
  stream : h.channel.socket.Holds
  writes : h.outlet.Writes

/-- **A step keeps the connection as it is**, and brings the outlet nearer to having written
everything. -/
theorem Opened.steps (ho : Opened capacity maxFrame h) (now : Nat) :
    Opened capacity maxFrame (h.perform (.steps now)) ∧
      (h.perform (.steps now)).accepted = h.accepted ∧
      (h.perform (.steps now)).connection = h.connection ∧
      (h.outlet.step now h.place h.channel = none ∧ h.perform (.steps now) = h ∨
        (h.perform (.steps now)).outlet.distance (h.perform (.steps now)).queued <
          h.outlet.distance h.queued) := by
  have haccepted : (h.perform (.steps now)).accepted = h.accepted := accepted_advance ..
  have hdue := ho.writes.isDue now
  have htime : h.InTime (.steps now) :=
    ⟨ho.stream.there, fun hisDue => nomatch hdue.symm.trans hisDue⟩
  have hsound := (ho.sound.perform (.steps now)).1
  have hkept := ho.kept.perform ho.sound ho.fits htime
  have hqueued := ho.kept.fits_queued ho.sound ho.fits
  cases hstep : h.outlet.step now h.place h.channel with
  | none =>
    have hsame : h.perform (.steps now) = h := by
      rw [perform, hstep, advance, settle, if_neg ho.writes.ne_ended]
    rw [hsame]
    exact ⟨ho, rfl, rfl, .inl ⟨rfl, rfl⟩⟩
  | some r =>
    obtain ⟨o, c⟩ := r
    have hfits : ∀ reply ∈ (h.channel.hub.queueOf h.place).replies,
        Sink.lengthOf reply.block ≤ h.outlet.maxFrame := fun reply hreply =>
      hqueued reply.block (List.mem_map.mpr ⟨reply, hreply, rfl⟩)
    obtain ⟨hwrites, hconnection, hstream⟩ := ho.writes.step ho.opened ho.stream hfits hstep
    have hnext : h.perform (.steps now) = { h with outlet := o, channel := c } := by
      rw [perform, hstep, advance, settle, if_neg hwrites.ne_ended]
    rw [hnext] at hsound hkept haccepted ⊢
    exact ⟨⟨hsound, hkept, haccepted ▸ ho.fits,
      (congrArg Connection.closed hconnection).trans ho.opened, hstream, hwrites⟩, rfl, hconnection,
      .inr (ho.sound.distance_lt (handles_step hstep) hqueued ho.stream.there hdue)⟩

/-- So do any number of steps. -/
theorem Opened.run_steps (ho : Opened capacity maxFrame h) (now n : Nat) :
    let h' := h.run (List.replicate n (.steps now))
    Opened capacity maxFrame h' ∧ h'.accepted = h.accepted ∧ h'.connection = h.connection ∧
      GetsOn h h' := by
  induction n generalizing h with
  | zero => exact ⟨ho, rfl, rfl, .inl rfl⟩
  | succ n ih =>
    obtain ⟨ho', haccepted, hconnection, hstep⟩ := ho.steps now
    obtain ⟨ho'', haccepted', hconnection', hon⟩ := ih ho'
    have hfirst : GetsOn h (h.perform (.steps now)) := hstep.imp (·.2) id
    exact ⟨ho'', haccepted'.trans haccepted, hconnection'.trans hconnection, hfirst.trans hon⟩

/-- Others may change the hub as long as the connection is open and its queue the same. -/
theorem Opened.withHub (ho : Opened capacity maxFrame h) {hub : Hub} (hseated : hub.Seated h.place)
    (hqueue : hub.queueOf h.place = h.channel.hub.queueOf h.place)
    (hopen : (hub.connection h.place).closed = false) :
    Opened capacity maxFrame (h.withHub hub) where
  sound :=
    { tended :=
        { seated := hseated
          bound := (congrArg ReplyQueue.capacity hqueue).trans ho.sound.tended.bound
          length := by
            show (hub.queueOf h.place).replies.length ≤ capacity
            rw [hqueue]
            exact ho.sound.tended.length
          reader := fun _ => by
            show (hub.queueOf h.place).hasReader = true ∧ _
            rw [hqueue]
            exact ho.sound.tended.reader ho.opened }
      maxFrame := ho.sound.maxFrame }
  kept := ho.kept.of_same rfl rfl
    (congrArg (fun queue => queue.replies.map Reply.block) hqueue) rfl
  fits := ho.fits
  opened := hopen
  stream := ho.stream
  writes := ho.writes

/-- The peer may use the stream as long as it is there. -/
theorem Opened.onSocket (ho : Opened capacity maxFrame h) {f : Socket → Socket}
    (hsent : (f h.channel.socket).sent = h.channel.socket.sent)
    (hstream : (f h.channel.socket).Holds) : Opened capacity maxFrame (h.onSocket f) where
  sound := ⟨ho.sound.tended, ho.sound.maxFrame⟩
  kept := ho.kept.of_same hsent rfl rfl rfl
  fits := ho.fits
  opened := ho.opened
  stream := hstream
  writes := ho.writes

/-- A reply for which there is room is queued. -/
theorem Opened.sends (ho : Opened capacity maxFrame h) (hroom : h.queued.length < capacity)
    {block : Bytes} (hfits : Sink.lengthOf block ≤ maxFrame) :
    h.perform (.sends block) = (h.enqueue block).answer block (.ok ()) ∧
      (h.enqueue block).queued = h.queued ++ [block] ∧
      Opened capacity maxFrame (h.perform (.sends block)) := by
  have hsends := ho.sound.sends_of_room ho.opened hroom block
  have hsound := (ho.sound.sends block).1
  have hkept := ho.kept.sends ho.sound block
  rw [hsends] at hsound hkept ⊢
  refine ⟨rfl, (ho.sound.enqueue hroom block).2, hsound, hkept, ?_, ho.opened, ho.stream, ho.writes⟩
  rw [accepted_answer_ok]
  intro block' hblock'
  rcases List.mem_append.mp hblock' with hbefore | hnew
  · exact ho.fits block' hbefore
  · exact List.mem_singleton.mp hnew ▸ hfits

/-- **Some steps get on** if something is to be written and the stream has room. -/
theorem Opened.run_steps_lt (ho : Opened capacity maxFrame h) (now : Nat) {n : Nat} (hn : n ≠ 0)
    (hroom : h.channel.socket.waiting < Socket.room)
    (hleft : h.outlet.phase ≠ .ready ∨ h.queued ≠ []) :
    let h' := h.run (List.replicate n (.steps now))
    h'.outlet.distance h'.queued < h.outlet.distance h.queued := by
  obtain ⟨n, rfl⟩ := Nat.exists_eq_succ_of_ne_zero hn
  obtain ⟨ho', -, -, hless⟩ := ho.steps now
  have hreplies : h.outlet.phase ≠ .ready ∨ (h.channel.hub.queueOf h.place).replies ≠ [] :=
    hleft.imp id fun hne hnil => hne (congrArg (List.map Reply.block) hnil)
  have hsome := ho.writes.isSome_step now hroom hreplies
  rcases hless with ⟨hnone, -⟩ | hless
  · rw [hnone] at hsome
    exact nomatch hsome
  · have hon : GetsOn (h.perform (.steps now)) (h.run (List.replicate (n + 1) (.steps now))) :=
      (ho'.run_steps now n).2.2.2
    rcases hon with hsame | hmore
    · exact hsame.symm ▸ hless
    · exact Nat.lt_trans hmore hless

end History

end Outlet

end Switchboard
