import Switchboard.Proofs.Service.Replies

/-!
# Proofs/Service/Accepted — replies that were accepted are written

What was written, what the outlet has in hand and what is queued are together the blocks accepted,
in order (`Outlet.History.Kept`).  Every act preserves that as long as nothing is cut off; so when
the outlet has ended, the peer was sent exactly what was accepted (`Outlet.History.sent_run`).  And
the outlet of a closed connection does end, because each step brings it nearer to its end
(`Outlet.History.Closing.exists_ended`).
-/

namespace Switchboard

namespace Outlet

namespace History

variable {h : History} {capacity maxFrame : Nat}

/-! ## What was accepted -/

/-- **Nothing is lost, doubled or out of order.** -/
structure Kept (h : History) : Prop where
  /-- What was written, what is in hand and what is queued are together what was accepted. -/
  bytes : h.sent ++ h.outlet.left ++ h.queued.flatten = h.accepted.flatten
  /-- What is queued was accepted last. -/
  suffix : h.queued <:+ h.accepted
  /-- Nothing is queued when the outlet takes no more replies. -/
  idle : h.outlet.isOver = true → h.queued = []

theorem accepted_answer_ok (h : History) (block : Bytes) :
    (h.answer block (.ok ())).accepted = h.accepted ++ [block] := by
  simp [accepted, answer]

theorem accepted_answer_error (h : History) (block : Bytes) (e : SessionError) :
    (h.answer block (.error e)).accepted = h.accepted := by
  simp [accepted, answer]

theorem kept_start (network : Network) (peer : String) (x : Exchange) :
    Kept (start network peer x) := by
  have hnone : (start network peer x).queued = [] := by
    rw [queued, queueOf_start]
    rfl
  refine ⟨?_, ?_, fun _ => hnone⟩
  · rw [hnone]
    rfl
  · rw [hnone]
    exact List.nil_suffix

/-- What a history keeps depends on the queue, the outlet and what was written. -/
theorem Kept.of_same {h' : History} (hk : Kept h) (hsent : h'.sent = h.sent)
    (houtlet : h'.outlet = h.outlet) (hqueued : h'.queued = h.queued)
    (haccepted : h'.accepted = h.accepted) : Kept h' := by
  refine ⟨?_, ?_, ?_⟩
  · rw [hsent, houtlet, hqueued, haccepted]
    exact hk.bytes
  · rw [hqueued, haccepted]
    exact hk.suffix
  · rw [houtlet, hqueued]
    exact hk.idle

theorem Kept.settle (hs : Sound capacity maxFrame h) (hk : Kept h) : Kept h.settle := by
  unfold History.settle
  split
  · rename_i hended
    have hserving : h.outlet.isServing = false := by simp [isServing, hended]
    have hover : h.outlet.isOver = true := by simp [isOver, hended]
    refine hk.of_same rfl rfl ?_ rfl
    rw [hk.idle hover]
    exact congrArg (List.map Reply.block) (hserving ▸ hs.tended).abandon.2
  · exact hk

/-- What was taken was queued first. -/
theorem Sound.queued_of_takeReply (hs : Sound capacity maxFrame h) {reply : Reply} {hub : Hub}
    (htaken : h.channel.hub.takeReply h.place = some (reply, hub)) :
    h.queued = reply.block :: (h.withHub hub).queued := by
  rw [queued, (hs.tended.takeReply htaken).2.1]
  rfl

/-- What is queued fits if what was accepted does. -/
theorem Kept.fits_queued (hk : Kept h) (hs : Sound capacity maxFrame h)
    (hfits : ∀ block ∈ h.accepted, Sink.lengthOf block ≤ maxFrame) :
    ∀ block ∈ h.queued, Sink.lengthOf block ≤ h.outlet.maxFrame :=
  fun block hblock => hs.maxFrame ▸ hfits block (hk.suffix.subset hblock)

/-- **A step that cuts nothing off loses nothing**, if what is queued fits. -/
theorem Kept.handles {now : Nat} {o : Outlet} {c : Channel} (hs : Sound capacity maxFrame h)
    (hk : Kept h) (hstep : Handles now h.place h.outlet h.channel o c)
    (hfits : ∀ block ∈ h.queued, Sink.lengthOf block ≤ h.outlet.maxFrame)
    (hthere : h.channel.socket.peerGone = false)
    (hdue : h.outlet.isDue now = true → (h.channel.socket.write h.outlet.left).1 = []) :
    Kept { h with outlet := o, channel := c } := by
  have hbytes := hk.bytes
  cases hstep with
  | takes reply taken socket left serving idle =>
    have hqueued := hs.queued_of_takeReply taken
    refine ⟨?_, ?_, fun hover => nomatch idle.symm.trans hover⟩
    · rw [hqueued, List.flatten_cons] at hbytes
      show c.socket.sent ++ o.left ++ _ = _
      rw [socket, left, ← List.append_assoc, List.append_assoc]
      exact hbytes
    · exact (List.suffix_cons ..).trans (hqueued ▸ hk.suffix)
  | refuses reply hub taken long hub' =>
    have hmem : reply.block ∈ h.queued := hs.queued_of_takeReply taken ▸ List.mem_cons_self
    exact absurd long (Nat.not_lt.mpr (hfits _ hmem))
  | writes hub bytes serving idle nearer =>
    have hqueued : (h.withHub c.hub).queued = h.queued := by rw [hub]; rfl
    refine ⟨?_, hqueued ▸ hk.suffix, fun hover => hqueued ▸ hk.idle (idle ▸ hover)⟩
    show c.socket.sent ++ o.left ++ (h.withHub c.hub).queued.flatten = _
    rw [bytes, hqueued]
    exact hbytes
  | turns same left serving idle nearer =>
    subst same
    refine ⟨?_, hk.suffix, fun hover => congrArg (List.map Reply.block) (idle hover)⟩
    show h.channel.socket.sent ++ o.left ++ _ = _
    rw [left]
    exact hbytes
  | givesUp why hub =>
    rcases why with hgone | ⟨hisDue, hleft⟩
    · exact nomatch hthere.symm.trans hgone
    · exact absurd (hdue hisDue) hleft

theorem Kept.advance {now : Nat} {r : Option (Outlet × Channel)} (hs : Sound capacity maxFrame h)
    (hk : Kept h)
    (hr : ∀ o c, r = some (o, c) →
      Handles now h.place h.outlet h.channel o c ∧ o.maxFrame = h.outlet.maxFrame)
    (hfits : ∀ block ∈ h.accepted, Sink.lengthOf block ≤ maxFrame)
    (hthere : h.channel.socket.peerGone = false)
    (hdue : h.outlet.isDue now = true → (h.channel.socket.write h.outlet.left).1 = []) :
    Kept (h.advance r) := by
  cases r with
  | none => exact hk.settle hs
  | some r =>
    obtain ⟨o, c⟩ := r
    obtain ⟨hstep, hmax⟩ := hr o c rfl
    have hs' : Sound capacity maxFrame { h with outlet := o, channel := c } :=
      ⟨(hs.handles hstep).1, hmax.trans hs.maxFrame⟩
    exact (hk.handles hs hstep (hk.fits_queued hs hfits) hthere hdue).settle hs'

theorem Kept.sends (hs : Sound capacity maxFrame h) (hk : Kept h) (block : Bytes) :
    Kept (h.perform (.sends block)) := by
  cases hclosed : h.connection.closed with
  | true =>
    rw [sends_of_closed hclosed]
    exact hk.of_same rfl rfl rfl (accepted_answer_error ..)
  | false =>
    rcases Nat.lt_or_eq_of_le hs.length_le with hroom | hfull
    · rw [hs.sends_of_room hclosed hroom]
      obtain ⟨-, hqueued⟩ := hs.enqueue hroom block
      have haccepted : ((h.enqueue block).answer block (.ok ())).accepted = h.accepted ++ [block] :=
        accepted_answer_ok ..
      refine ⟨?_, ?_, fun hover => ?_⟩
      · show h.sent ++ h.outlet.left ++ (h.enqueue block).queued.flatten = _
        rw [hqueued, haccepted, List.flatten_append, List.flatten_append, ← hk.bytes,
          List.append_assoc, List.append_assoc, List.append_assoc]
      · show (h.enqueue block).queued <:+ _
        rw [hqueued, haccepted]
        obtain ⟨before, hbefore⟩ := hk.suffix
        exact ⟨before, by rw [← List.append_assoc, hbefore]⟩
      · -- an outlet that takes no more replies does not serve, so the connection would be closed
        have hserving := (hs.tended.reader hclosed).2
        exact nomatch (isServing_of_isOver hover).symm.trans hserving
    · rw [hs.sends_of_full hclosed hfull]
      exact hk.of_same rfl rfl hs.closes.2.2 (accepted_answer_error ..)

/-- **Every act in which nothing is cut off loses nothing**, if what was accepted fits. -/
theorem Kept.perform (hs : Sound capacity maxFrame h) (hk : Kept h) {act : Act}
    (hfits : ∀ block ∈ h.accepted, Sink.lengthOf block ≤ maxFrame) (htime : h.InTime act) :
    Kept (h.perform act) := by
  cases act with
  | sends block => exact hk.sends hs block
  | closes => exact hk.of_same rfl rfl hs.closes.2.2 rfl
  | steps now =>
    exact hk.advance hs (fun o c hstep => ⟨handles_step hstep, maxFrame_step hstep⟩) hfits htime.1
      htime.2
  | looks now =>
    exact hk.advance hs (fun o c hlook => ⟨handles_look hlook, maxFrame_look hlook⟩) hfits htime.1
      htime.2
  | reads n | leaves => exact hk.of_same rfl rfl rfl rfl

theorem accepted_settle (h : History) : h.settle.accepted = h.accepted := by
  unfold settle
  split <;> rfl

/-- The outlet answers nobody. -/
theorem accepted_advance (h : History) (r : Option (Outlet × Channel)) :
    (h.advance r).accepted = h.accepted := by
  cases r with
  | none => exact accepted_settle h
  | some r => exact accepted_settle _

/-- What was accepted stays so. -/
theorem accepted_perform (h : History) (act : Act) : h.accepted <+: (h.perform act).accepted := by
  cases act with
  | sends block =>
    show _ <+: List.filterMap _ (h.answers ++ [(block, (h.channel.hub.send h.place block).1)])
    rw [List.filterMap_append]
    exact List.prefix_append ..
  | steps now | looks now => exact ⟨[], (List.append_nil _).trans (accepted_advance ..).symm⟩
  | closes | reads n | leaves => exact List.prefix_refl _

theorem accepted_run (h : History) (acts : List Act) : h.accepted <+: (h.run acts).accepted := by
  induction acts generalizing h with
  | nil => exact List.prefix_refl _
  | cons act rest ih => exact (accepted_perform h act).trans (ih _)

/-- **A run in which nothing is cut off loses nothing**, if what was accepted fits. -/
theorem Kept.run (hs : Sound capacity maxFrame h) (hk : Kept h) {acts : List Act}
    (hfits : ∀ block ∈ (h.run acts).accepted, Sink.lengthOf block ≤ maxFrame)
    (htime : h.AllInTime acts) : Kept (h.run acts) := by
  induction acts generalizing h with
  | nil => exact hk
  | cons act rest ih =>
    have hnow : ∀ block ∈ h.accepted, Sink.lengthOf block ≤ maxFrame :=
      fun block hblock => hfits block ((accepted_run h (act :: rest)).subset hblock)
    exact ih (hs.perform act).1 (hk.perform hs hnow htime.1) hfits htime.2

/-- When the outlet has ended, what was accepted was written. -/
theorem Kept.sent_eq (hk : Kept h) (hended : h.outlet.phase = .ended) :
    h.sent = h.accepted.flatten := by
  have hbytes := hk.bytes
  rw [hk.idle (by simp [isOver, hended])] at hbytes
  simpa [left, hended] using hbytes

/-! ## The end is reached -/

/-- **A step that cuts nothing off brings the end nearer**, if what is queued fits. -/
theorem Sound.distance_lt {now : Nat} {o : Outlet} {c : Channel} (hs : Sound capacity maxFrame h)
    (hstep : Handles now h.place h.outlet h.channel o c)
    (hfits : ∀ block ∈ h.queued, Sink.lengthOf block ≤ h.outlet.maxFrame)
    (hthere : h.channel.socket.peerGone = false) (hdue : h.outlet.isDue now = false) :
    o.distance (h.withHub c.hub).queued < h.outlet.distance h.queued := by
  have hrank := o.rank_lt
  cases hstep with
  | takes reply taken socket left serving idle =>
    rw [distance, distance, hs.queued_of_takeReply taken, left]
    simp only [List.flatten_cons, List.length_append, List.length_cons]
    omega
  | refuses reply hub taken long hub' =>
    have hmem : reply.block ∈ h.queued := hs.queued_of_takeReply taken ▸ List.mem_cons_self
    exact absurd long (Nat.not_lt.mpr (hfits _ hmem))
  | writes hub bytes serving idle nearer =>
    have hqueued : (h.withHub c.hub).queued = h.queued := by rw [hub]; rfl
    rw [distance, distance, hqueued]
    rcases nearer with hless | ⟨hsame, hless⟩ <;> omega
  | turns same left serving idle nearer =>
    subst same
    rw [distance, distance, left]
    exact Nat.add_lt_add_left nearer _
  | givesUp why hub =>
    rcases why with hgone | ⟨hisDue, -⟩
    · exact nomatch hthere.symm.trans hgone
    · exact nomatch hdue.symm.trans hisDue

/-- The connection is closed, and the outlet has time left to write what was accepted to its peer.
-/
structure Closing (capacity maxFrame now : Nat) (h : History) : Prop where
  sound : Sound capacity maxFrame h
  kept : Kept h
  fits : ∀ block ∈ h.accepted, Sink.lengthOf block ≤ maxFrame
  closed : h.connection.closed = true
  there : h.channel.socket.peerGone = false
  time : h.outlet.HasTime now

/-- One round: the peer reads all there is, so there is room for a step. -/
theorem Closing.round {now : Nat} (hc : Closing capacity maxFrame now h)
    (hended : h.outlet.phase ≠ .ended) :
    let round : List Act := [.reads h.sent.length, .steps now]
    let h' := h.run round
    h.AllInTime round ∧ h'.accepted = h.accepted ∧
      (h'.outlet.phase = .ended ∨ Closing capacity maxFrame now h' ∧
        h'.outlet.distance h'.queued < h.outlet.distance h.queued) := by
  intro round h'
  let read := h.perform (.reads h.sent.length)
  -- the peer has read all there is, so the stream takes more
  have hroom : read.channel.socket.waiting < Socket.room := by
    show h.sent.length - min h.sent.length (h.channel.socket.taken + h.sent.length) < Socket.room
    rw [Nat.min_eq_left (Nat.le_add_left ..), Nat.sub_self]
    decide
  obtain ⟨⟨o, c⟩, hstep⟩ := Option.isSome_iff_exists.mp
    (isSome_step (c := read.channel) now hc.closed hroom hended)
  have hsteps : h' = read.advance (some (o, c)) := congrArg read.advance hstep
  have hinTime : read.InTime (.steps now) :=
    ⟨hc.there, fun hdue => nomatch hc.time.isDue.symm.trans hdue⟩
  refine ⟨⟨trivial, hinTime, trivial⟩, hsteps ▸ accepted_advance read _, ?_⟩
  by_cases hended' : o.phase = .ended
  · left
    rw [hsteps, advance, settle, if_pos hended']
    exact hended'
  · right
    have hnext : h' = { read with outlet := o, channel := c } := by
      rw [hsteps, advance, settle, if_neg hended']
    have hsound : Sound capacity maxFrame read := ⟨hc.sound.tended, hc.sound.maxFrame⟩
    have hkept : Kept read := hc.kept.of_same rfl rfl rfl rfl
    have hhandles : Handles now read.place read.outlet read.channel o c := handles_step hstep
    have hfits := hkept.fits_queued hsound hc.fits
    obtain ⟨htended, hclosed⟩ := hsound.handles hhandles
    rw [hnext]
    exact ⟨{
      sound := ⟨htended, (maxFrame_step hstep).trans hc.sound.maxFrame⟩
      kept := hkept.handles hsound hhandles hfits hc.there hinTime.2
      fits := hc.fits
      closed := hclosed hc.closed
      there := (peerGone_step hstep).trans hc.there
      time := hc.time.step hstep },
      hsound.distance_lt hhandles hfits hc.there hc.time.isDue⟩

/-- **The outlet of a closed connection comes to its end**, if the peer goes on reading. -/
theorem Closing.exists_ended {now : Nat} (hc : Closing capacity maxFrame now h) :
    ∃ acts, (∀ act ∈ acts, act = .steps now ∨ ∃ n, act = .reads n) ∧ h.AllInTime acts ∧
      (h.run acts).accepted = h.accepted ∧ (h.run acts).outlet.phase = .ended := by
  induction hd : h.outlet.distance h.queued using Nat.strongRecOn generalizing h with
  | ind d ih =>
    by_cases hended : h.outlet.phase = .ended
    · exact ⟨[], nofun, trivial, rfl, hended⟩
    obtain ⟨⟨-, hinTime, -⟩, haccepted, hround⟩ := hc.round hended
    have hacts {acts : List Act} (h' : ∀ act ∈ acts, act = .steps now ∨ ∃ n, act = .reads n) :
        ∀ act ∈ .reads h.sent.length :: .steps now :: acts,
          act = .steps now ∨ ∃ n, act = .reads n :=
      List.forall_mem_cons.mpr ⟨.inr ⟨_, rfl⟩, List.forall_mem_cons.mpr ⟨.inl rfl, h'⟩⟩
    rcases hround with hended' | ⟨hc', hless⟩
    · exact ⟨_, hacts (List.forall_mem_nil _), ⟨trivial, hinTime, trivial⟩, haccepted, hended'⟩
    · obtain ⟨acts, hmore, htime, haccepted', hend⟩ := ih _ (hd ▸ hless) hc' rfl
      exact ⟨_, hacts hmore, ⟨trivial, hinTime, htime⟩, haccepted'.trans haccepted, hend⟩

/-! ## All interleavings -/

/-- **No accepted reply is lost, doubled or out of order.**  Whatever happens to a line that was
accepted, its connection answers by the state of its queue.  If what was accepted fits and nothing
was cut off, then what was written, what the outlet has in hand and what is queued are together what
was accepted; so when the outlet has ended, what was written is what was accepted.  And a closed
connection's outlet does end, if the peer goes on reading. -/
theorem sent_run (network : Network) (peer : String) (x : Exchange) (acts : List Act) :
    let h := (start network peer x).run acts
    h.Answers x.plan.settings.queueCapacity ∧
      ((∀ block ∈ h.accepted, Sink.lengthOf block ≤ x.plan.settings.maxFrame) →
        (start network peer x).AllInTime acts →
          h.sent ++ h.outlet.left ++ h.queued.flatten = h.accepted.flatten ∧
          (h.outlet.phase = .ended → h.sent = h.accepted.flatten) ∧
          (h.connection.closed = true → h.channel.socket.peerGone = false →
            ∀ now, h.outlet.HasTime now →
              ∃ later, (∀ act ∈ later, act = .steps now ∨ ∃ n, act = .reads n) ∧
                (h.run later).outlet.phase = .ended ∧
                (h.run later).sent = h.accepted.flatten)) := by
  intro h
  obtain ⟨hs, -⟩ := (sound_start network peer x).run acts
  refine ⟨hs.answers, fun hfits htime => ?_⟩
  have hk := (kept_start network peer x).run (sound_start network peer x) hfits htime
  refine ⟨hk.bytes, hk.sent_eq, fun hclosed hthere now hnow => ?_⟩
  have hclosing : Closing _ _ now h := ⟨hs, hk, hfits, hclosed, hthere, hnow⟩
  obtain ⟨later, hacts, hall, haccepted, hended⟩ := hclosing.exists_ended
  have hk' : Kept (h.run later) := hk.run hs (haccepted ▸ hfits) hall
  exact ⟨later, hacts, hended, haccepted ▸ hk'.sent_eq hended⟩

/-- A queue of one is full while the outlet writes.  The outlet sees that the connection is closed
before it sees what is queued. -/
theorem sent_run_full :
    let x : Exchange := .ofPlan
      ⟨.empty, { Settings.standard with replyQueue := 1 }, none, none, .none⟩
    let sends : List Act := [.sends [1], .steps 0, .sends [2], .sends [3], .sends [4]]
    let ends : List Act := [.steps 0, .looks 0, .steps 0, .steps 0, .steps 0, .steps 0, .steps 0]
    let g := (start .tcp "peer" x).run sends
    let h := (start .tcp "peer" x).run (sends ++ ends)
    (g.queued = [[2]] ∧ ∃ later, (g.run later).sent = [1, 2]) ∧
      h.answers.length = 4 ∧ h.outlet.phase = .ended ∧ h.sent = [1, 2] := by
  intro x sends ends g h
  refine ⟨?_, ?_⟩
  · have haccepted : g.accepted = [[1], [2]] := by decide +kernel
    have hqueued : g.queued = [[2]] := by decide +kernel
    have hclosed : g.connection.closed = true := by decide +kernel
    have hthere : g.channel.socket.peerGone = false := by decide +kernel
    have hleft : g.outlet.HasTime 0 := by decide +kernel
    have htime : (start .tcp "peer" x).AllInTime sends := by decide +kernel
    have hg : (start .tcp "peer" x).run sends = g := rfl
    have hrun := sent_run .tcp "peer" x sends
    rw [hg] at hrun
    clear_value g
    obtain ⟨-, -, hends⟩ := hrun.2 (by rw [haccepted]; decide) htime
    obtain ⟨later, -, -, hsent⟩ := hends hclosed hthere 0 hleft
    refine ⟨hqueued, later, ?_⟩
    rw [hsent, haccepted]
    rfl
  · have haccepted : h.accepted = [[1], [2]] := by decide +kernel
    have hanswers : h.answers.length = 4 := by decide +kernel
    have hended : h.outlet.phase = .ended := by decide +kernel
    have htime : (start .tcp "peer" x).AllInTime (sends ++ ends) := by decide +kernel
    have hh : (start .tcp "peer" x).run (sends ++ ends) = h := rfl
    have hrun := sent_run .tcp "peer" x (sends ++ ends)
    rw [hh] at hrun
    clear_value h
    obtain ⟨-, hsent, -⟩ := hrun.2 (by rw [haccepted]; decide) htime
    refine ⟨hanswers, hended, ?_⟩
    rw [hsent hended, haccepted]
    rfl

end History

end Outlet

end Switchboard
