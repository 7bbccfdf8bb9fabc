import Switchboard.Service.Line

/-!
# Proofs/Service/Quiet — what leaves reading alone

Greeting, watching, writing and ending change neither what a line reads nor the requests that wait:
they are quiet (`Line.Quiet`).  A quiet step may well close the connection, which reading finds out
the next time.
-/

namespace Switchboard

/-! ## The peer's side of a stream -/

/-- What the peer sent and whether it goes on are the same. -/
def Socket.SameInput (s s' : Socket) : Prop :=
  s'.arrived = s.arrived ∧ s'.peerFinished = s.peerFinished

/-- Writing in pieces does not touch what the peer has sent. -/
theorem Socket.sameInput_writeUpTo (budget : Nat) (bs : Bytes) (s : Socket) :
    s.SameInput (writeUpTo budget bs s).2 := by
  induction budget generalizing bs s with
  | zero => exact ⟨rfl, rfl⟩
  | succ budget ih =>
    unfold writeUpTo
    split
    · exact ⟨rfl, rfl⟩
    · exact ih _ _

/-- Writing does not touch what the peer has sent. -/
theorem Socket.sameInput_write (bs : Bytes) (s : Socket) : s.SameInput (s.write bs).2 :=
  sameInput_writeUpTo _ bs s

namespace Outlet

variable {o o' : Outlet} {now : Nat} {place : Place} {c c' : Channel} {left : Bytes}

theorem sameInput_stepClosed (h : o.stepClosed now place c = some (o', c')) :
    c.socket.SameInput c'.socket := by
  unfold stepClosed at h
  split at h
  · cases h
    exact ⟨rfl, rfl⟩
  · cases h

theorem sameInput_stepReady (h : o.stepReady now place c = some (o', c')) :
    c.socket.SameInput c'.socket := by
  unfold stepReady at h
  split at h
  · split at h <;> (cases h; exact ⟨rfl, rfl⟩)
  · exact sameInput_stepClosed h

theorem sameInput_stepWriting {until? : Option Nat}
    (h : o.stepWriting now place c left until? = some (o', c')) :
    c.socket.SameInput c'.socket := by
  have hwrite := c.socket.sameInput_write left
  unfold stepWriting at h
  generalize c.socket.write left = w at h hwrite
  split at h
  · cases h
    exact ⟨rfl, rfl⟩
  dsimp only at h
  split at h
  · cases h
    exact hwrite
  split at h
  · cases h
    exact hwrite
  split at h
  · cases h
    exact hwrite
  split at h
  · cases h
  · cases h
    exact hwrite

theorem sameInput_stepGathering {deadline : Nat}
    (h : o.stepGathering now place c left deadline = some (o', c')) :
    c.socket.SameInput c'.socket := by
  unfold stepGathering at h
  split at h <;> split at h <;> (cases h; exact ⟨rfl, rfl⟩)

theorem sameInput_stepFlushing {deadline : Nat}
    (h : o.stepFlushing now c left deadline = some (o', c')) : c.socket.SameInput c'.socket := by
  have hwrite := c.socket.sameInput_write left
  unfold stepFlushing at h
  generalize c.socket.write left = w at h hwrite
  split at h
  · cases h
    exact ⟨rfl, rfl⟩
  dsimp only at h
  split at h
  · cases h
    exact hwrite
  split at h
  · cases h
    exact hwrite
  split at h
  · cases h
  · cases h
    exact hwrite

theorem sameInput_stepEnding {deadline : Nat}
    (h : o.stepEnding now c left deadline = some (o', c')) : c.socket.SameInput c'.socket := by
  have hwrite := c.socket.sameInput_write left
  unfold stepEnding at h
  generalize c.socket.write left = w at h hwrite
  split at h
  · cases h
    exact ⟨rfl, rfl⟩
  dsimp only at h
  split at h
  · cases h
    exact hwrite
  split at h
  · cases h
    exact hwrite
  split at h
  · cases h
  · cases h
    exact hwrite

/-- **No step of the writing task takes anything in.** -/
theorem sameInput_step (h : o.step now place c = some (o', c')) :
    c.socket.SameInput c'.socket := by
  unfold step at h
  split at h
  · exact sameInput_stepReady h
  · exact sameInput_stepWriting h
  · exact sameInput_stepGathering h
  · exact sameInput_stepFlushing h
  · exact sameInput_stepEnding h
  · cases h

/-- No run of the writing task takes anything in. -/
theorem sameInput_run (budget : Nat) (o : Outlet) (now : Nat) (place : Place) (c : Channel) :
    c.socket.SameInput (o.run budget now place c).2.socket := by
  induction budget generalizing o c with
  | zero => exact ⟨rfl, rfl⟩
  | succ budget ih =>
    unfold run
    cases hstep : o.step now place c with
    | none => exact ⟨rfl, rfl⟩
    | some r =>
      obtain ⟨harrived, hfinished⟩ := sameInput_step hstep
      obtain ⟨harrived', hfinished'⟩ := ih r.1 r.2
      exact ⟨harrived'.trans harrived, hfinished'.trans hfinished⟩

end Outlet

/-! ## Quiet steps -/

namespace Line

/-- What a line comes to when nothing is read: it reads on as before, and the same requests wait. -/
structure Quiet (l : Line) (x : Exchange) (r : Line × Exchange) : Prop where
  place : r.1.place = l.place
  intake : r.1.intake = l.intake
  arrived : l.intake ≠ none → r.1.socket.arrived = l.socket.arrived
  finished : r.1.socket.peerFinished = l.socket.peerFinished
  requests : r.2.requests = x.requests

variable {l : Line} {x : Exchange} {r r' : Line × Exchange}

theorem Quiet.trans (h : Quiet l x r) (h' : Quiet r.1 r.2 r') : Quiet l x r' where
  place := h'.place.trans h.place
  intake := h'.intake.trans h.intake
  arrived := fun hne => (h'.arrived (h.intake ▸ hne)).trans (h.arrived hne)
  finished := h'.finished.trans h.finished
  requests := h'.requests.trans h.requests

/-- The same line in a hub that others may have changed is quiet. -/
theorem quiet_of_same (hline : r.1.place = l.place ∧ r.1.intake = l.intake ∧ r.1.socket = l.socket)
    (hrequests : r.2.requests = x.requests) : Quiet l x r := by
  obtain ⟨hplace, hintake, hsocket⟩ := hline
  exact ⟨hplace, hintake, fun _ => by rw [hsocket], by rw [hsocket], hrequests⟩

/-- A greeting reads nothing. -/
theorem quiet_greet (l : Line) (x : Exchange) : Quiet l x (l.greet x) := by
  refine quiet_of_same ?_ ?_
  · unfold greet setWatches
    split <;> exact ⟨rfl, rfl, rfl⟩
  · unfold greet runOpeningHook
    split
    · dsimp only
      split <;> rfl
    · rfl

/-- The heartbeat watch may close the connection; what was read stays read. -/
theorem quiet_watchHeartbeat (l : Line) (x : Exchange) : Quiet l x (l.watchHeartbeat x) := by
  unfold watchHeartbeat
  split
  · split
    · exact quiet_of_same ⟨rfl, rfl, rfl⟩ rfl
    split
    · exact quiet_of_same ⟨rfl, rfl, rfl⟩ rfl
    split <;> exact quiet_of_same ⟨rfl, rfl, rfl⟩ rfl
  · exact quiet_of_same ⟨rfl, rfl, rfl⟩ rfl

theorem quiet_watchAuth (l : Line) (x : Exchange) : Quiet l x (l.watchAuth x) := by
  unfold watchAuth
  split
  · split
    · exact quiet_of_same ⟨rfl, rfl, rfl⟩ rfl
    split <;> exact quiet_of_same ⟨rfl, rfl, rfl⟩ rfl
  · exact quiet_of_same ⟨rfl, rfl, rfl⟩ rfl

theorem quiet_watchSignal (l : Line) (x : Exchange) : Quiet l x (l.watchSignal x) := by
  unfold watchSignal
  split
  · split <;> exact quiet_of_same ⟨rfl, rfl, rfl⟩ rfl
  · exact quiet_of_same ⟨rfl, rfl, rfl⟩ rfl

/-- No watch reads. -/
theorem quiet_watch (l : Line) (x : Exchange) : Quiet l x (l.watch x) :=
  ((quiet_watchHeartbeat l x).trans (quiet_watchAuth _ _)).trans (quiet_watchSignal _ _)

/-- A write reads nothing. -/
theorem quiet_write (l : Line) (x : Exchange) : Quiet l x (l.write x) := by
  obtain ⟨harrived, hfinished⟩ :=
    Outlet.sameInput_run (Outlet.budgetOf l.place ⟨x.hub, l.socket⟩) l.outlet x.clock l.place
      ⟨x.hub, l.socket⟩
  exact ⟨rfl, rfl, fun _ => harrived, hfinished, rfl⟩

/-- A line that leaves the pool reads nothing. -/
theorem quiet_leave (l : Line) (x : Exchange) : Quiet l x (l.leave x) := by
  unfold leave
  split <;> exact quiet_of_same ⟨rfl, rfl, rfl⟩ rfl

/-- A line that ends lets go of its stream, but reads no more by then. -/
theorem quiet_depart (l : Line) (x : Exchange) : Quiet l x (l.depart x) := by
  unfold depart
  split
  · rename_i hleft
    refine ⟨rfl, rfl, fun hne => absurd hleft.2 hne, rfl, ?_⟩
    dsimp only
    split <;> rfl
  · exact quiet_of_same ⟨rfl, rfl, rfl⟩ rfl

/-- A line that has finished is read no further. -/
theorem quiet_finish (l : Line) (x : Exchange) : Quiet l x (l.finish x) :=
  (quiet_leave l x).trans (quiet_depart _ _)

end Line

end Switchboard
