import Switchboard.Proofs.Session.Apart
import Switchboard.Proofs.Session.Trace
import Switchboard.Proofs.Wire.RoundTrip
import Switchboard.Service.Echo
import Switchboard.Service.Exchange

/-!
# Proofs/Session/Echoing — what the echo service makes of one request

The plan of the echo service can always be put together (`Echo.plan_eq`).  Whatever its header says,
a request runs through the one handler of the service, to its end: its body is sent back, or it is a
heartbeat and is noted (`Echo.dispatch_served`).
-/

namespace Switchboard

namespace Turn

variable {t : Turn}

/-- A handler of one action that is not logged. -/
theorem foldl_step_single (rest : Turn → Turn) (hbroken : t.broken = false) (serial : Nat)
    (a : Action) :
    let h : Script := ⟨serial, none, [⟨a, none⟩]⟩
    h.steps.zipIdx.foldl (step rest h) (t.enter h) =
      (perform rest a
        { t with request := { t.request with cursor := t.request.cursor + 1 } }).2 := by
  intro h
  have hallow : (t.enter h).allow? h (⟨a, none⟩, 0) = some (t.enter h) :=
    if_neg (Bool.eq_false_iff.mp hbroken)
  show step rest h (t.enter h) (⟨a, none⟩, 0) = _
  rw [step_of_some hallow, conclude]
  split <;> rfl

end Turn

namespace Echo

/-- The plan as it is put together. -/
def served (interval : Option Nat) : Plan :=
  match interval with
  | none => ⟨router false, .standard, none, none, .none⟩
  | some time =>
    let registering := (router true).addBare (.messageId (rule time).messageId) Plan.noteHeartbeats
    ⟨registering.2, .standard, some (rule time), none, .none⟩

/-- Is a message id the one of heartbeats, if there are to be any? -/
def isBeat (interval : Option Nat) (id : Int32) : Bool :=
  interval.isSome && id = HeartbeatRule.standard.messageId

/-- The reply to a block. -/
def reply (b : Block) : Block := ⟨b.id, [], b.body⟩

variable {interval : Option Nat} {b : Block}

theorem declared_reply_le (b : Block) : (reply b).declared ≤ b.declared := by
  simp only [reply, Block.declared, List.length_nil]
  omega

theorem fits_reply (hb : b.Fits) : (reply b).Fits := Nat.le_trans (declared_reply_le b) hb

theorem read_bytes (hb : b.Fits) : Block.read b.bytes = .ok b := by
  have hread := Block.read_bytes_append hb []
  rwa [List.append_nil] at hread

/-- The chain of every request. -/
theorem resolve_served (interval : Option Nat) (block : Bytes) :
    (served interval).router.resolve block = some [handler interval.isSome] := by
  cases interval <;> rfl

theorem beat?_eq_some_iff {id : Int32} :
    beat? interval.isSome = some id ↔ isBeat interval id = true := by
  unfold beat? isBeat
  cases interval with
  | none => simp
  | some time => simp [eq_comm]

/-- A body is packed as it came. -/
theorem packRaw_reply (hb : b.Fits) (p : Packer) :
    p.packRaw b.id b.body [] = .ok (reply b).bytes := by
  show Block.pack b.id b.body .empty = _
  exact if_neg (Nat.not_lt.mpr (fits_reply hb))

/-- **What the handler does**: it takes note of a heartbeat, and sends any other body back. -/
theorem perform_handler (hb : b.Fits) (rest : Turn → Turn) {t : Turn}
    (hblock : t.request.block = b.bytes) :
    (Turn.perform rest (.sendBack (beat? interval.isSome)) t).2 =
      t.withHub (if isBeat interval b.id then t.desk.hub.noteHeartbeat t.request.place
        else (t.desk.hub.send t.request.place (reply b).bytes).2) := by
  have hanswers := Block.answers_bytes_append hb []
  rw [List.append_nil, ← hblock] at hanswers
  simp only [Turn.perform, hanswers.id, hanswers.bodyBytes, beat?_eq_some_iff]
  split
  · rfl
  · simp only [Except.bind, packRaw_reply hb, Turn.sendPacked, Turn.snd_trying]
    rfl

theorem proceed_eq {t : Turn} {budget : Nat} (hbudget : Turn.budgetOf t.request.chain = budget) :
    t.proceed = t.advance budget := by
  rw [Turn.proceed, hbudget]

/-- How the chain of a request ends. -/
theorem proceed_served (hb : b.Fits) (interval : Option Nat) (desk : Desk) (c : Place) :
    let t := Turn.proceed ⟨desk, Request.ofBlock c b.bytes [handler interval.isSome], false⟩
    t.broken = false ∧ t.request.aborted = false ∧
      t.desk = { desk with
        hub := if isBeat interval b.id then desk.hub.noteHeartbeat c
          else (desk.hub.send c (reply b).bytes).2 } := by
  generalize hchain : [handler interval.isSome] = chain
  let t : Turn := ⟨desk, Request.ofBlock c b.bytes chain, false⟩
  have hbudget : Turn.budgetOf chain = 100000 + 1 := by
    rw [← hchain, Turn.budgetOf, List.length_singleton]
  have hnext : t.upcoming? = some (handler interval.isSome) := by
    show chain[0]? = _
    rw [← hchain, List.getElem?_cons_zero]
  have hstep := Turn.foldl_step_single (t := t) (Turn.advance 100000) rfl 0
    (.sendBack (beat? interval.isSome))
  rw [perform_handler hb _ rfl] at hstep
  have hrun : t.proceed = Turn.advance 100000 _ :=
    (proceed_eq hbudget).trans ((Turn.advance_of_some hnext).trans (congrArg _ hstep))
  have hends := hrun.trans (Turn.advance_of_none (by
    show chain[1]? = none
    rw [← hchain, List.getElem?_cons_succ, List.getElem?_nil]))
  exact ⟨congrArg Turn.broken hends, congrArg (·.request.aborted) hends, congrArg Turn.desk hends⟩

/-- **What a request comes to**, whatever its header says. -/
theorem dispatch_served (hb : b.Fits) (interval : Option Nat) (desk : Desk) (c : Place) :
    desk.dispatch (served interval).router c b.bytes =
      (.completed, { desk with
        hub := if isBeat interval b.id then desk.hub.noteHeartbeat c
          else (desk.hub.send c (reply b).bytes).2 }) := by
  rw [Desk.dispatch, resolve_served]
  obtain ⟨hbroken, haborted, hdesk⟩ := proceed_served hb interval desk c
  dsimp only at *
  rw [hbroken, haborted, hdesk]
  rfl

/-- **What a request comes to**: it is counted as a heartbeat, or its body is sent back. -/
theorem runRequest_served (hb : b.Fits) {x : Exchange} (hplan : x.plan = served interval)
    (c : Place) :
    x.runRequest c b.bytes = (false,
      { x with desk := ⟨if isBeat interval b.id then x.hub.noteHeartbeat c
        else (x.hub.send c (reply b).bytes).2, x.desk.uses, []⟩ }) := by
  rw [Exchange.runRequest, hplan, dispatch_served hb]
  rfl

end Echo

end Switchboard
