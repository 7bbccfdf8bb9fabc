import Switchboard.Proofs.Session.Apart
import Switchboard.Proofs.Session.Leaving

/-!
# Proofs/Session/Failing — operations that fail leave nothing behind

What a handler asks of connections and the pool may fail for several reasons at once
(`Operation.Faults`).  The answer names the first of them, in a fixed order
(`SessionError.rank`), and a failed operation changes nothing; only a full queue closes the
connection that was written to.  A block that is sent is queued once, for one connection
(`Operation.comes_perform`).
-/

namespace Switchboard

/-- The order in which reasons to fail are found. -/
def SessionError.rank : SessionError → Nat
  | poolDisabled => 0
  | wire _ => 1
  | unknownUser _ => 2
  | closed _ => 3
  | queueFull _ => 4

namespace Hub

variable {hub hub' : Hub} {c d : Place} {block : Bytes}

/-! ## Sending -/

/-- **One block is queued for a connection**, behind the others, and nothing else changes. -/
structure Appends (c : Place) (block : Bytes) (hub hub' : Hub) : Prop where
  connections : hub'.connections = hub.connections
  pool : hub'.pool = hub.pool
  count : hub'.queues.length = hub.queues.length
  queue : hub'.queueOf c = { hub.queueOf c with
    replies := (hub.queueOf c).replies ++ [⟨block, (hub.connection c).receiver⟩] }
  others : ∀ q ≠ (hub.connection c).queue, hub'.queue q = hub.queue q

/-- **A connection is closed**, and nothing else changes. -/
structure Shuts (c : Place) (hub hub' : Hub) : Prop where
  queues : hub'.queues = hub.queues
  pool : hub'.pool = hub.pool
  count : hub'.connections.length = hub.connections.length
  connection : c < hub.connections.length →
    hub'.connection c = { hub.connection c with closed := true }
  others : ∀ d ≠ c, hub'.connection d = hub.connection d

theorem shuts_close (hub : Hub) (c : Place) : Shuts c hub (hub.close c) where
  queues := rfl
  pool := rfl
  count := length_modify ..
  connection hc := by rw [close, connection_modify, if_pos ⟨rfl, hc⟩]
  others d hd := by rw [close, connection_modify, if_neg fun h => hd h.1.symm]

/-- A queue that somebody takes replies out of is there. -/
theorem lt_of_hasReader {q : Nat} (h : (hub.queue q).hasReader = true) : q < hub.queues.length := by
  rcases Nat.lt_or_ge q hub.queues.length with hq | hq
  · exact hq
  · rw [queue, List.getD_eq_getElem?_getD, List.getElem?_eq_none hq] at h
    cases h

theorem appends_enqueue (h : (hub.queueOf c).hasReader = true) (block : Bytes) :
    Appends c block hub (hub.enqueue c block) where
  connections := rfl
  pool := rfl
  count := List.length_modify ..
  queue := queue_modifyQueue_self hub _ (lt_of_hasReader h)
  others _ hq := queue_modifyQueue_of_ne hub _ fun h => hq h.symm

/-- Does a connection take no more blocks? -/
def IsGone (hub : Hub) (c : Place) : Prop :=
  (hub.connection c).closed = true ∨ (hub.queueOf c).hasReader = false

/-- Has the queue of a connection no room? -/
def IsFull (hub : Hub) (c : Place) : Prop :=
  (hub.queueOf c).capacity ≤ (hub.queueOf c).replies.length

/-- **What becomes of a block**: it is refused by who is gone, dropped before a full queue, or
queued. -/
inductive Sends (hub : Hub) (c : Place) (block : Bytes) :
    Except SessionError Unit × Hub → Prop where
  | gone (h : hub.IsGone c) : Sends hub c block (.error (.closed (hub.connection c).id), hub)
  | full {hub' : Hub} (h : ¬hub.IsGone c) (hfull : hub.IsFull c) (hshuts : Shuts c hub hub') :
    Sends hub c block (.error (.queueFull (hub.connection c).id), hub')
  | queued {hub' : Hub} (h : ¬hub.IsGone c) (hroom : ¬hub.IsFull c)
      (happends : Appends c block hub hub') : Sends hub c block (.ok (), hub')

theorem sends_send (hub : Hub) (c : Place) (block : Bytes) :
    Sends hub c block (hub.send c block) := by
  by_cases hclosed : (hub.connection c).closed = true
  · rw [send_of_closed hclosed]
    exact .gone (.inl hclosed)
  rw [Bool.not_eq_true] at hclosed
  by_cases hreader : (hub.queueOf c).hasReader = true
  · have hhere : ¬hub.IsGone c := by simp [IsGone, hclosed, hreader]
    rcases Nat.lt_or_ge (hub.queueOf c).replies.length (hub.queueOf c).capacity with hroom | hfull
    · rw [send_of_room hclosed hreader hroom]
      exact .queued hhere (Nat.not_le.mpr hroom) (appends_enqueue hreader block)
    · rw [send_of_full hclosed hreader hfull]
      exact .full hhere hfull (shuts_close hub c)
  · rw [Bool.not_eq_true] at hreader
    have hgone : hub.send c block = (.error (.closed (hub.connection c).id), hub) := by
      rw [queueOf] at hreader
      simp [send, hclosed, ReplyQueue.offer, hreader]
    rw [hgone]
    exact .gone (.inr hreader)

end Hub

/-! ## Operations -/

/-- What a handler asks of connections and the pool, and is told whether it went well. -/
inductive Operation where
  | reply (id : Int32) (body : Json) (headers : List Header)
  | replyRaw (id : Int32) (body : Bytes) (headers : List Header)
  | replyJson (id : Int32) (body : Json) (headers : List Header)
  | replyUrl (pattern : String) (body : Json) (headers : List Header)
  | sendToUser (user : String) (id : Int32) (body : Json) (headers : List Header)
  | online (user : String)
  | offline

namespace Operation

/-- The action of a handler that performs the operation. -/
def action : Operation → Action
  | reply id body headers => .reply id body headers
  | replyRaw id body headers => .replyRaw id body headers
  | replyJson id body headers => .replyJson id body headers
  | replyUrl pattern body headers => .replyUrl pattern body headers
  | sendToUser user id body headers => .sendToUser user id body headers
  | online user => .online user
  | offline => .offline

/-- Does the operation work on the pool? -/
def NeedsPool : Operation → Prop
  | sendToUser .. | online _ | offline => True
  | _ => False

/-- The block that the operation sends, if it sends one and that can be packed. -/
def packing? (p : Packer) : Operation → Option (Except WireError Bytes)
  | reply id body headers | sendToUser _ id body headers => some (p.pack id body headers)
  | replyRaw id body headers => some (p.packRaw id body headers)
  | replyJson id body headers => some (Packer.pack ⟨.json⟩ id body headers)
  | replyUrl pattern body headers => some (p.packUrl pattern body headers)
  | online _ | offline => none

/-- The user that the block goes to by name. -/
def addressee? : Operation → Option String
  | sendToUser user .. => some user
  | _ => none

/-- The connection that the block goes to. -/
def target? (op : Operation) (t : Turn) : Option Place :=
  match op with
  | reply .. | replyRaw .. | replyJson .. | replyUrl .. => some t.request.place
  | sendToUser user .. => t.desk.hub.onlineAt user
  | online _ | offline => none

/-- **A reason to fail**, whether or not there are others. -/
inductive Faults (op : Operation) (t : Turn) : SessionError → Prop where
  | poolDisabled (hneeds : op.NeedsPool) (h : ¬t.desk.hub.reachesPool t.request.place = true) :
    op.Faults t .poolDisabled
  | wire {e : WireError} (h : op.packing? t.packer = some (.error e)) : op.Faults t (.wire e)
  | unknownUser {user : String} (haddressee : op.addressee? = some user)
    (h : t.desk.hub.onlineAt user = none) : op.Faults t (.unknownUser user)
  | closed {c : Place} (htarget : op.target? t = some c) (h : t.desk.hub.IsGone c) :
    op.Faults t (.closed (t.desk.hub.connection c).id)
  | queueFull {c : Place} (htarget : op.target? t = some c) (h : t.desk.hub.IsFull c) :
    op.Faults t (.queueFull (t.desk.hub.connection c).id)

/-- The first reason to fail. -/
def FirstFault (op : Operation) (t : Turn) (e : SessionError) : Prop :=
  op.Faults t e ∧ ∀ e', op.Faults t e' → e.rank ≤ e'.rank

/-- **What comes of an operation.** -/
structure Comes (op : Operation) (t : Turn) (r : Answer × Turn) : Prop where
  /-- It fails for the first reason there is, -/
  failed_iff : ∀ e, r.1 = .failed e ↔ op.FirstFault t e
  /-- and succeeds if there is none. -/
  done_iff : r.1 = .done ↔ ∀ e, ¬op.Faults t e
  /-- A failure changes nothing, -/
  unchanged : ∀ e, r.1 = .failed e → (∀ id, e ≠ .queueFull id) → r.2 = t
  /-- except that the connection with the full queue is closed. -/
  shut : ∀ id, r.1 = .failed (.queueFull id) → ∃ c hub, op.target? t = some c ∧
    (t.desk.hub.connection c).id = id ∧ t.desk.hub.Shuts c hub ∧ r.2 = t.withHub hub
  /-- A block that was sent is queued for its receiver. -/
  queued : r.1 = .done → ∀ packing, op.packing? t.packer = some packing →
    ∃ c block hub, op.target? t = some c ∧ packing = .ok block ∧
      t.desk.hub.Appends c block hub ∧ r.2 = t.withHub hub

variable {op : Operation} {t t' : Turn} {e e' : SessionError} {c : Place}

/-- There is one reason of each kind at most. -/
theorem Faults.unique (h : op.Faults t e) (h' : op.Faults t e') (hrank : e.rank = e'.rank) :
    e = e' :=
  match h, h', hrank with
  | .poolDisabled .., .poolDisabled .., _ => rfl
  | .wire h, .wire h', _ =>
    congrArg SessionError.wire (Except.error.inj (Option.some.inj (h.symm.trans h')))
  | .unknownUser h _, .unknownUser h' _, _ =>
    congrArg SessionError.unknownUser (Option.some.inj (h.symm.trans h'))
  | .closed h _, .closed h' _, _ | .queueFull h _, .queueFull h' _, _ => by
    rw [Option.some.inj (h.symm.trans h')]

theorem FirstFault.unique (h : op.FirstFault t e) (h' : op.FirstFault t e') : e = e' :=
  h.1.unique h'.1 (Nat.le_antisymm (h.2 e' h'.1) (h'.2 e h.1))

/-! ## One by one -/

/-- What fails for its first reason, with only a full queue leaving a trace. -/
theorem FirstFault.comes (h : op.FirstFault t e) (hunchanged : (∀ id, e ≠ .queueFull id) → t' = t)
    (hshut : ∀ id, e = .queueFull id → ∃ c hub, op.target? t = some c ∧
      (t.desk.hub.connection c).id = id ∧ t.desk.hub.Shuts c hub ∧ t' = t.withHub hub) :
    op.Comes t (.failed e, t') where
  failed_iff e' := by
    rw [Answer.failed.injEq]
    exact ⟨fun heq => heq ▸ h, h.unique⟩
  done_iff := iff_of_false nofun fun hnone => hnone e h.1
  unchanged e' heq := by
    obtain rfl := Answer.failed.inj heq
    exact hunchanged
  shut id heq := hshut id (Answer.failed.inj heq)
  queued := nofun

/-- What has no reason to fail. -/
theorem comes_done (h : ∀ e, ¬op.Faults t e)
    (hqueued : ∀ packing, op.packing? t.packer = some packing → ∃ c block hub,
      op.target? t = some c ∧ packing = .ok block ∧ t.desk.hub.Appends c block hub ∧
      t' = t.withHub hub) :
    op.Comes t (.done, t') where
  failed_iff e := iff_of_false nofun fun hfirst => h e hfirst.1
  done_iff := iff_of_true rfl h
  unchanged := nofun
  shut := nofun
  queued _ := hqueued

theorem comes_of_poolDisabled (hneeds : op.NeedsPool)
    (h : ¬t.desk.hub.reachesPool t.request.place = true) :
    op.Comes t (.failed .poolDisabled, t) :=
  FirstFault.comes ⟨.poolDisabled hneeds h, fun _ _ => Nat.zero_le _⟩ (fun _ => rfl) nofun

section Packed

variable {packing : Except WireError Bytes} {block : Bytes}
  (hpool : op.NeedsPool → t.desk.hub.reachesPool t.request.place = true)
  (hpacking : op.packing? t.packer = some packing)

include hpool

/-- Who can reach the pool fails for another reason. -/
theorem Faults.rank_pos (h : op.Faults t e) : 0 < e.rank := by
  cases h with
  | poolDisabled hneeds h => exact absurd (hpool hneeds) h
  | _ => exact Nat.succ_pos _

include hpacking

theorem comes_of_error {w : WireError} (h : packing = .error w) :
    op.Comes t (.failed (.wire w), t) :=
  FirstFault.comes ⟨.wire (h ▸ hpacking), fun _ hfault => hfault.rank_pos hpool⟩ (fun _ => rfl)
    nofun

/-- A block that was packed is no reason to fail. -/
theorem Faults.one_lt_rank (h : packing = .ok block) (hfault : op.Faults t e) : 1 < e.rank := by
  cases hfault with
  | poolDisabled hneeds h => exact absurd (hpool hneeds) h
  | wire hwire => exact nomatch (Option.some.inj (hwire.symm.trans hpacking)).trans h
  | _ => simp [SessionError.rank]

theorem comes_of_unknownUser {user : String} (h : packing = .ok block)
    (haddressee : op.addressee? = some user) (hnone : t.desk.hub.onlineAt user = none) :
    op.Comes t (.failed (.unknownUser user), t) :=
  FirstFault.comes ⟨.unknownUser haddressee hnone,
    fun _ hfault => hfault.one_lt_rank hpool hpacking h⟩ (fun _ => rfl) nofun

/-- **A packed block whose receiver is known** is sent there. -/
theorem comes_send (h : packing = .ok block) (htarget : op.target? t = some c)
    (hknown : ∀ user, op.addressee? = some user → t.desk.hub.onlineAt user = some c) :
    op.Comes t (t.trying fun hub => hub.send c block) := by
  -- only the receiver itself is left as a reason
  have hfaults {e : SessionError} (hfault : op.Faults t e) :
      t.desk.hub.IsGone c ∧ e.rank = 3 ∨ t.desk.hub.IsFull c ∧ e.rank = 4 := by
    have hlt := hfault.one_lt_rank hpool hpacking h
    cases hfault with
    | poolDisabled | wire => simp [SessionError.rank] at hlt
    | unknownUser haddressee hnone => cases (hknown _ haddressee).symm.trans hnone
    | closed hd hgone => exact .inl ⟨Option.some.inj (hd.symm.trans htarget) ▸ hgone, rfl⟩
    | queueFull hd hfull => exact .inr ⟨Option.some.inj (hd.symm.trans htarget) ▸ hfull, rfl⟩
  have hsends := t.desk.hub.sends_send c block
  rw [Turn.trying]
  generalize t.desk.hub.send c block = r at hsends
  cases hsends with
  | gone hgone =>
    refine FirstFault.comes ⟨.closed htarget hgone, fun e hfault => ?_⟩ (fun _ => rfl) ?_
    · rcases hfaults hfault with ⟨-, hrank⟩ | ⟨-, hrank⟩
      · exact Nat.le_of_eq hrank.symm
      · exact hrank ▸ Nat.le_succ 3
    · rintro _ ⟨⟩
  | full hhere hfull hshuts =>
    refine FirstFault.comes ⟨.queueFull htarget hfull, fun e hfault => ?_⟩
      (fun hne => absurd rfl (hne _)) ?_
    · rcases hfaults hfault with ⟨hgone, -⟩ | ⟨-, hrank⟩
      · exact absurd hgone hhere
      · exact Nat.le_of_eq hrank.symm
    · rintro _ ⟨⟩
      exact ⟨c, _, htarget, rfl, hshuts, rfl⟩
  | queued hhere hroom happends =>
    refine comes_done (fun e hfault => ?_) fun packing' hpacking' => ?_
    · rcases hfaults hfault with ⟨hgone, -⟩ | ⟨hfull, -⟩
      · exact hhere hgone
      · exact hroom hfull
    · obtain rfl := Option.some.inj (hpacking.symm.trans hpacking')
      exact ⟨c, block, _, htarget, h, happends, rfl⟩

end Packed

/-- A reply goes to the connection of the request. -/
theorem comes_sendPacked {packing : Except WireError Bytes} (hneeds : ¬op.NeedsPool)
    (hpacking : op.packing? t.packer = some packing) (htarget : op.target? t = some t.request.place)
    (hnobody : op.addressee? = none) : op.Comes t (t.sendPacked packing) := by
  have hpool : op.NeedsPool → t.desk.hub.reachesPool t.request.place = true :=
    fun h => absurd h hneeds
  cases packing with
  | error w => exact comes_of_error hpool hpacking rfl
  | ok block =>
    exact comes_send hpool hpacking rfl htarget fun user huser => nomatch hnobody.symm.trans huser

theorem comes_sendToUser (rest : Turn → Turn) (t : Turn) (user : String) (id : Int32) (body : Json)
    (headers : List Header) : Comes (.sendToUser user id body headers) t
      (t.perform rest (.sendToUser user id body headers)) := by
  by_cases hreach : t.desk.hub.reachesPool t.request.place = true
  · rw [Turn.perform, Turn.withPool_of_reaches hreach]
    have hpacked : (sendToUser user id body headers).packing? t.packer =
      some (t.packer.pack id body headers) := rfl
    cases hpacking : t.packer.pack id body headers with
    | error w => exact comes_of_error (fun _ => hreach) hpacked hpacking
    | ok block =>
      cases honline : t.desk.hub.onlineAt user with
      | none =>
        have hnone : (t.trying fun hub => hub.sendTo user block) =
            (.failed (.unknownUser user), t) := by
          simp only [Turn.trying, Hub.sendTo, honline]
          rfl
        exact hnone ▸ comes_of_unknownUser (fun _ => hreach) hpacked hpacking rfl honline
      | some c =>
        have hsome : (t.trying fun hub => hub.sendTo user block) =
            t.trying fun hub => hub.send c block := by
          simp only [Turn.trying, Hub.sendTo, honline]
        refine hsome ▸ comes_send (fun _ => hreach) hpacked hpacking honline ?_
        rintro _ ⟨⟩
        exact honline
  · have hfails :
        t.perform rest (.sendToUser user id body headers) = (.failed .poolDisabled, t) := by
      simp only [Turn.perform, Turn.withPool, Turn.trying, hreach]
      rfl
    exact hfails ▸ comes_of_poolDisabled trivial hreach

/-- What sends nothing has no reason to fail once it can reach the pool. -/
theorem comes_of_reaches (hnothing : op.packing? t.packer = none) (hnobody : op.target? t = none)
    (hanonymous : op.addressee? = none)
    (hreach : t.desk.hub.reachesPool t.request.place = true) : op.Comes t (.done, t') := by
  refine comes_done (fun e hfault => ?_) fun packing hpacking =>
    nomatch hnothing.symm.trans hpacking
  cases hfault with
  | poolDisabled _ h => exact h hreach
  | wire h => exact nomatch hnothing.symm.trans h
  | unknownUser h => exact nomatch hanonymous.symm.trans h
  | closed h | queueFull h => exact nomatch hnobody.symm.trans h

/-- **Operations fail as a whole.**  Whatever connections, queues and pool are like, an operation
fails for the first reason there is and leaves everything as it was, except that a full queue closes
the connection that was written to; it succeeds if there is no reason to fail, and then a block that
was sent is queued once, for its receiver. -/
theorem comes_perform (op : Operation) (rest : Turn → Turn) (t : Turn) :
    op.Comes t (t.perform rest op.action) := by
  cases op with
  | reply | replyRaw | replyJson | replyUrl => exact comes_sendPacked id rfl rfl rfl
  | sendToUser user id body headers => exact comes_sendToUser rest t user id body headers
  | online user =>
    by_cases hreach : t.desk.hub.reachesPool t.request.place = true
    · rw [action, Turn.perform_online hreach]
      exact comes_of_reaches rfl rfl rfl hreach
    · rw [action, Turn.perform_of_not_reaches (.inl ⟨user, rfl⟩) hreach]
      exact comes_of_poolDisabled trivial hreach
  | offline =>
    by_cases hreach : t.desk.hub.reachesPool t.request.place = true
    · rw [action, Turn.perform_offline hreach]
      exact comes_of_reaches rfl rfl rfl hreach
    · rw [action, Turn.perform_of_not_reaches (.inr rfl) hreach]
      exact comes_of_poolDisabled trivial hreach

end Operation

end Switchboard
