import Switchboard.Proofs.Session.Apart

/-!
# Proofs/Session/Marks — what watches look at

A watch sees two marks of a connection: whether a heartbeat waits to be noted, and how far
the authentication has come.  Queues, the pool, values and closing leave the marks of all
connections alone (`Hub.SameMarks`).  A handler changes them at its own place, by the one thing its
action tells the watches (`Action.tidings?`), and by nothing else (`Hub.marks_perform`).
-/

namespace Switchboard

/-! ## Tidings -/

/-- How an authentication was decided. -/
inductive Decision where
  | pass
  | deny
deriving Repr, DecidableEq

/-- The state that a decision leaves. -/
def Decision.state : Decision → AuthState
  | pass => .passed
  | deny => .denied

/-- The decision that left a state, if there was one. -/
def AuthState.decision? : AuthState → Option Decision
  | pending => none
  | passed => some .pass
  | denied => some .deny

/-- Nothing is decided exactly while it is pending. -/
theorem AuthState.decision?_eq_none_iff {state : AuthState} :
    state.decision? = none ↔ state = .pending := by
  cases state <;> simp [decision?]

/-- A state tells the decision that left it. -/
theorem AuthState.decision?_eq_some_iff {state : AuthState} {d : Decision} :
    state.decision? = some d ↔ state = d.state := by
  cases state <;> cases d <;> simp [decision?, Decision.state]

/-- What a handler tells the watches over its connection. -/
inductive Tidings where
  /-- There was a heartbeat. -/
  | beat
  /-- The authentication was decided. -/
  | decides (d : Decision)
deriving Repr, DecidableEq

/-- **What an action tells** that serves a request with this block. -/
def Action.tidings? (block : Bytes) : Action → Option Tidings
  | .noteHeartbeat => some .beat
  | .sendBack beat =>
    match Block.idOf block with
    | .ok id => if beat = some id then some .beat else none
    | .error _ => none
  | .passAuth => some (.decides .pass)
  | .denyAuth => some (.decides .deny)
  | _ => none

/-- What the watches over a connection look at. -/
structure Mark where
  /-- Does a heartbeat wait to be noted? -/
  heartbeat : Bool
  /-- How far the authentication has come. -/
  auth : AuthState
deriving Repr, DecidableEq

/-- The marks once the watches were told something, or nothing. -/
def Mark.after (m : Mark) : Option Tidings → Mark
  | none => m
  | some .beat => { m with heartbeat := true }
  | some (.decides d) => { m with auth := d.state }

/-- Nothing but a heartbeat touches the one, -/
theorem Mark.heartbeat_after {m : Mark} {told : Option Tidings} (h : told ≠ some .beat) :
    (m.after told).heartbeat = m.heartbeat := by
  unfold after
  split
  · rfl
  · exact absurd rfl h
  · rfl

/-- and nothing but a decision the other. -/
theorem Mark.auth_after {m : Mark} {told : Option Tidings} (h : ∀ d, told ≠ some (.decides d)) :
    (m.after told).auth = m.auth := by
  unfold after
  split
  · rfl
  · rfl
  · exact absurd rfl (h _)

/-- The marks of a connection. -/
def Connection.mark (c : Connection) : Mark := ⟨c.heartbeat, c.auth⟩

namespace Hub

variable {hub hub' hub'' : Hub} {c d : Place}

/-- The marks of the connection at a place. -/
def mark (hub : Hub) (c : Place) : Mark := (hub.connection c).mark

/-! ## What leaves marks alone -/

/-- **All marks are the same.** -/
structure SameMarks (hub hub' : Hub) : Prop where
  mark : ∀ c, hub'.mark c = hub.mark c

theorem SameMarks.refl (hub : Hub) : SameMarks hub hub := ⟨fun _ => rfl⟩

theorem SameMarks.trans (h : SameMarks hub hub') (h' : SameMarks hub' hub'') :
    SameMarks hub hub'' :=
  ⟨fun c => (h'.mark c).trans (h.mark c)⟩

/-- Marks are the connections' own. -/
theorem sameMarks_of_connections (h : hub'.connections = hub.connections) : SameMarks hub hub' :=
  ⟨fun c => by rw [mark, mark, connection, connection, h]⟩

/-- A change to something else about one connection. -/
theorem sameMarks_modify (hub : Hub) (c : Place) {f : Connection → Connection}
    (hf : ∀ conn, (f conn).mark = conn.mark) : SameMarks hub (hub.modify c f) :=
  ⟨field_modify Connection.mark hf hub c⟩

theorem sameMarks_close (hub : Hub) (c : Place) : SameMarks hub (hub.close c) :=
  sameMarks_modify hub c fun _ => rfl

/-- Taking a reply from a queue marks nothing. -/
theorem sameMarks_takeReply {reply : Reply} (h : hub.takeReply c = some (reply, hub')) :
    SameMarks hub hub' := by
  obtain ⟨rest, -, rfl⟩ := takeReply_eq_some_iff.mp h
  exact sameMarks_of_connections rfl

/-- A send may close the connection, and marks nothing. -/
theorem sameMarks_send (hub : Hub) (c : Place) (block : Bytes) :
    SameMarks hub (hub.send c block).2 := by
  unfold send
  dsimp only
  split
  · exact .refl hub
  · split
    · exact sameMarks_of_connections rfl
    · exact .refl hub
    · exact sameMarks_close hub c

theorem sameMarks_sendPacked (hub : Hub) (c : Place) (packed : Except WireError Bytes) :
    SameMarks hub (hub.sendPacked c packed).2 := by
  cases packed with
  | error e => exact .refl hub
  | ok block => exact sameMarks_send hub c block

theorem sameMarks_setName (hub : Hub) (name : Option String) (c : Place) :
    SameMarks hub (hub.setName name c) :=
  sameMarks_modify hub c fun _ => rfl

/-- Who comes online keeps all marks. -/
theorem sameMarks_online (hub : Hub) (user : String) (c : Place) :
    SameMarks hub (hub.online user c) := by
  by_cases hpool : hub.pool.isSome
  · exact ⟨fun d => (congrArg Connection.mark (connection_online hpool user c d)).trans
      ((sameMarks_setName hub (some user) c).mark d)⟩
  · rw [Hub.online, Option.not_isSome_iff_eq_none.mp hpool]
    exact .refl hub

/-- Who is taken offline keeps all marks. -/
theorem sameMarks_offline (hub : Hub) (user : String) : SameMarks hub (hub.offline user).2 := by
  cases honline : hub.onlineAt user with
  | none =>
    rw [offline_of_none honline]
    exact .refl hub
  | some c =>
    refine ⟨fun d => (congrArg Connection.mark (connection_offline honline d)).trans ?_⟩
    exact ((sameMarks_setName hub none c).trans (sameMarks_close _ c)).mark d

theorem sameMarks_goOffline (hub : Hub) (c : Place) : SameMarks hub (Turn.goOffline c hub) := by
  unfold Turn.goOffline
  split
  · exact sameMarks_offline ..
  · exact sameMarks_close hub c

theorem sameMarks_forget (hub : Hub) (c : Place) : SameMarks hub (hub.forget c) :=
  ⟨fun d => congrArg Connection.mark (connection_forget hub c d)⟩

/-- Closing all who are online leaves their marks. -/
theorem sameMarks_closeAll (hub : Hub) : SameMarks hub hub.closeAll := by
  unfold closeAll
  split
  · exact .refl hub
  · rename_i pool hpool
    generalize pool.entries = entries
    clear hpool
    induction entries generalizing hub with
    | nil => exact .refl hub
    | cons e rest ih => exact (sameMarks_close hub e.2).trans (ih _)

/-! ## What changes marks -/

/-- **A handler tells the watches at its own place** what its action tells, and leaves all other
marks alone. -/
structure Marks (c : Place) (told : Option Tidings) (hub hub' : Hub) : Prop where
  mark : ∀ d < hub.connections.length,
    hub'.mark d = if d = c then (hub.mark d).after told else hub.mark d

/-- Who tells nothing changes no mark. -/
theorem SameMarks.marks (h : SameMarks hub hub') (c : Place) : Marks c none hub hub' := by
  refine ⟨fun d _ => ?_⟩
  rw [h.mark d]
  split <;> rfl

/-- What changes one connection's marks tells its watches so. -/
theorem marks_modify (hub : Hub) (c : Place) {f : Connection → Connection} {told : Tidings}
    (hf : ∀ conn, (f conn).mark = conn.mark.after (some told)) :
    Marks c (some told) hub (hub.modify c f) := by
  refine ⟨fun d hd => ?_⟩
  rw [mark, connection_modify]
  by_cases hdc : d = c
  · rw [if_pos ⟨hdc.symm, hd⟩, if_pos hdc, hf]
    rfl
  · rw [if_neg fun h => hdc h.1.symm, if_neg hdc]
    rfl

/-- **A heartbeat is told at its own place.** -/
theorem marks_noteHeartbeat (hub : Hub) (c : Place) :
    Marks c (some .beat) hub (hub.noteHeartbeat c) :=
  marks_modify hub c fun _ => rfl

/-- **A decision is told at its own place.** -/
theorem marks_setAuth (hub : Hub) (c : Place) (d : Decision) :
    Marks c (some (.decides d)) hub (hub.setAuth c d.state) :=
  marks_modify hub c fun _ => rfl

/-- What an action by way of the pool does. -/
theorem sameMarks_withPool {t : Turn} {f : Hub → Except SessionError Unit × Hub}
    (h : SameMarks t.desk.hub (f t.desk.hub).2) :
    SameMarks t.desk.hub (t.withPool f).2.desk.hub := by
  rw [Turn.withPool, Turn.snd_trying, Turn.hub_withHub]
  split
  · exact h
  · exact .refl _

/-- A reply tells the watches nothing. -/
theorem sameMarks_reply (t : Turn) (packed : Except WireError Bytes) :
    SameMarks t.desk.hub (t.sendPacked packed).2.desk.hub := by
  rw [Turn.sendPacked, Turn.snd_trying, Turn.hub_withHub]
  exact sameMarks_sendPacked ..

/-- **Every action** tells what it tells. -/
theorem marks_perform (t : Turn) (a : Action) :
    Marks t.request.place (a.tidings? t.request.block) t.desk.hub
      (Turn.perform id a t).2.desk.hub := by
  cases a with
  | messageId | header | urlPattern | bind | bindWith =>
    refine SameMarks.marks ?_ _
    simp only [Turn.perform, Turn.snd_viewing]
    exact .refl _
  | reply | replyRaw | replyJson | replyUrl | fill => exact (sameMarks_reply ..).marks _
  | online user => exact (sameMarks_withPool (sameMarks_online ..)).marks _
  | offline => exact (sameMarks_withPool (sameMarks_goOffline ..)).marks _
  | sendToUser user id body headers =>
    refine (sameMarks_withPool ?_).marks _
    split
    · exact .refl _
    · unfold sendTo
      split
      · exact sameMarks_send ..
      · exact .refl _
  | upper id =>
    refine SameMarks.marks ?_ _
    unfold Turn.perform
    dsimp only
    split
    · exact .refl _
    · exact sameMarks_reply ..
  | sendBack beat =>
    unfold Turn.perform Action.tidings?
    dsimp only
    cases Block.idOf t.request.block with
    | error e => exact (SameMarks.refl _).marks _
    | ok id =>
      dsimp only
      split
      · exact marks_noteHeartbeat ..
      · exact (sameMarks_reply ..).marks _
  | noteHeartbeat => exact marks_noteHeartbeat ..
  | passAuth => exact marks_setAuth t.desk.hub t.request.place .pass
  | denyAuth => exact marks_setAuth t.desk.hub t.request.place .deny
  | setConnectionValue key v =>
    exact (sameMarks_modify t.desk.hub t.request.place
      (f := fun c => { c with values := c.values.insert key v }) fun _ => rfl).marks _
  | close => exact (sameMarks_close ..).marks _
  | _ => exact (SameMarks.refl _).marks _

end Hub

end Switchboard
