import Switchboard.Session.Hub

/-!
# Proofs/Session/Places — what an operation changes, and at which place

An operation on the hub changes connections one at a time, queues one at a time, and entries of the
pool one at a time.  The lemmas say of each operation what it does to what the others look at: the
connection at a place (`connection_modify`), its queue (`queueOf_modifyQueue`, `send_of_room`,
`takeReply_eq_some_iff`), and who is online under a name (`onlineAt_online`, `onlineAt_offline`,
`onlineAt_forget`).
-/

namespace Switchboard

namespace Hub

variable {hub : Hub} {c d : Place} {u v : String}

/-! ## Connections -/

/-- **A change at a place is seen there and nowhere else**, and not where nobody is. -/
theorem connection_modify (hub : Hub) (c : Place) (f : Connection → Connection) (d : Place) :
    (hub.modify c f).connection d =
      if c = d ∧ d < hub.connections.length then f (hub.connection d) else hub.connection d := by
  unfold connection modify
  rw [List.getD_eq_getElem?_getD, List.getD_eq_getElem?_getD, List.getElem?_modify]
  rcases Nat.lt_or_ge d hub.connections.length with hd | hd
  · rw [List.getElem?_eq_getElem hd]
    by_cases hcd : c = d
    · simp [hcd, hd]
    · simp [hcd]
  · rw [List.getElem?_eq_none hd, if_neg fun h => Nat.not_lt.mpr hd h.2]
    simp

@[simp] theorem length_modify (hub : Hub) (c : Place) (f : Connection → Connection) :
    (hub.modify c f).connections.length = hub.connections.length :=
  List.length_modify ..

/-- What a change keeps of each connection, it keeps of all. -/
theorem field_modify {α : Type} (g : Connection → α) {f : Connection → Connection}
    (hf : ∀ conn, g (f conn) = g conn) (hub : Hub) (c d : Place) :
    g ((hub.modify c f).connection d) = g (hub.connection d) := by
  rw [connection_modify]
  split
  · exact hf _
  · rfl

/-- A connection that was added is at its place. -/
theorem connection_addConnection (hub : Hub) (conn : Connection) :
    (hub.addConnection conn).2.connection (hub.addConnection conn).1 = conn := by
  simp [addConnection, connection]

/-- A closed connection stays closed, and nobody else's is closed. -/
theorem closed_close (hub : Hub) (c d : Place) :
    ((hub.close c).connection d).closed =
      (decide (c = d ∧ d < hub.connections.length) || (hub.connection d).closed) := by
  rw [close, connection_modify]
  split
  · rename_i h
    rw [decide_eq_true h, Bool.true_or]
  · rename_i h
    rw [decide_eq_false h, Bool.false_or]

/-- A close leaves the name that a connection has in mind. -/
@[simp] theorem username_close (hub : Hub) (c d : Place) :
    ((hub.close c).connection d).username = (hub.connection d).username :=
  field_modify Connection.username (f := fun conn => { conn with closed := true }) (fun _ => rfl)
    hub c d

/-! ## Queues -/

/-- A queue that was added has its number. -/
theorem queue_addQueue (hub : Hub) (capacity : Nat) :
    (hub.addQueue capacity).2.queue (hub.addQueue capacity).1 = .ofCapacity capacity := by
  simp [addQueue, queue]

/-- The queue of the connection at a place. -/
def queueOf (hub : Hub) (c : Place) : ReplyQueue := hub.queue (hub.connection c).queue

/-- There is a connection at the place, and it has a queue. -/
structure Seated (hub : Hub) (c : Place) : Prop where
  place : c < hub.connections.length
  queue : (hub.connection c).queue < hub.queues.length

/-- A queue may change without its connections losing it. -/
theorem Seated.modifyQueue (h : hub.Seated c) (q : Nat) (f : ReplyQueue → ReplyQueue) :
    (hub.modifyQueue q f).Seated c where
  place := h.place
  queue := by
    rw [Hub.modifyQueue, List.length_modify]
    exact h.queue

/-- What is done to the queue of a seated connection is seen in it. -/
theorem queueOf_modifyQueue (h : hub.Seated c) (f : ReplyQueue → ReplyQueue) :
    (hub.modifyQueue (hub.connection c).queue f).queueOf c = f (hub.queueOf c) := by
  have hq := h.queue
  show ((hub.queues.modify (hub.connection c).queue f).getD (hub.connection c).queue default) =
    f (hub.queues.getD (hub.connection c).queue default)
  simp [List.getD_eq_getElem?_getD, hq]

/-- A close unseats nobody. -/
theorem Seated.close (h : hub.Seated c) (d : Place) : (hub.close d).Seated c where
  place := (length_modify hub d _).symm ▸ h.place
  queue := (field_modify Connection.queue (f := fun conn => { conn with closed := true })
    (fun _ => rfl) hub d c).symm ▸ h.queue

@[simp] theorem queueOf_close (hub : Hub) (c d : Place) :
    (hub.close c).queueOf d = hub.queueOf d :=
  congrArg hub.queue <| field_modify Connection.queue
    (f := fun conn => { conn with closed := true }) (fun _ => rfl) hub c d

/-- Who is seated is closed by a close. -/
theorem Seated.closed_close (h : hub.Seated c) : ((hub.close c).connection c).closed = true := by
  rw [Hub.closed_close, decide_eq_true ⟨rfl, h.place⟩, Bool.true_or]

/-- An abandoned queue can be abandoned again. -/
theorem abandonQueue_abandonQueue (hub : Hub) (c : Place) :
    (hub.abandonQueue c).abandonQueue c = hub.abandonQueue c :=
  congrArg (fun queues => { hub with queues := queues }) (List.modify_modify_eq ..)

/-- There is no reply to take exactly from an empty queue. -/
theorem takeReply_eq_none_iff : hub.takeReply c = none ↔ (hub.queueOf c).replies = [] := by
  show (hub.queueOf c).take?.map _ = none ↔ _
  rw [Option.map_eq_none_iff, ReplyQueue.take?]
  split <;> simp [*]

/-- **The reply that was queued first is taken**, and the others stay in order. -/
theorem takeReply_eq_some_iff {reply : Reply} {hub' : Hub} :
    hub.takeReply c = some (reply, hub') ↔
      ∃ rest, (hub.queueOf c).replies = reply :: rest ∧
        hub' = hub.modifyQueue (hub.connection c).queue fun _ =>
          { hub.queueOf c with replies := rest } := by
  show (hub.queueOf c).take?.map _ = _ ↔ _
  rw [ReplyQueue.take?]
  split
  · rename_i hnil
    simp [hnil]
  · rename_i first rest hcons
    rw [hcons, Option.map_some, Option.some_inj, Prod.mk.injEq]
    constructor
    · rintro ⟨rfl, rfl⟩
      exact ⟨rest, rfl, rfl⟩
    · rintro ⟨_, heq, rfl⟩
      obtain ⟨rfl, rfl⟩ := List.cons.inj heq
      exact ⟨rfl, rfl⟩

/-- Nothing is queued for a closed connection. -/
theorem send_of_closed (h : (hub.connection c).closed = true) (block : Bytes) :
    hub.send c block = (.error (.closed (hub.connection c).id), hub) :=
  if_pos h

/-- A block that finds the queue full is dropped, and the connection closed. -/
theorem send_of_full (h : (hub.connection c).closed = false)
    (hreader : (hub.queueOf c).hasReader = true)
    (hfull : (hub.queueOf c).capacity ≤ (hub.queueOf c).replies.length) (block : Bytes) :
    hub.send c block = (.error (.queueFull (hub.connection c).id), hub.close c) := by
  rw [queueOf] at hreader hfull
  simp [send, h, ReplyQueue.offer, hreader, hfull]

/-- The hub with one more block queued for a connection, behind the others. -/
def enqueue (hub : Hub) (c : Place) (block : Bytes) : Hub :=
  hub.modifyQueue (hub.connection c).queue fun _ =>
    { hub.queueOf c with
      replies := (hub.queueOf c).replies ++ [⟨block, (hub.connection c).receiver⟩] }

/-- A block that is queued stands behind the others, with its receiver. -/
theorem queueOf_enqueue (h : hub.Seated c) (block : Bytes) :
    (hub.enqueue c block).queueOf c =
      { hub.queueOf c with
        replies := (hub.queueOf c).replies ++ [⟨block, (hub.connection c).receiver⟩] } :=
  queueOf_modifyQueue h _

/-- A block that finds room is queued. -/
theorem send_of_room (h : (hub.connection c).closed = false)
    (hreader : (hub.queueOf c).hasReader = true)
    (hroom : (hub.queueOf c).replies.length < (hub.queueOf c).capacity) (block : Bytes) :
    hub.send c block = (.ok (), hub.enqueue c block) := by
  rw [queueOf] at hreader hroom
  simp [send, h, ReplyQueue.offer, hreader, Nat.not_le.mpr hroom, enqueue, queueOf]

/-! ## The pool -/

/-- With a pool, who is online is who is entered. -/
theorem onlineAt_of_pool {pool : Pool} (hpool : hub.pool = some pool) (u : String) :
    hub.onlineAt u = pool.get? u := by
  rw [onlineAt, hpool, Option.bind_some]

/-- Is the entry under this name, as far as numbers tell, the connection's own? -/
def Owns (hub : Hub) (c : Place) (u : String) : Prop :=
  ∃ d, hub.onlineAt u = some d ∧ (hub.connection d).id = (hub.connection c).id

/-- The test by number is ownership. -/
theorem owns_iff {pool : Pool} (hpool : hub.pool = some pool) :
    hub.owns pool c u = true ↔ hub.Owns c u := by
  rw [owns, Owns, onlineAt_of_pool hpool]
  cases pool.get? u with
  | none => simp
  | some d => simp [sameConnection]

/-- Will the connection give this entry up when it goes away: is it the one under the name that the
connection has in mind, and its own? -/
def Holds (hub : Hub) (c : Place) (u : String) : Prop :=
  (hub.connection c).username = some u ∧ hub.Owns c u

/-- **Removing one's own entry** leaves the entries of others. -/
theorem onlineAt_evict :
    (hub.evict v d).onlineAt u = some c ↔ ¬(u = v ∧ hub.Owns d u) ∧ hub.onlineAt u = some c := by
  unfold evict
  split
  · rename_i pool hpool
    have howns := owns_iff (c := d) (u := v) hpool
    split
    · rename_i hown
      rw [onlineAt_of_pool rfl, onlineAt_of_pool hpool, KeyMap.get?_erase]
      by_cases huv : u = v
      · subst huv
        simp [howns.mp hown]
      · simp [huv]
    · rename_i hown
      refine (and_iff_right_of_imp fun _ h => hown (howns.mpr ?_)).symm
      exact h.1 ▸ h.2
  · rename_i hnone
    refine (and_iff_right_of_imp fun honline => ?_).symm
    rw [onlineAt, hnone] at honline
    exact nomatch honline

/-- **Giving up** removes the entry under the name in mind, if it is the connection's own. -/
theorem onlineAt_giveUp :
    (hub.giveUp v d).onlineAt u = some c ↔
      ¬(u ≠ v ∧ hub.Holds d u) ∧ hub.onlineAt u = some c := by
  unfold giveUp
  split
  · rename_i previous hname
    have hholds : hub.Holds d u ↔ u = previous ∧ hub.Owns d u := by
      rw [Holds, hname, Option.some_inj, eq_comm]
    split
    · rename_i hne
      rw [onlineAt_evict, hholds]
      grind
    · rename_i hsame
      rw [Decidable.not_not] at hsame
      rw [hholds]
      grind
  · rename_i hname
    simp [Holds, hname]

/-- Whoever enters is under the name, and nobody else is moved. -/
theorem onlineAt_enter (hpool : hub.pool.isSome) :
    (hub.enter v d).onlineAt u = some c ↔ (u = v ∧ c = d) ∨ (u ≠ v ∧ hub.onlineAt u = some c) := by
  obtain ⟨pool, hpool⟩ := Option.isSome_iff_exists.mp hpool
  have hinserted : (hub.enter v d).pool = some (pool.insert v d) := by
    show hub.pool.map _ = _
    rw [hpool]
    rfl
  rw [onlineAt_of_pool hinserted, onlineAt_of_pool hpool, KeyMap.get?_insert]
  by_cases huv : u = v
  · rw [if_pos huv, Option.some_inj]
    simp [huv, eq_comm]
  · simp [huv]

/-- **Nothing but entries of the pool differ.** -/
def OnlyPool (hub hub' : Hub) : Prop :=
  ∃ pool, hub' = { hub with pool := pool } ∧ pool.isSome = hub.pool.isSome

theorem OnlyPool.refl (hub : Hub) : OnlyPool hub hub := ⟨hub.pool, rfl, rfl⟩

theorem OnlyPool.connections {hub' : Hub} (h : OnlyPool hub hub') :
    hub'.connections = hub.connections := by
  obtain ⟨pool, rfl, -⟩ := h
  rfl

/-- Connections do not see what is entered in the pool. -/
theorem OnlyPool.connection {hub' : Hub} (h : OnlyPool hub hub') (c : Place) :
    hub'.connection c = hub.connection c := by
  obtain ⟨pool, rfl, -⟩ := h
  rfl

/-- A pool does not come or go. -/
theorem OnlyPool.isSome {hub' : Hub} (h : OnlyPool hub hub') :
    hub'.pool.isSome = hub.pool.isSome := by
  obtain ⟨pool, rfl, hsome⟩ := h
  exact hsome

/-- Removing an entry of one's own is about the pool alone. -/
theorem onlyPool_evict (hub : Hub) (v : String) (d : Place) : OnlyPool hub (hub.evict v d) := by
  unfold evict
  split
  · rename_i pool hpool
    split
    · exact ⟨_, rfl, by rw [hpool]; rfl⟩
    · exact .refl hub
  · exact .refl hub

/-- Giving up the name that one had in mind is about the pool alone. -/
theorem onlyPool_giveUp (hub : Hub) (v : String) (d : Place) : OnlyPool hub (hub.giveUp v d) := by
  unfold giveUp
  split
  · split
    · exact onlyPool_evict ..
    · exact .refl hub
  · exact .refl hub

/-- Removing an entry, whosever it is, closes nobody yet. -/
theorem onlyPool_removeEntry (hub : Hub) (v : String) : OnlyPool hub (hub.removeEntry v).2 := by
  unfold removeEntry
  split
  · exact .refl hub
  · exact ⟨_, rfl, Option.isSome_map⟩

/-- A connection that goes away leaves the pool; its state is as it was. -/
theorem onlyPool_forget (hub : Hub) (d : Place) : OnlyPool hub (hub.forget d) := by
  unfold forget
  split
  · exact onlyPool_evict ..
  · exact .refl hub

/-- Entering is to have the name in mind, and an entry. -/
theorem onlyPool_enter (hub : Hub) (v : String) (d : Place) :
    OnlyPool (hub.setName (some v) d) (hub.enter v d) := ⟨_, rfl, Option.isSome_map⟩

/-- With a pool, who comes online gives up the name it had and is entered under the new one. -/
theorem online_of_pool (hpool : hub.pool.isSome) (v : String) (d : Place) :
    hub.online v d = (hub.giveUp v d).enter v d := by
  obtain ⟨pool, hpool⟩ := Option.isSome_iff_exists.mp hpool
  rw [online, hpool]

/-- **Coming online** puts the connection under its name and takes it from under its previous
one. -/
theorem onlineAt_online (hpool : hub.pool.isSome) :
    (hub.online v d).onlineAt u = some c ↔
      (u = v ∧ c = d) ∨ (u ≠ v ∧ ¬hub.Holds d u ∧ hub.onlineAt u = some c) := by
  rw [online_of_pool hpool, onlineAt_enter ((onlyPool_giveUp ..).isSome.trans hpool),
    onlineAt_giveUp]
  grind

/-- **Going away** gives up the entry under the name in mind, if it is the connection's own. -/
theorem onlineAt_forget :
    (hub.forget d).onlineAt u = some c ↔ ¬hub.Holds d u ∧ hub.onlineAt u = some c := by
  unfold forget
  split
  · rename_i user hname
    rw [onlineAt_evict, Holds, hname, Option.some_inj, eq_comm (a := user)]
  · rename_i hname
    simp [Holds, hname]

/-- Removing an entry leaves all others. -/
theorem onlineAt_removeEntry :
    (hub.removeEntry v).2.onlineAt u = some c ↔ u ≠ v ∧ hub.onlineAt u = some c := by
  unfold removeEntry
  split
  · rename_i hnone
    refine (and_iff_right_of_imp fun honline huv => ?_).symm
    subst huv
    exact nomatch honline.symm.trans hnone
  · rename_i d hsome
    obtain ⟨pool, hpool, -⟩ := Option.bind_eq_some_iff.mp hsome
    have herased : (hub.pool.map fun (pool : Pool) => pool.erase v) = some (pool.erase v) := by
      rw [hpool]
      rfl
    rw [onlineAt_of_pool herased, onlineAt_of_pool hpool, KeyMap.get?_erase]
    by_cases huv : u = v <;> simp [huv]

/-- The entry that is removed is the one there was. -/
@[simp] theorem fst_removeEntry (hub : Hub) (v : String) :
    (hub.removeEntry v).1 = hub.onlineAt v := by
  unfold removeEntry
  split <;> simp [*]

/-- Without an entry, to take a name offline does nothing. -/
theorem offline_of_none (h : hub.onlineAt v = none) : hub.offline v = (none, hub) := by
  rw [offline, removeEntry, h]

/-- **The connection of the entry is closed and forgets its name**, whoever asked for it. -/
theorem offline_of_some (h : hub.onlineAt v = some d) :
    hub.offline v = (some d, ((hub.removeEntry v).2.setName none d).close d) := by
  rw [offline, removeEntry, h]

/-- **Taking a name offline** removes the entry under it and no other. -/
theorem onlineAt_offline :
    (hub.offline v).2.onlineAt u = some c ↔ u ≠ v ∧ hub.onlineAt u = some c := by
  rw [← onlineAt_removeEntry]
  cases h : hub.onlineAt v with
  | none =>
    rw [offline_of_none h, removeEntry, h]
  | some d =>
    rw [offline_of_some h]
    rfl

/-! ## Names and flags of connections -/

@[simp] theorem length_setName (hub : Hub) (name : Option String) (d : Place) :
    (hub.setName name d).connections.length = hub.connections.length := length_modify ..

/-- Who forgets a name is as open as before. -/
@[simp] theorem closed_setName (hub : Hub) (name : Option String) (d c : Place) :
    ((hub.setName name d).connection c).closed = (hub.connection c).closed :=
  field_modify Connection.closed (f := fun conn => { conn with username := name }) (fun _ => rfl)
    hub d c

/-- Setting a name looks at connections only. -/
theorem connection_setName_of_connections {hub' : Hub} (h : hub'.connections = hub.connections)
    (name : Option String) (d c : Place) :
    (hub'.setName name d).connection c = (hub.setName name d).connection c := by
  show (hub'.connections.modify d _).getD c default = _
  rw [h]
  rfl

/-- Of the connections, coming online changes the name of the one that comes. -/
theorem connection_online (hpool : hub.pool.isSome) (v : String) (d c : Place) :
    (hub.online v d).connection c = (hub.setName (some v) d).connection c := by
  rw [online_of_pool hpool, (onlyPool_enter ..).connection]
  exact connection_setName_of_connections (onlyPool_giveUp ..).connections _ d c

/-- Going away changes no connection. -/
theorem connection_forget (hub : Hub) (d c : Place) :
    (hub.forget d).connection c = hub.connection c := (onlyPool_forget hub d).connection c

/-- Of the connections, an entry taken offline changes the one it was for. -/
theorem connection_offline (h : hub.onlineAt v = some d) (c : Place) :
    (hub.offline v).2.connection c = ((hub.setName none d).close d).connection c := by
  rw [offline_of_some h]
  show (((hub.removeEntry v).2.connections.modify d _).modify d _).getD c default = _
  rw [(onlyPool_removeEntry hub v).connections]
  rfl

end Hub

end Switchboard
