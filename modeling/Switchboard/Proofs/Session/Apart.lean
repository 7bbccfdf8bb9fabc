import Switchboard.Proofs.Session.Leaving

/-!
# Proofs/Session/Apart — what is left alone

Whatever is done to a hub is done at a few places: at the place of the request that a handler
serves, or where somebody is online.  Elsewhere connections and their queues stay as they are
(`Hub.OnlyAt`).  What a handler does at one place is little: it changes something that may change
about a connection, or it queues one reply (`Hub.Acts`, `Hub.acts_perform`).

A queue with all its connections is left alone (`Hub.Spares`) by what is done at places with other
queues, and by whoever joins.
-/

namespace Switchboard

namespace Connection

/-- **The connection as it was made**: what never changes about it. -/
def made (c : Connection) : Connection :=
  ofPeer c.id c.network c.peer c.marshaller c.queue c.sharesQueue c.pooled

/-- What never changes about a connection, one by one. -/
structure SameMake (c c' : Connection) : Prop where
  id : c'.id = c.id
  network : c'.network = c.network
  peer : c'.peer = c.peer
  marshaller : c'.marshaller = c.marshaller
  queue : c'.queue = c.queue
  sharesQueue : c'.sharesQueue = c.sharesQueue
  pooled : c'.pooled = c.pooled

/-- Connections that were made alike agree in all that never changes. -/
theorem sameMake_of_made {c c' : Connection} (h : c'.made = c.made) : c.SameMake c' := by
  injection h
  constructor <;> assumption

end Connection

namespace Turn

@[simp] theorem hub_withHub (t : Turn) (hub : Hub) : (t.withHub hub).desk.hub = hub := rfl

/-- To read an entry changes nothing. -/
theorem snd_viewing {α : Type} (t : Turn) (r : Except WireError α) (g : α → Answer) :
    (t.viewing r g).2 = t := by
  cases r <;> rfl

/-- What is tried is done to the hub alone. -/
theorem snd_trying (t : Turn) (g : Hub → Except SessionError Unit × Hub) :
    (t.trying g).2 = t.withHub (g t.desk.hub).2 := by
  unfold trying
  split <;> rename_i hg <;> rw [hg]

end Turn

namespace Hub

variable {hub hub' hub'' : Hub} {c d : Place} {q : Nat} {touched touched' : Place → Prop}

/-! ## Places that are touched -/

/-- **Only connections at these places change**, and only their queues. -/
structure OnlyAt (touched : Place → Prop) (hub hub' : Hub) : Prop where
  length : hub'.connections.length = hub.connections.length
  made : ∀ c, (hub'.connection c).made = (hub.connection c).made
  connection : ∀ c, ¬touched c → hub'.connection c = hub.connection c
  queues : hub'.queues.length = hub.queues.length
  queue : ∀ q, (∀ c, touched c → (hub.connection c).queue ≠ q) → hub'.queue q = hub.queue q

theorem OnlyAt.refl (touched : Place → Prop) (hub : Hub) : OnlyAt touched hub hub :=
  ⟨rfl, fun _ => rfl, fun _ _ => rfl, rfl, fun _ _ => rfl⟩

/-- Two hubs that differ in the pool alone. -/
theorem onlyAt_of_pool (hconnections : hub'.connections = hub.connections)
    (hqueues : hub'.queues = hub.queues) : OnlyAt touched hub hub' := by
  obtain ⟨connections, queues, pool⟩ := hub'
  obtain rfl : connections = hub.connections := hconnections
  obtain rfl : queues = hub.queues := hqueues
  exact ⟨rfl, fun _ => rfl, fun _ _ => rfl, rfl, fun _ _ => rfl⟩

theorem OnlyAt.trans (h : OnlyAt touched hub hub') (h' : OnlyAt touched hub' hub'') :
    OnlyAt touched hub hub'' where
  length := h'.length.trans h.length
  made c := (h'.made c).trans (h.made c)
  connection c hc := (h'.connection c hc).trans (h.connection c hc)
  queues := h'.queues.trans h.queues
  queue q hq := by
    refine (h'.queue q fun c hc => ?_).trans (h.queue q hq)
    rw [(Connection.sameMake_of_made (h.made c)).queue]
    exact hq c hc

/-- More places may be named than change. -/
theorem OnlyAt.mono (h : OnlyAt touched hub hub') (hle : ∀ c, touched c → touched' c) :
    OnlyAt touched' hub hub' where
  length := h.length
  made := h.made
  connection c hc := h.connection c fun ht => hc (hle c ht)
  queues := h.queues
  queue q hq := h.queue q fun c ht => hq c (hle c ht)

/-- A change to what may change about one connection. -/
theorem onlyAt_modify (hub : Hub) (c : Place) {f : Connection → Connection}
    (hf : ∀ conn, (f conn).made = conn.made) : OnlyAt (· = c) hub (hub.modify c f) where
  length := length_modify ..
  made := field_modify Connection.made hf hub c
  connection d hd := by rw [connection_modify, if_neg fun h => hd h.1.symm]
  queues := rfl
  queue _ _ := rfl

/-- A close changes one connection. -/
theorem onlyAt_close (hub : Hub) (c : Place) : OnlyAt (· = c) hub (hub.close c) :=
  onlyAt_modify hub c fun _ => rfl

/-- A change to one queue leaves the others. -/
theorem queue_modifyQueue_of_ne (hub : Hub) {q r : Nat} (f : ReplyQueue → ReplyQueue) (h : q ≠ r) :
    (hub.modifyQueue q f).queue r = hub.queue r := by
  unfold queue modifyQueue
  rw [List.getD_eq_getElem?_getD, List.getD_eq_getElem?_getD, List.getElem?_modify]
  cases hub.queues[r]? <;> simp [h]

/-- A queue that exists is changed as asked. -/
theorem queue_modifyQueue_self (hub : Hub) {q : Nat} (f : ReplyQueue → ReplyQueue)
    (h : q < hub.queues.length) : (hub.modifyQueue q f).queue q = f (hub.queue q) := by
  simp [queue, modifyQueue, List.getD_eq_getElem?_getD, h]

/-- A change to the queue of one connection. -/
theorem onlyAt_modifyQueue (hub : Hub) (c : Place) (f : ReplyQueue → ReplyQueue) :
    OnlyAt (· = c) hub (hub.modifyQueue (hub.connection c).queue f) where
  length := rfl
  made _ := rfl
  connection _ _ := rfl
  queues := List.length_modify ..
  queue _ hq := queue_modifyQueue_of_ne hub f (hq c rfl)

/-- A reply is taken from the queue of the connection. -/
theorem onlyAt_takeReply {reply : Reply} (h : hub.takeReply c = some (reply, hub')) :
    OnlyAt (· = c) hub hub' := by
  obtain ⟨rest, -, rfl⟩ := takeReply_eq_some_iff.mp h
  exact onlyAt_modifyQueue ..

/-- Where only the pool changes, no connection does. -/
theorem OnlyPool.onlyAt {touched : Place → Prop} (h : OnlyPool hub hub') :
    OnlyAt touched hub hub' := by
  obtain ⟨pool, rfl, -⟩ := h
  exact onlyAt_of_pool rfl rfl

theorem onlyAt_setName (hub : Hub) (name : Option String) (c : Place) :
    OnlyAt (· = c) hub (hub.setName name c) :=
  onlyAt_modify hub c (f := fun conn => { conn with username := name }) fun _ => rfl

theorem onlyAt_forget (hub : Hub) (c : Place) : OnlyAt (· = c) hub (hub.forget c) :=
  (onlyPool_forget hub c).onlyAt

/-- **Who comes online takes the name away from nobody's connection**: the one before keeps its
own state. -/
theorem onlyAt_online (hub : Hub) (user : String) (c : Place) :
    OnlyAt (· = c) hub (hub.online user c) := by
  unfold online
  split
  · exact .refl _ hub
  · exact ((onlyPool_giveUp hub user c).onlyAt.trans (onlyAt_setName _ (some user) c)).trans
      (onlyPool_enter _ user c).onlyAt

/-- Is the connection at this place online under any name? -/
def IsOnline (hub : Hub) (c : Place) : Prop := ∃ user, hub.onlineAt user = some c

/-- Taking a name offline touches nobody who is not online. -/
theorem onlyAt_offline (hub : Hub) (user : String) :
    OnlyAt hub.IsOnline hub (hub.offline user).2 := by
  cases honline : hub.onlineAt user with
  | none =>
    rw [offline_of_none honline]
    exact .refl _ hub
  | some c =>
    have hcleared : OnlyAt (· = c) hub ((hub.removeEntry user).2.setName none c) :=
      (onlyPool_removeEntry hub user).onlyAt.trans (onlyAt_setName _ none c)
    rw [offline_of_some honline]
    exact (hcleared.trans (onlyAt_close _ c)).mono fun d hd => hd ▸ ⟨user, honline⟩

/-- To close all is to close who is online. -/
theorem onlyAt_closeAll (hub : Hub) : OnlyAt hub.IsOnline hub hub.closeAll := by
  unfold closeAll
  split
  · exact .refl _ hub
  · rename_i pool hpool
    have hentries : ∀ e ∈ pool.entries, hub.IsOnline e.2 := fun e he =>
      ⟨e.1, by rw [onlineAt, hpool]; exact (KeyMap.find_eq_some_iff pool.rising).mpr he⟩
    generalize hub.IsOnline = touched at hentries ⊢
    generalize pool.entries = entries at hentries
    clear hpool
    induction entries generalizing hub with
    | nil => exact .refl _ hub
    | cons e rest ih =>
      have hclose : OnlyAt touched hub (hub.close e.2) :=
        (onlyAt_close hub e.2).mono fun d hd => hd ▸ hentries e List.mem_cons_self
      exact hclose.trans (ih _ fun e he => hentries e (List.mem_cons_of_mem _ he))

/-! ## What a handler does at one place -/

/-- **What can be done to the hub at one place.** -/
inductive Acts (hub : Hub) (c : Place) : Hub → Prop where
  /-- Nothing is done. -/
  | nothing : Acts hub c hub
  /-- Something changes that may change about the connection. -/
  | changes (f : Connection → Connection) (hf : ∀ conn, (f conn).made = conn.made) :
      Acts hub c (hub.modify c f)
  /-- A reply is queued. -/
  | queues (block : Bytes) (hopen : (hub.connection c).closed = false)
      (hreader : (hub.queueOf c).hasReader = true)
      (hroom : (hub.queueOf c).replies.length < (hub.queueOf c).capacity) :
      Acts hub c (hub.enqueue c block)

/-- What is done at one place is done there only. -/
theorem Acts.onlyAt (h : Acts hub c hub') : OnlyAt (· = c) hub hub' := by
  cases h with
  | nothing => exact .refl _ hub
  | changes f hf => exact onlyAt_modify hub c hf
  | queues block => exact onlyAt_modifyQueue ..

/-- What is done at one place leaves the pool as it is. -/
theorem Acts.pool (h : Acts hub c hub') : hub'.pool = hub.pool := by
  cases h <;> rfl

theorem acts_close (hub : Hub) (c : Place) : Acts hub c (hub.close c) := .changes _ fun _ => rfl

/-- A send queues the block, or closes the connection, or does nothing. -/
theorem acts_send (hub : Hub) (c : Place) (block : Bytes) : Acts hub c (hub.send c block).2 := by
  cases hclosed : (hub.connection c).closed with
  | true =>
    rw [send_of_closed hclosed]
    exact .nothing
  | false =>
    cases hreader : (hub.queueOf c).hasReader with
    | false =>
      have hgone : (hub.queue (hub.connection c).queue).hasReader = false := hreader
      have hsend : hub.send c block = (.error (.closed (hub.connection c).id), hub) := by
        simp [send, hclosed, ReplyQueue.offer, hgone]
      rw [hsend]
      exact .nothing
    | true =>
      rcases Nat.lt_or_ge (hub.queueOf c).replies.length (hub.queueOf c).capacity with hroom | hfull
      · rw [send_of_room hclosed hreader hroom]
        exact .queues block hclosed hreader hroom
      · rw [send_of_full hclosed hreader hfull]
        exact acts_close hub c

/-- A message that cannot be packed is not sent. -/
theorem acts_sendPacked (hub : Hub) (c : Place) (packed : Except WireError Bytes) :
    Acts hub c (hub.sendPacked c packed).2 := by
  cases packed with
  | error e => exact .nothing
  | ok block => exact acts_send hub c block

variable {t : Turn}

/-- What an action by way of the pool comes to. -/
theorem acts_withPool {f : Hub → Except SessionError Unit × Hub}
    (h : t.desk.hub.reachesPool t.request.place = false ∨
      ∃ c, (c = t.request.place ∨ t.desk.hub.IsOnline c) ∧ Acts t.desk.hub c (f t.desk.hub).2) :
    ∃ c, (c = t.request.place ∨
        t.desk.hub.reachesPool t.request.place = true ∧ t.desk.hub.IsOnline c) ∧
      Acts t.desk.hub c (t.withPool f).2.desk.hub := by
  rw [Turn.withPool, Turn.snd_trying, Turn.hub_withHub]
  cases hreach : t.desk.hub.reachesPool t.request.place with
  | false => exact ⟨_, .inl rfl, .nothing⟩
  | true =>
    obtain ⟨c, hc, hacts⟩ := h.resolve_left (by rw [hreach]; decide)
    exact ⟨c, hc.imp id fun honline => ⟨rfl, honline⟩, hacts⟩

/-- **What an action does to the hub** it does at the place of its request, or, if it can reach the
pool, where somebody is online; unless it takes its connection online or offline. -/
theorem acts_perform (t : Turn) {a : Action} (honline : ∀ user, a ≠ .online user)
    (hoffline : a ≠ .offline) :
    ∃ c, (c = t.request.place ∨
        t.desk.hub.reachesPool t.request.place = true ∧ t.desk.hub.IsOnline c) ∧
      Acts t.desk.hub c (Turn.perform id a t).2.desk.hub := by
  have hreply (packed : Except WireError Bytes) : ∃ c, (c = t.request.place ∨
      t.desk.hub.reachesPool t.request.place = true ∧ t.desk.hub.IsOnline c) ∧
        Acts t.desk.hub c (t.sendPacked packed).2.desk.hub := by
    rw [Turn.sendPacked, Turn.snd_trying, Turn.hub_withHub]
    exact ⟨_, .inl rfl, acts_sendPacked ..⟩
  cases a with
  | online user => exact absurd rfl (honline user)
  | offline => exact absurd rfl hoffline
  | messageId | header | urlPattern | bind | bindWith =>
    refine ⟨_, .inl rfl, ?_⟩
    simp only [Turn.perform, Turn.snd_viewing]
    exact .nothing
  | reply | replyRaw | replyJson | replyUrl | fill => exact hreply _
  | sendToUser user id body headers =>
    refine acts_withPool (.inr ?_)
    split
    · exact ⟨_, .inl rfl, .nothing⟩
    · unfold sendTo
      split
      · rename_i c hc
        exact ⟨c, .inr ⟨user, hc⟩, acts_send ..⟩
      · exact ⟨_, .inl rfl, .nothing⟩
  | upper =>
    unfold Turn.perform
    dsimp only
    split
    · exact ⟨_, .inl rfl, .nothing⟩
    · exact hreply _
  | sendBack =>
    unfold Turn.perform
    dsimp only
    split
    · exact ⟨_, .inl rfl, .nothing⟩
    · split
      · exact ⟨_, .inl rfl, .changes _ fun _ => rfl⟩
      · exact hreply _
  | setConnectionValue | noteHeartbeat | passAuth | denyAuth | close =>
    exact ⟨_, .inl rfl, .changes _ fun _ => rfl⟩
  | _ => exact ⟨_, .inl rfl, .nothing⟩

/-- Out of reach of the pool a handler does nothing but at its own place. -/
theorem acts_perform_of_not_reaches (t : Turn) (a : Action)
    (hreach : t.desk.hub.reachesPool t.request.place = false) :
    Acts t.desk.hub t.request.place (Turn.perform id a t).2.desk.hub := by
  have hnot : ¬t.desk.hub.reachesPool t.request.place = true := Bool.eq_false_iff.mp hreach
  by_cases hpool : (∃ user, a = .online user) ∨ a = .offline
  · rw [Turn.perform_of_not_reaches hpool hnot]
    exact .nothing
  · obtain ⟨c, hc, hacts⟩ := acts_perform t (fun user h => hpool (.inl ⟨user, h⟩))
      fun h => hpool (.inr h)
    exact hc.resolve_right (fun h => hnot h.1) ▸ hacts

/-- **What is done at one place**, one thing after another. -/
inductive Works (hub : Hub) (c : Place) : Hub → Prop where
  /-- Nothing was done. -/
  | nothing : Works hub c hub
  /-- One more thing was done. -/
  | acts {hub' hub'' : Hub} (h : Works hub c hub') (hacts : hub'.Acts c hub'') : Works hub c hub''

/-- What is done at a place, one thing after another, is done there only. -/
theorem Works.onlyAt (h : Works hub c hub') : OnlyAt (· = c) hub hub' := by
  induction h with
  | nothing => exact .refl _ hub
  | acts _ hacts ih => exact ih.trans hacts.onlyAt

/-- What is done at a place, one thing after another, moves nobody in the pool. -/
theorem Works.pool (h : Works hub c hub') : hub'.pool = hub.pool := by
  induction h with
  | nothing => rfl
  | acts _ hacts ih => exact hacts.pool.trans ih

/-- Going offline may touch another connection: the one that is online under the remembered name.
-/
theorem onlyAt_goOffline (hub : Hub) (c : Place) :
    OnlyAt (fun d => d = c ∨ hub.IsOnline d) hub (Turn.goOffline c hub) := by
  unfold Turn.goOffline
  split
  · exact (onlyAt_offline hub _).mono fun _ => .inr
  · exact (onlyAt_close hub c).mono fun _ => .inl

/-- **A handler touches its own connection**, and those online if it can reach the pool. -/
theorem onlyAt_perform (t : Turn) (a : Action) :
    OnlyAt (fun c => c = t.request.place ∨
        t.desk.hub.reachesPool t.request.place = true ∧ t.desk.hub.IsOnline c)
      t.desk.hub (Turn.perform id a t).2.desk.hub := by
  cases hreach : t.desk.hub.reachesPool t.request.place with
  | false => exact (acts_perform_of_not_reaches t a hreach).onlyAt.mono fun _ => .inl
  | true =>
    by_cases honline : ∃ user, a = .online user
    · obtain ⟨user, rfl⟩ := honline
      rw [Turn.perform_online hreach]
      exact (onlyAt_online ..).mono fun _ => .inl
    by_cases hoffline : a = .offline
    · subst hoffline
      rw [Turn.perform_offline hreach]
      exact (onlyAt_goOffline ..).mono fun _ h => h.imp id fun honline => ⟨rfl, honline⟩
    · obtain ⟨c, hc, hacts⟩ := acts_perform t (fun user h => honline ⟨user, h⟩) hoffline
      refine hacts.onlyAt.mono fun d hd => ?_
      subst hd
      exact hc.imp id fun h => ⟨rfl, h.2⟩

/-! ## Queues that are spared -/

/-- **Everybody is still there**, as they were made; others may have joined. -/
structure Grows (hub hub' : Hub) : Prop where
  length : hub.connections.length ≤ hub'.connections.length
  made : ∀ c < hub.connections.length, (hub'.connection c).made = (hub.connection c).made
  queues : hub.queues.length ≤ hub'.queues.length

/-- **A queue and all its connections stay as they are**; others may change, and some may join. -/
structure Spares (q : Nat) (hub hub' : Hub) : Prop extends Grows hub hub' where
  connection : ∀ c < hub.connections.length, (hub.connection c).queue = q →
    hub'.connection c = hub.connection c
  queue : hub'.queue q = hub.queue q

theorem Grows.refl (hub : Hub) : Grows hub hub := ⟨Nat.le_refl _, fun _ _ => rfl, Nat.le_refl _⟩

theorem Grows.trans (h : Grows hub hub') (h' : Grows hub' hub'') : Grows hub hub'' where
  length := Nat.le_trans h.length h'.length
  made c hc := (h'.made c (Nat.lt_of_lt_of_le hc h.length)).trans (h.made c hc)
  queues := Nat.le_trans h.queues h'.queues

/-- Where only connections change, nobody is gone. -/
theorem OnlyAt.grows (h : OnlyAt touched hub hub') : Grows hub hub' where
  length := Nat.le_of_eq h.length.symm
  made c _ := h.made c
  queues := Nat.le_of_eq h.queues.symm

/-- **A queue is spared** when none of the places that change has it. -/
theorem OnlyAt.spares (h : OnlyAt touched hub hub')
    (hq : ∀ c, touched c → (hub.connection c).queue ≠ q) : Spares q hub hub' where
  toGrows := h.grows
  connection c _ hc := h.connection c fun ht => hq c ht hc
  queue := h.queue q hq

/-- Who was there stays as they are when others join. -/
theorem connection_of_append {conns : List Connection}
    (h : hub'.connections = hub.connections ++ conns) (hc : c < hub.connections.length) :
    hub'.connection c = hub.connection c := by
  show hub'.connections.getD c default = hub.connections.getD c default
  rw [h, List.getD_eq_getElem?_getD, List.getD_eq_getElem?_getD, List.getElem?_append_left hc]

/-- Connections and queues are only ever added at the end. -/
theorem grows_of_append {conns : List Connection} {more : List ReplyQueue}
    (hconnections : hub'.connections = hub.connections ++ conns)
    (hqueues : hub'.queues = hub.queues ++ more) : Grows hub hub' where
  length := by rw [hconnections, List.length_append]; exact Nat.le_add_right ..
  made c hc := by rw [connection_of_append hconnections hc]
  queues := by rw [hqueues, List.length_append]; exact Nat.le_add_right ..

theorem grows_addQueue (hub : Hub) (capacity : Nat) : Grows hub (hub.addQueue capacity).2 :=
  have hqueues : (hub.addQueue capacity).2.queues = hub.queues ++ [_] := rfl
  grows_of_append (List.append_nil _).symm hqueues

/-- Who joins leaves alone what there was. -/
theorem spares_of_append {conns : List Connection} {more : List ReplyQueue}
    (hconnections : hub'.connections = hub.connections ++ conns)
    (hqueues : hub'.queues = hub.queues ++ more) (hq : q < hub.queues.length) :
    Spares q hub hub' where
  toGrows := grows_of_append hconnections hqueues
  connection c hc _ := connection_of_append hconnections hc
  queue := by
    show hub'.queues.getD q default = hub.queues.getD q default
    rw [hqueues, List.getD_eq_getElem?_getD, List.getD_eq_getElem?_getD,
      List.getElem?_append_left hq]

/-- A new queue is none of those there were. -/
theorem spares_addQueue (hub : Hub) (capacity : Nat) (hq : q < hub.queues.length) :
    Spares q hub (hub.addQueue capacity).2 :=
  have hqueues : (hub.addQueue capacity).2.queues = hub.queues ++ [_] := rfl
  spares_of_append (List.append_nil _).symm hqueues hq

/-- A queue may change without any connection being gone. -/
theorem grows_modifyQueue (hub : Hub) (q : Nat) (f : ReplyQueue → ReplyQueue) :
    Grows hub (hub.modifyQueue q f) :=
  ⟨Nat.le_refl _, fun _ _ => rfl, Nat.le_of_eq (List.length_modify ..).symm⟩

/-- Another queue changes. -/
theorem spares_modifyQueue (hub : Hub) {r : Nat} (f : ReplyQueue → ReplyQueue) (hne : r ≠ q) :
    Spares q hub (hub.modifyQueue r f) where
  toGrows := grows_modifyQueue hub r f
  connection _ _ _ := rfl
  queue := queue_modifyQueue_of_ne hub f hne

theorem Spares.refl (q : Nat) (hub : Hub) : Spares q hub hub :=
  (OnlyAt.refl (fun _ => False) hub).spares nofun

/-- Whoever is there was there before, or has just joined. -/
theorem connection_of_concat {conn : Connection} (h : hub'.connections = hub.connections ++ [conn])
    (hc : c < hub'.connections.length) :
    c < hub.connections.length ∧ hub'.connection c = hub.connection c ∨
      c = hub.connections.length ∧ hub'.connection c = conn := by
  rw [h, List.length_append, List.length_singleton] at hc
  rcases Nat.lt_succ_iff_lt_or_eq.mp hc with hlt | rfl
  · exact .inl ⟨hlt, connection_of_append h hlt⟩
  · refine .inr ⟨rfl, ?_⟩
    show hub'.connections.getD _ default = conn
    rw [h, List.getD_eq_getElem?_getD, List.getElem?_concat_length, Option.getD_some]

end Hub

end Switchboard
