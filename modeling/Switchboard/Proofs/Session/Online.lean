import Switchboard.Proofs.Session.Leaving

/-!
# Proofs/Session/Online — what leaves the pool alone

Most of what happens to a hub moves nobody in the pool: replies are queued, taken and written,
connections are closed, values are kept.  After it the same connections are online under the same
names, have the same names in mind, and none that was closed is open again (`Hub.SameOnline`).  Of
the actions of a handler just coming online and going offline are not of that kind
(`Hub.sameOnline_perform`).
-/

namespace Switchboard

namespace Hub

variable {hub hub' hub'' : Hub} {c : Place}

/-- **The same are online**, and nobody who was closed is open. -/
structure SameOnline (hub hub' : Hub) : Prop where
  places : SamePlaces hub hub'
  pool : hub'.pool = hub.pool
  username : ∀ c, (hub'.connection c).username = (hub.connection c).username
  closed : ∀ c, (hub.connection c).closed = true → (hub'.connection c).closed = true

theorem SameOnline.refl (hub : Hub) : SameOnline hub hub :=
  ⟨.refl hub, rfl, fun _ => rfl, fun _ => id⟩

theorem SameOnline.trans (h : SameOnline hub hub') (h' : SameOnline hub' hub'') :
    SameOnline hub hub'' where
  places := h.places.trans h'.places
  pool := h'.pool.trans h.pool
  username c := (h'.username c).trans (h.username c)
  closed c hc := h'.closed c (h.closed c hc)

/-- The same are online under each name. -/
theorem SameOnline.onlineAt (h : SameOnline hub hub') (u : String) :
    hub'.onlineAt u = hub.onlineAt u := by
  rw [Hub.onlineAt, h.pool, Hub.onlineAt]

/-- Whoever is online still has the name in mind. -/
theorem SameOnline.named (h : SameOnline hub hub') (hnamed : hub.Named) : hub'.Named :=
  hnamed.of_same h.places h.pool h.username

/-- A change to one connection that leaves alone who it is and does not open it. -/
theorem sameOnline_modify (hub : Hub) (c : Place) {f : Connection → Connection}
    (hid : ∀ conn, (f conn).id = conn.id) (hpooled : ∀ conn, (f conn).pooled = conn.pooled)
    (husername : ∀ conn, (f conn).username = conn.username)
    (hclosed : ∀ conn, conn.closed = true → (f conn).closed = true) :
    SameOnline hub (hub.modify c f) where
  places := samePlaces_modify hub c hid hpooled
  pool := rfl
  username := field_modify Connection.username husername hub c
  closed d hd := by
    rw [connection_modify]
    split
    · exact hclosed _ hd
    · exact hd

/-- **A close takes nobody offline**: the entry stays until it is given up. -/
theorem sameOnline_close (hub : Hub) (c : Place) : SameOnline hub (hub.close c) :=
  sameOnline_modify hub c (fun _ => rfl) (fun _ => rfl) (fun _ => rfl) fun _ _ => rfl

theorem sameOnline_modifyQueue (hub : Hub) (q : Nat) (f : ReplyQueue → ReplyQueue) :
    SameOnline hub (hub.modifyQueue q f) :=
  ⟨⟨rfl, fun _ => rfl, fun _ => rfl, rfl⟩, rfl, fun _ => rfl, fun _ => id⟩

theorem sameOnline_takeReply {reply : Reply} (h : hub.takeReply c = some (reply, hub')) :
    SameOnline hub hub' := by
  obtain ⟨rest, -, rfl⟩ := takeReply_eq_some_iff.mp h
  exact sameOnline_modifyQueue ..

/-- A send may close the connection, and leaves its entry. -/
theorem sameOnline_send (hub : Hub) (c : Place) (block : Bytes) :
    SameOnline hub (hub.send c block).2 := by
  unfold send
  dsimp only
  split
  · exact .refl hub
  · split
    · exact sameOnline_modifyQueue ..
    · exact .refl hub
    · exact sameOnline_close hub c

theorem sameOnline_sendPacked (hub : Hub) (c : Place) (packed : Except WireError Bytes) :
    SameOnline hub (hub.sendPacked c packed).2 := by
  cases packed with
  | error e => exact .refl hub
  | ok block => exact sameOnline_send hub c block

/-- To send by name asks the pool, and changes nothing in it. -/
theorem sameOnline_sendTo (hub : Hub) (u : String) (block : Bytes) :
    SameOnline hub (hub.sendTo u block).2 := by
  unfold sendTo
  split
  · exact sameOnline_send ..
  · exact .refl hub

/-- Closing all who are online leaves them in the pool. -/
theorem sameOnline_closeAll (hub : Hub) : SameOnline hub hub.closeAll := by
  unfold closeAll
  split
  · exact .refl hub
  · rename_i pool hpool
    generalize pool.entries = entries
    clear hpool
    induction entries generalizing hub with
    | nil => exact .refl hub
    | cons e rest ih => exact (sameOnline_close hub e.2).trans (ih _)

/-! ## Actions -/

variable {t : Turn}

/-- A turn moves nobody if what it tries moves nobody in the hub. -/
theorem sameOnline_trying {f : Hub → Except SessionError Unit × Hub}
    (h : SameOnline t.desk.hub (f t.desk.hub).2) :
    SameOnline t.desk.hub (t.trying f).2.desk.hub := by
  unfold Turn.trying
  split <;> rename_i hf <;> rw [hf] at h <;> exact h

theorem sameOnline_viewing {α : Type} (t : Turn) (r : Except WireError α) (f : α → Answer) :
    SameOnline t.desk.hub (t.viewing r f).2.desk.hub := by
  unfold Turn.viewing
  split <;> exact .refl _

theorem sameOnline_reply (t : Turn) (packed : Except WireError Bytes) :
    SameOnline t.desk.hub (t.sendPacked packed).2.desk.hub :=
  sameOnline_trying (sameOnline_sendPacked ..)

/-- **A handler moves nobody in the pool** but by coming online and going offline. -/
theorem sameOnline_perform (t : Turn) {a : Action} (honline : ∀ u, a ≠ .online u)
    (hoffline : a ≠ .offline) : SameOnline t.desk.hub (Turn.perform id a t).2.desk.hub := by
  cases a with
  | online u => exact absurd rfl (honline u)
  | offline => exact absurd rfl hoffline
  | messageId | header | urlPattern | bind | bindWith => exact sameOnline_viewing ..
  | reply | replyRaw | replyJson | replyUrl | fill => exact sameOnline_reply ..
  | sendToUser =>
    refine sameOnline_trying ?_
    dsimp only
    split
    · split
      · exact .refl _
      · exact sameOnline_sendTo ..
    · exact .refl _
  | upper =>
    unfold Turn.perform
    dsimp only
    split
    · exact .refl _
    · exact sameOnline_reply ..
  | sendBack =>
    unfold Turn.perform
    dsimp only
    split
    · exact .refl _
    · split
      · exact sameOnline_modify _ _ (fun _ => rfl) (fun _ => rfl) (fun _ => rfl) fun _ => id
      · exact sameOnline_reply ..
  | setConnectionValue | noteHeartbeat | passAuth | denyAuth =>
    exact sameOnline_modify _ _ (fun _ => rfl) (fun _ => rfl) (fun _ => rfl) fun _ => id
  | close => exact sameOnline_close ..
  | _ => exact .refl _

end Hub

end Switchboard
