import Switchboard.Proofs.Session.Leaving
import Switchboard.Proofs.Wire.Reserved

/-!
# Proofs/Session/Forgery — nobody forges routes or pipelines

Users hand headers to packers and to the replies of their handlers.  Neither lets a reserved key
through (`Turn.guards`): a header that sets one is refused whatever else is packed with it, and what
is packed or queued is not routed by a URL pattern and announces no followers, unless the library
put it there.  A reply does what its packer does and then queues the block at most
(`Turn.replying_trying`), so its guard is the packer's (`Packer.Guarded`).
-/

namespace Switchboard

/-! ## What is queued -/

namespace Hub

variable {hub hub' : Hub} {c : Place} {sound : Bytes → Prop}

/-- In every queue there is what was there before, and behind it only replies with sound blocks. -/
def Queued (sound : Bytes → Prop) (hub hub' : Hub) : Prop :=
  ∀ q, ∃ more, (hub'.queue q).replies = (hub.queue q).replies ++ more ∧
    ∀ reply ∈ more, sound reply.block

theorem queued_of_queues_eq (h : hub'.queues = hub.queues) : Queued sound hub hub' := fun q =>
  ⟨[], by rw [queue, h, ← queue, List.append_nil], List.forall_mem_nil _⟩

theorem queue_modifyQueue (hub : Hub) (q : Nat) (f : ReplyQueue → ReplyQueue) (r : Nat) :
    (hub.modifyQueue q f).queue r = hub.queue r ∨
      q = r ∧ (hub.modifyQueue q f).queue r = f (hub.queue r) := by
  unfold queue modifyQueue
  rw [List.getD_eq_getElem?_getD, List.getD_eq_getElem?_getD, List.getElem?_modify]
  by_cases hqr : q = r
  · cases hub.queues[r]? <;> simp [hqr]
  · simp [hqr]

theorem queued_send {block : Bytes} (hblock : sound block) :
    Queued sound hub (hub.send c block).2 := by
  unfold send
  dsimp only
  split
  · exact queued_of_queues_eq rfl
  · rw [ReplyQueue.offer]
    split <;> rename_i hoffer
    · intro q
      rcases queue_modifyQueue hub (hub.connection c).queue _ q with hsame | ⟨rfl, hmodified⟩
      · exact ⟨[], hsame ▸ (List.append_nil _).symm, List.forall_mem_nil _⟩
      · refine ⟨[⟨block, (hub.connection c).receiver⟩], ?_, ?_⟩
        · rw [hmodified]
          grind
        · simpa using hblock
    · exact queued_of_queues_eq rfl
    · exact queued_of_queues_eq rfl

theorem send_ne_reservedKey (hub : Hub) (c : Place) (block : Bytes) (key : String) :
    (hub.send c block).1 ≠ .error (.wire (.reservedKey key)) := by
  unfold send
  dsimp only
  split
  · exact nofun
  · split <;> exact nofun

theorem queued_sendTo {user : String} {block : Bytes} (hblock : sound block) :
    Queued sound hub (hub.sendTo user block).2 := by
  unfold sendTo
  split
  · exact queued_send hblock
  · exact queued_of_queues_eq rfl

theorem sendTo_ne_reservedKey (hub : Hub) (user : String) (block : Bytes) (key : String) :
    (hub.sendTo user block).1 ≠ .error (.wire (.reservedKey key)) := by
  unfold sendTo
  split
  · exact send_ne_reservedKey _ _ _ key
  · exact nofun

end Hub

/-! ## Replies -/

namespace Turn

variable {t : Turn} {headers : List Header} {sound : Bytes → Prop}
  {packing : Except WireError Bytes}

/-- What comes of replying with headers of a user: a header that sets a reserved key is refused, and
nothing happens; and else at most blocks are queued that are sound. -/
structure Replying (t : Turn) (headers : List Header) (sound : Bytes → Prop)
    (r : Answer × Turn) : Prop where
  refused_iff : (∃ key, r.1 = .failed (.wire (.reservedKey key))) ↔ ∃ h ∈ headers, Header.Forges h
  named : ∀ key, r.1 = .failed (.wire (.reservedKey key)) →
    Header.FirstReserved (Header.mergeAll headers) key ∧ r.2 = t
  queued : t.desk.hub.Queued sound r.2.desk.hub

/-- **A reply is guarded as its packer is**, however its block is sent. -/
theorem replying_trying (h : Packer.Guarded headers packing sound)
    {f : Hub → Except SessionError Unit × Hub}
    (herror : ∀ e, packing = .error e → f t.desk.hub = (.error (.wire e), t.desk.hub))
    (hok : ∀ block, packing = .ok block → (sound block → t.desk.hub.Queued sound (f t.desk.hub).2) ∧
      ∀ key, (f t.desk.hub).1 ≠ .error (.wire (.reservedKey key))) :
    Replying t headers sound (t.trying f) := by
  cases packing with
  | error e =>
    have htrying : t.trying f = (.failed (.wire e), t) := by
      rw [trying, herror e rfl]
      rfl
    have hiff (key : String) : (Answer.failed (.wire e) = .failed (.wire (.reservedKey key))) ↔
        (.error e : Except WireError Bytes) = .error (.reservedKey key) := by
      simp
    rw [htrying]
    exact ⟨(exists_congr hiff).trans h.refused_iff,
      fun key hkey => ⟨h.named key ((hiff key).mp hkey), rfl⟩, Hub.queued_of_queues_eq rfl⟩
  | ok block =>
    obtain ⟨hqueued, hne⟩ := hok block rfl
    have hanswer : ∀ key, (t.trying f).1 ≠ .failed (.wire (.reservedKey key)) := by
      intro key hkey
      refine hne key ?_
      rw [trying] at hkey
      grind
    have hhub : (t.trying f).2.desk.hub = (f t.desk.hub).2 := by
      rw [trying]
      split <;> simp [withHub, *]
    refine ⟨iff_of_false (not_exists.mpr hanswer) fun hforges => ?_,
      fun key hkey => absurd hkey (hanswer key), hhub ▸ hqueued (h.block block rfl)⟩
    obtain ⟨key, hkey⟩ := h.refused_iff.mpr hforges
    cases hkey

theorem replying_sendPacked (h : Packer.Guarded headers packing sound) :
    Replying t headers sound (t.sendPacked packing) :=
  replying_trying h (by rintro e rfl; rfl) fun block hpacked => by
    subst hpacked
    exact ⟨Hub.queued_send, Hub.send_ne_reservedKey _ _ _⟩

theorem replying_sendToUser {rest : Turn → Turn} {user : String} {id : Int32} {body : Json}
    (hreach : t.desk.hub.reachesPool t.request.place = true) :
    Replying t headers Block.Unmarked (perform rest (.sendToUser user id body headers) t) := by
  rw [perform, withPool_of_reaches hreach]
  refine replying_trying (Packer.guarded_pack t.packer id body headers)
    (fun e he => by simp only [he]) fun block hblock => ?_
  simp only [hblock]
  exact ⟨Hub.queued_sendTo, Hub.sendTo_ne_reservedKey _ _ _⟩

end Turn

/-! ## The guards -/

/-- What every packer guarantees. -/
structure Packer.Guards (p : Packer) : Prop where
  pack (id : Int32) (body : Json) (headers : List Header) :
    Guarded headers (p.pack id body headers) Block.Unmarked
  packEmpty (id : Int32) (headers : List Header) :
    Guarded headers (p.packEmpty id headers) Block.Unmarked
  packRaw (id : Int32) (body : Bytes) (headers : List Header) :
    Guarded headers (p.packRaw id body headers) Block.Unmarked
  packUrl (pattern : String) (body : Json) (headers : List Header) :
    Guarded headers (p.packUrl pattern body headers) Block.Alone
  packMessage (m : Message) : Guarded [m.header] (p.packMessage m) Block.Unmarked
  packPipeline (ms : List Message) : p.PipelineGuarded ms

theorem Packer.guards_all (p : Packer) : p.Guards :=
  ⟨guarded_pack p, guarded_packEmpty p, guarded_packRaw p, guarded_packUrl p, guarded_packMessage p,
    pipelineGuarded p⟩

namespace Turn

/-- What the replies of a handler guarantee.  Who cannot reach the pool sends nothing to a user. -/
structure Guards (rest : Turn → Turn) (t : Turn) : Prop where
  reply (id : Int32) (body : Json) (headers : List Header) :
    Replying t headers Block.Unmarked (perform rest (.reply id body headers) t)
  replyRaw (id : Int32) (body : Bytes) (headers : List Header) :
    Replying t headers Block.Unmarked (perform rest (.replyRaw id body headers) t)
  replyJson (id : Int32) (body : Json) (headers : List Header) :
    Replying t headers Block.Unmarked (perform rest (.replyJson id body headers) t)
  replyUrl (pattern : String) (body : Json) (headers : List Header) :
    Replying t headers Block.Alone (perform rest (.replyUrl pattern body headers) t)
  sendToUser (user : String) (id : Int32) (body : Json) (headers : List Header) :
    if t.desk.hub.reachesPool t.request.place then
      Replying t headers Block.Unmarked (perform rest (.sendToUser user id body headers) t)
    else perform rest (.sendToUser user id body headers) t = (.failed .poolDisabled, t)

/-- **Nobody forges routes or pipelines**, neither by packing nor by replying: a reserved key in a
user's header is refused and named, and of what is packed or queued only `packUrl` and `replyUrl`
route by a URL pattern, and only the first of several blocks of a pipeline announces followers. -/
theorem guards (p : Packer) (rest : Turn → Turn) (t : Turn) : p.Guards ∧ t.Guards rest where
  left := p.guards_all
  right :=
    { reply id body headers := replying_sendPacked (Packer.guarded_pack _ id body headers)
      replyRaw id body headers := replying_sendPacked (Packer.guarded_packRaw _ id body headers)
      replyJson id body headers := replying_sendPacked (Packer.guarded_pack _ id body headers)
      replyUrl pattern body headers :=
        replying_sendPacked (Packer.guarded_packUrl _ pattern body headers)
      sendToUser user id body headers := by
        split <;> rename_i hreach
        · exact replying_sendToUser hreach
        · simp only [perform, withPool, trying, hreach]
          rfl }

end Turn

end Switchboard
