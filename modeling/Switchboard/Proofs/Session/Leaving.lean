import Switchboard.Proofs.Session.Pool
import Switchboard.Session.Run

/-!
# Proofs/Session/Leaving — a handler that takes its connection offline

A handler takes its connection offline by the name the connection has in mind.  As long as nobody
else has come online under that name, this takes just that connection offline.  A name may be
somebody else's by now, though, and then it is the other connection that is taken offline, while the
one that asked for it goes on (`takesOffline_iff`).  A name in mind that nobody is online under
keeps everything as it is.
-/

namespace Switchboard

/-! ## Moves -/

/-- What happens between connections and their pool. -/
inductive PoolMove where
  /-- The pool is called. -/
  | call (call : PoolCall)
  /-- A connection is closed. -/
  | close (c : Place)
  /-- A handler takes its connection online. -/
  | enter (user : String) (c : Place)
  /-- A handler takes its connection offline. -/
  | leave (c : Place)
deriving Repr, DecidableEq

/-- The connection a move is about. -/
def PoolMove.place? : PoolMove → Option Place
  | call c => c.place?
  | close c | enter _ c | leave c => some c

namespace Turn

variable {rest : Turn → Turn} {t : Turn}

theorem withPool_of_reaches (h : t.desk.hub.reachesPool t.request.place = true)
    (f : Hub → Except SessionError Unit × Hub) : t.withPool f = t.trying f := by
  simp only [withPool, trying, h, if_true]

/-- Out of reach of the pool nothing happens. -/
theorem perform_of_not_reaches {a : Action} (ha : (∃ user, a = .online user) ∨ a = .offline)
    (h : ¬t.desk.hub.reachesPool t.request.place = true) :
    perform rest a t = (.failed .poolDisabled, t) := by
  rcases ha with ⟨user, rfl⟩ | rfl <;> simp only [perform, withPool, trying, h] <;> rfl

theorem perform_online (h : t.desk.hub.reachesPool t.request.place = true) (user : String) :
    perform rest (.online user) t = (.done, t.withHub (t.desk.hub.online user t.request.place)) :=
  withPool_of_reaches h _

theorem perform_offline (h : t.desk.hub.reachesPool t.request.place = true) :
    perform rest .offline t = (.done, t.withHub (goOffline t.request.place t.desk.hub)) :=
  withPool_of_reaches h _

end Turn

namespace Hub

/-- The hub after a handler of a connection performed an action. -/
def acted (hub : Hub) (c : Place) (a : Action) : Hub :=
  (Turn.perform id a ⟨⟨hub, [], []⟩, .ofBlock c [] [], false⟩).2.desk.hub

/-- **One move.** -/
def move (hub : Hub) : PoolMove → Hub
  | .call call => hub.perform call
  | .close c => hub.close c
  | .enter user c => hub.acted c (.online user)
  | .leave c => hub.acted c .offline

/-- The hub after a series of moves. -/
def follow (hub : Hub) (moves : List PoolMove) : Hub := moves.foldl move hub

variable {hub hub' : Hub} {c d : Place} {u : String}

/-- **Every move keeps the names in mind**, and the connections and their access to the pool. -/
theorem Named.move (h : hub.Named) (hpool : hub.pool.isSome) {m : PoolMove}
    (hm : ∀ c ∈ m.place?, c < hub.connections.length) :
    (hub.move m).Named ∧ SamePlaces hub (hub.move m) := by
  cases m with
  | call call => exact ⟨h.perform hpool hm, samePlaces_perform hub call⟩
  | close c => exact ⟨h.close c, samePlaces_close hub c⟩
  | enter user c =>
    rw [Hub.move, acted]
    by_cases hreach : hub.reachesPool c = true
    · rw [Turn.perform_online hreach]
      exact ⟨h.online hpool (hm c rfl), samePlaces_online hub user c⟩
    · rw [Turn.perform_of_not_reaches (.inl ⟨user, rfl⟩) hreach]
      exact ⟨h, .refl hub⟩
  | leave c =>
    rw [Hub.move, acted]
    by_cases hreach : hub.reachesPool c = true
    · rw [Turn.perform_offline hreach]
      show (Turn.goOffline c hub).Named ∧ SamePlaces hub (Turn.goOffline c hub)
      unfold Turn.goOffline
      split
      · exact ⟨h.offline _, samePlaces_offline hub _⟩
      · exact ⟨h.close c, samePlaces_close hub c⟩
    · rw [Turn.perform_of_not_reaches (.inr rfl) hreach]
      exact ⟨h, .refl hub⟩

theorem Named.follow (h : hub.Named) (hpool : hub.pool.isSome) {moves : List PoolMove}
    (hmoves : ∀ m ∈ moves, ∀ c ∈ m.place?, c < hub.connections.length) :
    (hub.follow moves).Named ∧ SamePlaces hub (hub.follow moves) := by
  induction moves generalizing hub with
  | nil => exact ⟨h, .refl hub⟩
  | cons m more ih =>
    obtain ⟨hm, hmore⟩ := List.forall_mem_cons.mp hmoves
    obtain ⟨hnamed, hplaces⟩ := h.move hpool hm
    obtain ⟨hnamed', hplaces'⟩ := ih hnamed (hplaces.pool ▸ hpool) (by rwa [hplaces.length])
    exact ⟨hnamed', hplaces.trans hplaces'⟩

/-! ## Taking a connection offline -/

/-- **Just this connection is taken offline**: it is closed and has no entry any more, and nobody
else is closed or loses an entry. -/
structure TakesOffline (c : Place) (hub hub' : Hub) : Prop where
  closed : (hub'.connection c).closed = true
  gone : ∀ u, hub'.onlineAt u ≠ some c
  closed_other : ∀ d ≠ c, (hub'.connection d).closed = (hub.connection d).closed
  onlineAt_other : ∀ u, ∀ d ≠ c, hub'.onlineAt u = some d ↔ hub.onlineAt u = some d

/-- A connection that has no name in mind is closed. -/
theorem takesOffline_close (h : hub.Named) (hc : c < hub.connections.length)
    (hname : (hub.connection c).username = none) : TakesOffline c hub (hub.close c) where
  closed := by rw [closed_close, decide_eq_true ⟨rfl, hc⟩, Bool.true_or]
  gone u honline := nomatch hname.symm.trans (h u c honline).2
  closed_other d hd := by rw [closed_close, decide_eq_false fun hcd => hd hcd.1.symm, Bool.false_or]
  onlineAt_other _ _ _ := Iff.rfl

/-- A name takes its owner offline. -/
theorem takesOffline_offline (h : hub.Named) (honline : hub.onlineAt u = some d) :
    TakesOffline d hub (hub.offline u).2 where
  closed := by
    have hd := (h u d honline).1
    rw [connection_offline honline, closed_close, length_setName, decide_eq_true ⟨rfl, hd⟩,
      Bool.true_or]
  gone v hv := by
    obtain ⟨hvu, hbefore⟩ := onlineAt_offline.mp hv
    exact hvu (Option.some.inj ((h v d hbefore).2.symm.trans (h u d honline).2))
  closed_other e he := by
    rw [connection_offline honline, closed_close, closed_setName,
      decide_eq_false fun hde => he hde.1.symm, Bool.false_or]
  onlineAt_other v e he := by
    refine onlineAt_offline.trans (and_iff_right_of_imp fun hv hvu => ?_)
    subst hvu
    exact he (Option.some.inj (hv.symm.trans honline))

/-- Who is online cannot stay so while another connection is taken offline. -/
theorem TakesOffline.unique (h : TakesOffline d hub hub') (h' : TakesOffline c hub hub')
    (honline : hub.onlineAt u = some d) : d = c :=
  Decidable.byContradiction fun hne => h.gone u ((h'.onlineAt_other u d hne).mpr honline)

/-- **Whom a handler takes offline** is told by the name its connection has in mind. -/
structure OfflineByName (c : Place) (hub hub' : Hub) : Prop where
  /-- Without a name it is the connection itself. -/
  nameless : (hub.connection c).username = none → TakesOffline c hub hub'
  /-- With a name it is whoever is online under it, -/
  named : ∀ u d, (hub.connection c).username = some u → hub.onlineAt u = some d →
    TakesOffline d hub hub'
  /-- and nobody if nobody is. -/
  unused : ∀ u, (hub.connection c).username = some u → hub.onlineAt u = none → hub' = hub

theorem offlineByName (h : hub.Named) (hc : c < hub.connections.length) :
    OfflineByName c hub (Turn.goOffline c hub) where
  nameless hname := by
    rw [Turn.goOffline, hname]
    exact takesOffline_close h hc hname
  named u d hname honline := by
    rw [Turn.goOffline, hname]
    exact takesOffline_offline h honline
  unused u hname hnone := by
    rw [Turn.goOffline, hname]
    dsimp only
    rw [offline_of_none hnone]

/-- **A connection is taken offline by its own handler** just if it has no name in mind, is online
under the one it has, or nobody is and it was closed before. -/
theorem OfflineByName.takesOffline_iff (hby : OfflineByName c hub hub') (h : hub.Named) :
    TakesOffline c hub hub' ↔ ∀ u, (hub.connection c).username = some u →
      hub.onlineAt u = some c ∨ hub.onlineAt u = none ∧ (hub.connection c).closed = true := by
  cases hname : (hub.connection c).username with
  | none => exact iff_of_true (hby.nameless hname) nofun
  | some u =>
    simp only [Option.some.injEq, forall_eq']
    cases honline : hub.onlineAt u with
    | some d =>
      have htakes := hby.named u d hname honline
      constructor
      · intro hself
        rw [htakes.unique hself honline]
        exact .inl rfl
      · rintro (hd | ⟨hnone, -⟩)
        · rwa [← Option.some.inj hd]
        · cases hnone
    | none =>
      rw [hby.unused u hname honline]
      constructor
      · exact fun hself => .inr ⟨rfl, hself.closed⟩
      · rintro (hd | ⟨-, hclosed⟩)
        · cases hd
        · refine ⟨hclosed, fun v hv => ?_, fun _ _ => rfl, fun _ _ _ => Iff.rfl⟩
          obtain rfl := Option.some.inj (hname.symm.trans (h v c hv).2)
          exact nomatch honline.symm.trans hv

/-- Whoever it is, the connection itself is online under no name afterwards. -/
theorem OfflineByName.gone (hby : OfflineByName c hub hub') (h : hub.Named) (v : String) :
    hub'.onlineAt v ≠ some c := by
  cases hname : (hub.connection c).username with
  | none => exact (hby.nameless hname).gone v
  | some u =>
    have hinMind (hv : hub.onlineAt v = some c) : v = u :=
      Option.some.inj ((h v c hv).2.symm.trans hname)
    cases honline : hub.onlineAt u with
    | none =>
      rw [hby.unused u hname honline]
      intro hv
      obtain rfl := hinMind hv
      exact nomatch honline.symm.trans hv
    | some d =>
      have htakes := hby.named u d hname honline
      by_cases hcd : c = d
      · exact hcd ▸ htakes.gone v
      · intro hv
        have hbefore := (htakes.onlineAt_other v c hcd).mp hv
        obtain rfl := hinMind hbefore
        exact hcd (Option.some.inj (hbefore.symm.trans honline))

/-- **A handler takes offline whoever has the name of its connection.**  After any moves the action
succeeds and leaves its connection online under no name; it takes just its own connection offline
unless somebody else is online under the name in mind, or nobody is and the connection is open. -/
theorem perform_offline_follow (hub : Hub) (hpool : hub.pool = some .empty)
    (hpooled : ∀ c < hub.connections.length, (hub.connection c).pooled = true)
    (moves : List PoolMove)
    (hmoves : ∀ m ∈ moves, ∀ c ∈ m.place?, c < hub.connections.length)
    (rest : Turn → Turn) (t : Turn) (ht : t.desk.hub = hub.follow moves)
    (hplace : t.request.place < hub.connections.length) :
    let c := t.request.place
    let before := t.desk.hub
    let r := Turn.perform rest .offline t
    let after := r.2.desk.hub
    r.1 = .done ∧ (∀ u, after.onlineAt u ≠ some c) ∧ OfflineByName c before after ∧
      (TakesOffline c before after ↔ ∀ u, (before.connection c).username = some u →
        before.onlineAt u = some c ∨
          before.onlineAt u = none ∧ (before.connection c).closed = true) := by
  intro c before r after
  have hsome : hub.pool.isSome := by rw [hpool]; rfl
  have hstart : hub.Named := fun u d honline =>
    nomatch (onlineAt_of_pool hpool u).symm.trans honline
  obtain ⟨hnamed, hplaces⟩ := hstart.follow hsome hmoves
  rw [← ht] at hnamed hplaces
  have hreach : before.reachesPool c = true := by
    rw [reachesPool, hplaces.pooled, hpooled c hplace, Bool.true_and, hplaces.pool, hsome]
  have hr : r = (.done, t.withHub (Turn.goOffline c before)) := Turn.perform_offline hreach
  have hafter : after = Turn.goOffline c before := by
    show r.2.desk.hub = _
    rw [hr]
    rfl
  have hby : OfflineByName c before after :=
    hafter ▸ offlineByName hnamed (hplaces.length ▸ hplace)
  exact ⟨by rw [hr], hby.gone hnamed, hby, hby.takesOffline_iff hnamed⟩

/-- Of two connections that came online under one name, the first takes the second offline. -/
theorem perform_offline_follow_overtaken :
    let conn (id : Nat) : Connection := .ofPeer id .tcp "" .json 0 false true
    let hub : Hub := ⟨[conn 1, conn 2], [], some .empty⟩
    let moves : List PoolMove := [.enter "u" 0, .enter "u" 1]
    let t : Turn := ⟨⟨hub.follow moves, [], []⟩, .ofBlock 0 [] [], false⟩
    hub.pool = some .empty ∧
      (∀ c < hub.connections.length, (hub.connection c).pooled = true) ∧
      (∀ m ∈ moves, ∀ c ∈ m.place?, c < hub.connections.length) ∧
      (Turn.perform id .offline t).1 = .done ∧
      TakesOffline 1 (hub.follow moves) (Turn.perform id .offline t).2.desk.hub := by
  intro conn hub moves t
  have hpooled : ∀ c < hub.connections.length, (hub.connection c).pooled = true := by decide
  have hmoves : ∀ m ∈ moves, ∀ c ∈ m.place?, c < hub.connections.length := by decide
  obtain ⟨hdone, -, hby, -⟩ :=
    perform_offline_follow hub rfl hpooled moves hmoves id t rfl (by decide)
  exact ⟨rfl, hpooled, hmoves, hdone, hby.named "u" 1 (by decide) (by decide)⟩

/-- **Going offline is not always one's own affair**: a connection whose name is somebody else's by
now stays open, and the other one is closed and loses its entry. -/
theorem not_takesOffline_overtaken :
    let conn (id : Nat) : Connection := .ofPeer id .tcp "" .json 0 false true
    let hub : Hub := ⟨[conn 1, conn 2], [], some .empty⟩
    let moves : List PoolMove := [.enter "u" 0, .enter "u" 1]
    let before := hub.follow moves
    let after := before.move (.leave 0)
    hub.pool = some .empty ∧ hub.Distinct ∧
      (∀ c < hub.connections.length, (hub.connection c).pooled = true) ∧
      (∀ m ∈ moves, ∀ c ∈ m.place?, c < hub.connections.length) ∧
      before.onlineAt "u" = some 1 ∧ after.onlineAt "u" = none ∧
      (after.connection 0).closed = false ∧ (after.connection 1).closed = true ∧
      ¬TakesOffline 0 before after := by
  intro conn hub moves before after
  have hopen : (after.connection 0).closed = false := by decide
  exact ⟨rfl, by decide, by decide, by decide, by decide, by decide, hopen, by decide,
    fun h => Bool.false_ne_true (hopen.symm.trans h.closed)⟩

end Hub

end Switchboard
