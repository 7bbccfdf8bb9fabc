import Switchboard.Proofs.Session.Places

/-!
# Proofs/Session/Pool — who is online follows from the history of the pool

A call of the pool registers a connection under a name, takes a name offline, forgets a connection
that goes away or closes all there are.  A connection keeps the name it was registered under last in
mind, even when the name is somebody else's by now, and calls go by that name.

What holds all the time is one direction only: a connection that is online under a name has that
name in mind (`Hub.Named`).  With it each call does to the entry under a name what one reads off the
call (`Hub.onlineAt_perform`), and who is online is told by the history (`Hub.onlineAt_after`).
-/

namespace Switchboard

/-! ## Calls and histories -/

/-- A call of the pool. -/
inductive PoolCall where
  /-- Registers a connection under a name. -/
  | online (user : String) (c : Place)
  /-- Takes a name offline. -/
  | offline (user : String)
  /-- Forgets a connection that goes away. -/
  | forget (c : Place)
  /-- Closes everybody online. -/
  | closeAll
deriving Repr, DecidableEq

namespace PoolCall

/-- The connection a call is about. -/
def place? : PoolCall → Option Place
  | online _ c | forget c => some c
  | offline _ | closeAll => none

/-- Does a call end a registration of the connection under the name?  It registers one of the two
anew, takes the name offline or forgets the connection. -/
def Ends (u : String) (c : Place) : PoolCall → Prop
  | online v d => v = u ∨ d = c
  | offline v => v = u
  | forget d => d = c
  | closeAll => False

instance (u : String) (c : Place) (call : PoolCall) : Decidable (call.Ends u c) := by
  cases call <;> unfold Ends <;> infer_instance

end PoolCall

/-- **The history has the connection online under the name**: it was registered there, and no later
call ended that. -/
def OnlineBy (calls : List PoolCall) (u : String) (c : Place) : Prop :=
  ∃ before after, calls = before ++ .online u c :: after ∧ ∀ call ∈ after, ¬call.Ends u c

/-- Before any call nobody is online. -/
theorem onlineBy_nil {u : String} {c : Place} : ¬OnlineBy [] u c := by
  rintro ⟨before, after, heq, -⟩
  exact List.append_ne_nil_of_right_ne_nil _ (List.cons_ne_nil _ _) heq.symm

/-- The first call counts unless a later one does. -/
theorem onlineBy_cons {call : PoolCall} {calls : List PoolCall} {u : String} {c : Place} :
    OnlineBy (call :: calls) u c ↔
      OnlineBy calls u c ∨ call = .online u c ∧ ∀ later ∈ calls, ¬later.Ends u c := by
  constructor
  · rintro ⟨before, after, heq, hafter⟩
    cases before with
    | nil =>
      obtain ⟨rfl, rfl⟩ := List.cons.inj heq
      exact .inr ⟨rfl, hafter⟩
    | cons first before =>
      obtain ⟨rfl, rfl⟩ := List.cons.inj heq
      exact .inl ⟨before, after, rfl, hafter⟩
  · rintro (⟨before, after, rfl, hafter⟩ | ⟨rfl, hafter⟩)
    · exact ⟨call :: before, after, rfl, hafter⟩
    · exact ⟨[], calls, rfl, hafter⟩

namespace Hub

/-- **One call.** -/
def perform (hub : Hub) : PoolCall → Hub
  | .online user c => hub.online user c
  | .offline user => (hub.offline user).2
  | .forget c => hub.forget c
  | .closeAll => hub.closeAll

/-- The hub after a series of calls. -/
def after (hub : Hub) (calls : List PoolCall) : Hub := calls.foldl perform hub

variable {hub hub' hub'' : Hub} {c d : Place} {u v : String}

/-! ## What every call keeps -/

/-- Both hubs have the same connections, as far as numbers and access to a pool tell. -/
structure SamePlaces (hub hub' : Hub) : Prop where
  length : hub'.connections.length = hub.connections.length
  id : ∀ c, (hub'.connection c).id = (hub.connection c).id
  pooled : ∀ c, (hub'.connection c).pooled = (hub.connection c).pooled
  pool : hub'.pool.isSome = hub.pool.isSome

theorem SamePlaces.refl (hub : Hub) : SamePlaces hub hub := ⟨rfl, fun _ => rfl, fun _ => rfl, rfl⟩

theorem SamePlaces.trans (h : SamePlaces hub hub') (h' : SamePlaces hub' hub'') :
    SamePlaces hub hub'' where
  length := h'.length.trans h.length
  id c := (h'.id c).trans (h.id c)
  pooled c := (h'.pooled c).trans (h.pooled c)
  pool := h'.pool.trans h.pool

/-- To change a connection, its number and access to the pool apart, moves nobody. -/
theorem samePlaces_modify (hub : Hub) (c : Place) {f : Connection → Connection}
    (hid : ∀ conn, (f conn).id = conn.id) (hpooled : ∀ conn, (f conn).pooled = conn.pooled) :
    SamePlaces hub (hub.modify c f) :=
  ⟨length_modify .., field_modify _ hid hub c, field_modify _ hpooled hub c, rfl⟩

theorem samePlaces_close (hub : Hub) (c : Place) : SamePlaces hub (hub.close c) :=
  samePlaces_modify hub c (fun _ => rfl) fun _ => rfl

theorem OnlyPool.samePlaces (h : OnlyPool hub hub') : SamePlaces hub hub' :=
  ⟨congrArg List.length h.connections, fun c => congrArg Connection.id (h.connection c),
    fun c => congrArg Connection.pooled (h.connection c), h.isSome⟩

theorem samePlaces_setName (hub : Hub) (name : Option String) (c : Place) :
    SamePlaces hub (hub.setName name c) :=
  samePlaces_modify hub c (fun _ => rfl) fun _ => rfl

theorem samePlaces_enter (hub : Hub) (u : String) (c : Place) : SamePlaces hub (hub.enter u c) :=
  (samePlaces_setName hub (some u) c).trans (onlyPool_enter hub u c).samePlaces

theorem samePlaces_online (hub : Hub) (u : String) (c : Place) :
    SamePlaces hub (hub.online u c) := by
  unfold online
  split
  · exact .refl hub
  · exact (onlyPool_giveUp hub u c).samePlaces.trans (samePlaces_enter ..)

theorem samePlaces_offline (hub : Hub) (u : String) : SamePlaces hub (hub.offline u).2 := by
  cases honline : hub.onlineAt u with
  | none =>
    rw [offline_of_none honline]
    exact .refl hub
  | some c =>
    rw [offline_of_some honline]
    exact ((onlyPool_removeEntry hub u).samePlaces.trans (samePlaces_setName _ none c)).trans
      (samePlaces_close _ c)

theorem samePlaces_forget (hub : Hub) (c : Place) : SamePlaces hub (hub.forget c) :=
  (onlyPool_forget hub c).samePlaces

/-- Closing everybody changes nothing but whether connections are closed. -/
theorem closeAll_keeps (hub : Hub) :
    SamePlaces hub hub.closeAll ∧ hub.closeAll.pool = hub.pool ∧
      ∀ c, (hub.closeAll.connection c).username = (hub.connection c).username := by
  unfold closeAll
  split
  · exact ⟨.refl hub, rfl, fun _ => rfl⟩
  · rename_i pool hpool
    generalize pool.entries = entries
    clear hpool
    induction entries generalizing hub with
    | nil => exact ⟨.refl hub, rfl, fun _ => rfl⟩
    | cons e rest ih =>
      obtain ⟨hsame, hkept, hnames⟩ := ih (hub.close e.2)
      exact ⟨(samePlaces_close hub e.2).trans hsame, hkept,
        fun c => (hnames c).trans (username_close hub e.2 c)⟩

/-- No call adds or takes away a connection. -/
theorem samePlaces_perform (hub : Hub) (call : PoolCall) : SamePlaces hub (hub.perform call) := by
  cases call with
  | online user c => exact samePlaces_online hub user c
  | offline user => exact samePlaces_offline hub user
  | forget c => exact samePlaces_forget hub c
  | closeAll => exact (closeAll_keeps hub).1

/-- No series of calls adds or takes away a connection. -/
theorem samePlaces_after (hub : Hub) (calls : List PoolCall) :
    SamePlaces hub (hub.after calls) := by
  induction calls generalizing hub with
  | nil => exact .refl hub
  | cons call rest ih => exact (samePlaces_perform hub call).trans (ih _)

/-! ## Names in mind -/

/-- **Whoever is online has the name in mind.**  The converse fails: a name stays in mind when
somebody else registers under it, or when the connection is forgotten. -/
def Named (hub : Hub) : Prop :=
  ∀ u c, hub.onlineAt u = some c →
    c < hub.connections.length ∧ (hub.connection c).username = some u

/-- Who is online holds the entry: it has the name in mind and the entry is its own. -/
theorem Named.holds (h : hub.Named) (honline : hub.onlineAt u = some c) : hub.Holds c u :=
  ⟨(h u c honline).2, c, honline, rfl⟩

/-- The same pool over connections with the same names. -/
theorem Named.of_same (h : hub.Named) (hplaces : SamePlaces hub hub') (hpool : hub'.pool = hub.pool)
    (hnames : ∀ c, (hub'.connection c).username = (hub.connection c).username) : hub'.Named := by
  intro u c honline
  rw [onlineAt, hpool] at honline
  rw [hplaces.length, hnames]
  exact h u c honline

theorem Named.close (h : hub.Named) (c : Place) : (hub.close c).Named :=
  h.of_same (samePlaces_close hub c) rfl (username_close hub c)

/-- **Who comes online has the new name in mind**, and nobody is entered under the old one. -/
theorem Named.online (h : hub.Named) (hpool : hub.pool.isSome) (hd : d < hub.connections.length) :
    (hub.online v d).Named := by
  intro u c honline
  rw [(samePlaces_online hub v d).length, connection_online hpool, setName, connection_modify]
  rcases (onlineAt_online hpool).mp honline with ⟨rfl, rfl⟩ | ⟨-, hholds, hbefore⟩
  · rw [if_pos ⟨rfl, hd⟩]
    exact ⟨hd, rfl⟩
  · have hne : d ≠ c := by
      rintro rfl
      exact hholds (h.holds hbefore)
    rw [if_neg fun hdc => hne hdc.1]
    exact h u c hbefore

/-- Who is taken offline forgets the name together with the entry. -/
theorem Named.offline (h : hub.Named) (v : String) : (hub.offline v).2.Named := by
  intro u c honline
  obtain ⟨huv, hbefore⟩ := onlineAt_offline.mp honline
  obtain ⟨hc, hname⟩ := h u c hbefore
  refine ⟨(samePlaces_offline hub v).length ▸ hc, ?_⟩
  cases hv : hub.onlineAt v with
  | none => rw [offline_of_none hv]; exact hname
  | some d =>
    have hne : d ≠ c := by
      rintro rfl
      exact huv (Option.some.inj (hname.symm.trans (h v d hv).2))
    rw [connection_offline hv, Hub.close, connection_modify, if_neg fun hdc => hne hdc.1,
      setName, connection_modify, if_neg fun hdc => hne hdc.1]
    exact hname

/-- Who goes away keeps the name in mind, and has no entry. -/
theorem Named.forget (h : hub.Named) (d : Place) : (hub.forget d).Named := by
  intro u c honline
  rw [(samePlaces_forget hub d).length, connection_forget]
  exact h u c (onlineAt_forget.mp honline).2

/-- **Every call keeps the names in mind.** -/
theorem Named.perform (h : hub.Named) (hpool : hub.pool.isSome) {call : PoolCall}
    (hcall : ∀ c ∈ call.place?, c < hub.connections.length) : (hub.perform call).Named := by
  cases call with
  | online user c => exact h.online hpool (hcall c rfl)
  | offline user => exact h.offline user
  | forget c => exact h.forget c
  | closeAll =>
    obtain ⟨hplaces, hkept, hnames⟩ := closeAll_keeps hub
    exact h.of_same hplaces hkept hnames

/-! ## Who is online -/

/-- No two connections have the same number. -/
def Distinct (hub : Hub) : Prop :=
  ∀ c < hub.connections.length, ∀ d < hub.connections.length,
    (hub.connection c).id = (hub.connection d).id → c = d

instance (hub : Hub) : Decidable hub.Distinct :=
  inferInstanceAs (Decidable (∀ c < hub.connections.length, ∀ d < hub.connections.length,
    (hub.connection c).id = (hub.connection d).id → c = d))

/-- Numbers stay distinct while places are the same. -/
theorem Distinct.of_same (h : hub.Distinct) (hplaces : SamePlaces hub hub') : hub'.Distinct := by
  intro c hc d hd hid
  rw [hplaces.length] at hc hd
  rw [hplaces.id, hplaces.id] at hid
  exact h c hc d hd hid

/-- Only whoever is online under a name owns the entry. -/
theorem Distinct.owns_iff (hids : hub.Distinct) (hc : c < hub.connections.length)
    (hd : d < hub.connections.length) (honline : hub.onlineAt u = some c) :
    hub.Owns d u ↔ d = c := by
  constructor
  · rintro ⟨e, he, hid⟩
    obtain rfl := Option.some.inj (honline.symm.trans he)
    exact (hids c hc d hd hid).symm
  · rintro rfl
    exact ⟨d, honline, rfl⟩

/-- **Only its owner gives an entry up.** -/
theorem Named.holds_iff (h : hub.Named) (hids : hub.Distinct) (hd : d < hub.connections.length)
    (honline : hub.onlineAt u = some c) : hub.Holds d u ↔ d = c := by
  constructor
  · exact fun hholds => (hids.owns_iff (h u c honline).1 hd honline).mp hholds.2
  · rintro rfl
    exact h.holds honline

/-- **What a call does to the entry under a name**: it puts a connection there, ends a registration,
or leaves the entry as it is. -/
theorem onlineAt_perform (h : hub.Named) (hids : hub.Distinct) (hpool : hub.pool.isSome)
    {call : PoolCall} (hcall : ∀ c ∈ call.place?, c < hub.connections.length) :
    (hub.perform call).onlineAt u = some c ↔
      call = .online u c ∨ ¬call.Ends u c ∧ hub.onlineAt u = some c := by
  cases call with
  | online v d =>
    have hd : d < hub.connections.length := hcall d rfl
    have hgives (honline : hub.onlineAt u = some c) := h.holds_iff hids hd honline
    rw [perform, onlineAt_online hpool, PoolCall.online.injEq, PoolCall.Ends, not_or]
    grind
  | offline v =>
    rw [perform, onlineAt_offline, PoolCall.Ends]
    simp [eq_comm]
  | forget d =>
    have hd : d < hub.connections.length := hcall d rfl
    have hgives (honline : hub.onlineAt u = some c) := h.holds_iff hids hd honline
    rw [perform, onlineAt_forget, PoolCall.Ends]
    grind
  | closeAll =>
    rw [perform, onlineAt, (closeAll_keeps hub).2.1, ← onlineAt]
    simp [PoolCall.Ends]

/-- Every series of calls keeps the names in mind, and an entry is put there by its calls or was
there before them and was not ended by one. -/
theorem Named.after (h : hub.Named) (hids : hub.Distinct) (hpool : hub.pool.isSome)
    {calls : List PoolCall}
    (hcalls : ∀ call ∈ calls, ∀ c ∈ call.place?, c < hub.connections.length) :
    (hub.after calls).Named ∧ ∀ u c, (hub.after calls).onlineAt u = some c ↔
      OnlineBy calls u c ∨ (∀ call ∈ calls, ¬call.Ends u c) ∧ hub.onlineAt u = some c := by
  induction calls generalizing hub with
  | nil => exact ⟨h, fun u c => by simp [after, onlineBy_nil]⟩
  | cons call rest ih =>
    obtain ⟨hcall, hrest⟩ := List.forall_mem_cons.mp hcalls
    have hplaces := samePlaces_perform hub call
    obtain ⟨hnamed, honline⟩ := ih (h.perform hpool hcall) (hids.of_same hplaces)
      (hplaces.pool ▸ hpool) (by rwa [hplaces.length])
    refine ⟨hnamed, fun u c => (honline u c).trans ?_⟩
    rw [onlineAt_perform h hids hpool hcall, onlineBy_cons, List.forall_mem_cons, and_or_left,
      or_assoc, and_comm (b := call = .online u c), and_left_comm (b := ¬call.Ends u c), and_assoc]

/-- **One name for each connection and one owner for each name.** -/
structure Exclusive (hub : Hub) : Prop where
  /-- A connection is online under one name at most, -/
  oneName : ∀ u v c, hub.onlineAt u = some c → hub.onlineAt v = some c → u = v
  /-- and has that name in mind. -/
  inMind : ∀ u c, hub.onlineAt u = some c → (hub.connection c).username = some u
  /-- Whoever registers under a name gets it, -/
  newest : ∀ v, ∀ c < hub.connections.length, (hub.online v c).onlineAt v = some c
  /-- and has no other name then. -/
  moved : ∀ v, ∀ c < hub.connections.length, ∀ u ≠ v, (hub.online v c).onlineAt u ≠ some c
  /-- A connection that takes another name leaves the entries of all others as they are, -/
  online_other : ∀ u c, hub.onlineAt u = some c → ∀ d < hub.connections.length, d ≠ c →
    ∀ v ≠ u, (hub.online v d).onlineAt u = some c
  /-- and so does one that goes away. -/
  forget_other : ∀ u c, hub.onlineAt u = some c → ∀ d < hub.connections.length, d ≠ c →
    (hub.forget d).onlineAt u = some c

/-- **Names are exclusive wherever they are in mind and numbers are distinct.** -/
theorem Named.exclusive (h : hub.Named) (hids : hub.Distinct) (hpool : hub.pool.isSome) :
    hub.Exclusive where
  oneName u v c hu hv := Option.some.inj ((h u c hu).2.symm.trans (h v c hv).2)
  inMind u c hu := (h u c hu).2
  newest v c hc := (onlineAt_online hpool).mpr (.inl ⟨rfl, rfl⟩)
  moved v c hc u huv honline := by
    rcases (onlineAt_online hpool).mp honline with ⟨rfl, -⟩ | ⟨-, hholds, hbefore⟩
    · exact huv rfl
    · exact hholds (h.holds hbefore)
  online_other u c hu d hd hdc v hvu :=
    (onlineAt_online hpool).mpr
      (.inr ⟨hvu.symm, fun hholds => hdc ((h.holds_iff hids hd hu).mp hholds), hu⟩)
  forget_other u c hu d hd hdc :=
    onlineAt_forget.mpr ⟨fun hholds => hdc ((h.holds_iff hids hd hu).mp hholds), hu⟩

/-- **The history tells who is online.**  In a pool that was empty, a connection is online under a
name just if the history has it there; so each connection has one name at most and each name its
newest owner, whom nobody else's going away or taking another name removes. -/
theorem onlineAt_after (hub : Hub) (hpool : hub.pool = some .empty) (hids : hub.Distinct)
    (calls : List PoolCall)
    (hcalls : ∀ call ∈ calls, ∀ c ∈ call.place?, c < hub.connections.length) :
    (∀ u c, (hub.after calls).onlineAt u = some c ↔ OnlineBy calls u c) ∧
      (hub.after calls).Exclusive := by
  have hsome : hub.pool.isSome := by rw [hpool]; rfl
  have hnone : ∀ u, hub.onlineAt u = none := fun u => onlineAt_of_pool hpool u
  have hnamed : hub.Named := fun u c honline => nomatch (hnone u).symm.trans honline
  have hplaces := samePlaces_after hub calls
  obtain ⟨hnamed', honline⟩ := hnamed.after hids hsome hcalls
  refine ⟨fun u c => ?_,
    hnamed'.exclusive (hids.of_same hplaces) (hplaces.pool ▸ hsome)⟩
  rw [honline, hnone]
  simp

/-- A name that goes from one connection to another, of which the first takes a new name and goes
away. -/
theorem onlineAt_after_overtaken :
    let conn (id : Nat) : Connection := .ofPeer id .tcp "" .json 0 false true
    let hub : Hub := ⟨[conn 1, conn 2], [], some .empty⟩
    let calls : List PoolCall := [.online "u" 0, .online "u" 1, .online "v" 0, .forget 0, .closeAll]
    hub.pool = some .empty ∧ hub.Distinct ∧
      (∀ call ∈ calls, ∀ c ∈ call.place?, c < hub.connections.length) ∧
      (hub.after calls).onlineAt "u" = some 1 ∧ (hub.after calls).onlineAt "v" ≠ some 0 := by
  intro conn hub calls
  have hids : hub.Distinct := by decide
  have hcalls : ∀ call ∈ calls, ∀ c ∈ call.place?, c < hub.connections.length := by decide
  obtain ⟨honline, -⟩ := onlineAt_after hub rfl hids calls hcalls
  refine ⟨rfl, hids, hcalls, (honline "u" 1).mpr ?_, fun h => ?_⟩
  · exact ⟨[.online "u" 0], [.online "v" 0, .forget 0, .closeAll], rfl, by decide⟩
  · simpa [calls, onlineBy_cons, onlineBy_nil, PoolCall.Ends] using (honline "v" 0).mp h

end Hub

end Switchboard
