import Switchboard.Proofs.Service.Moves

/-!
# Proofs/Service/Members — who is online in a service, move by move

Connections are numbered in the order they join (`Exchange.Numbered`), so an entry of the pool tells
whose it is.  Of all that happens to a service only the calls of its pool change entries
(`Service.onlineAt_move`).
-/

namespace Switchboard

/-! ## Numbers and names -/

namespace Exchange

variable {x x' : Exchange}

/-- **Connections are numbered in turn.** -/
structure Numbered (x : Exchange) : Prop where
  below : ∀ c < x.hub.connections.length, (x.connection c).id < x.nextId
  distinct : x.hub.Distinct

/-- They are, and whoever is online has the name in mind. -/
structure Registered (x : Exchange) : Prop extends Numbered x where
  named : x.hub.Named

/-- Numbers stay below the next one while connections keep theirs. -/
theorem Numbered.of_same (h : x.Numbered) (hplaces : Hub.SamePlaces x.hub x'.hub)
    (hnext : x'.nextId = x.nextId) : x'.Numbered where
  below c hc := by
    rw [hplaces.length] at hc
    rw [hnext, Exchange.connection, hplaces.id]
    exact h.below c hc
  distinct := h.distinct.of_same hplaces

/-- Registrations stay sound while connections keep their numbers and names go with the entries.
-/
theorem Registered.of_same (h : x.Registered) (hplaces : Hub.SamePlaces x.hub x'.hub)
    (hnext : x'.nextId = x.nextId) (hnamed : x'.hub.Named) : x'.Registered :=
  ⟨h.toNumbered.of_same hplaces hnext, hnamed⟩

/-- A connection that joins is behind the others. -/
theorem Joins.id_last (h : x.Joins x') :
    (x'.connection x.hub.connections.length).id = x.nextId := by
  obtain ⟨conn, hconnections, hid⟩ := h.connections
  show (x'.hub.connections.getD _ default).id = _
  rw [hconnections, List.getD_eq_getElem?_getD, List.getElem?_concat_length, Option.getD_some, hid]

/-- **Who joins takes the next number**, which nobody has. -/
theorem Numbered.joins (h : x.Numbered) (hj : x.Joins x') : x'.Numbered := by
  -- A connection of before has its old number, which is below that of the new one.
  have hcases (c : Place) (hc : c < x'.hub.connections.length) :
      c < x.hub.connections.length ∧ (x'.connection c).id < x.nextId ∨
        c = x.hub.connections.length ∧ (x'.connection c).id = x.nextId := by
    rw [hj.length] at hc
    rcases Nat.lt_succ_iff_lt_or_eq.mp hc with hlt | rfl
    · exact .inl ⟨hlt, (hj.connection hlt).symm ▸ h.below c hlt⟩
    · exact .inr ⟨rfl, hj.id_last⟩
  refine ⟨fun c hc => ?_, fun c hc d hd hid => ?_⟩
  · rw [hj.nextId]
    rcases hcases c hc with ⟨-, hlt⟩ | ⟨-, hlast⟩
    · exact Nat.lt_succ_of_lt hlt
    · exact Nat.lt_succ_of_le (Nat.le_of_eq hlast)
  · have hid : (x'.connection c).id = (x'.connection d).id := hid
    rcases hcases c hc with ⟨hc', hlt⟩ | ⟨rfl, hlast⟩ <;>
      rcases hcases d hd with ⟨hd', hlt'⟩ | ⟨rfl, hlast'⟩
    · rw [hj.connection hc', hj.connection hd'] at hid
      exact h.distinct c hc' d hd' hid
    · omega
    · omega
    · rfl

theorem Registered.joins (h : x.Registered) (hj : x.Joins x') : x'.Registered where
  toNumbered := h.toNumbered.joins hj
  named u c honline := by
    rw [Hub.onlineAt, hj.pool] at honline
    obtain ⟨hc, hname⟩ := h.named u c honline
    rw [hj.length]
    exact ⟨Nat.lt_succ_of_lt hc, (congrArg Connection.username (hj.connection hc)).trans hname⟩

theorem numbered_ofPlan (plan : Plan) : (ofPlan plan).Numbered where
  below := nofun
  distinct := nofun

/-- **Connections last**: none is gone, none that was closed is open, and numbers stay in turn. -/
structure Lasts (x x' : Exchange) : Prop where
  later : x.Later x'
  numbered : x.Numbered → x'.Numbered
  pool : x'.hub.pool.isSome = x.hub.pool.isSome

theorem lasts_withHub {hub : Hub} (hplaces : Hub.SamePlaces x.hub hub)
    (hclosed : ∀ c, (x.hub.connection c).closed = true → (hub.connection c).closed = true) :
    x.Lasts (x.withHub hub) where
  later := ⟨Nat.le_of_eq hplaces.length.symm, fun c _ => hclosed c, rfl⟩
  numbered h := h.of_same hplaces rfl
  pool := hplaces.pool

/-- What only the pool sees leaves every connection as it is. -/
theorem lasts_of_onlyPool {hub : Hub} (h : Hub.OnlyPool x.hub hub) : x.Lasts (x.withHub hub) :=
  lasts_withHub h.samePlaces fun c hclosed => by rwa [h.connection]

/-- **Neither entries nor names change**, though a connection may join. -/
structure Unmoved (x x' : Exchange) : Prop extends Lasts x x' where
  entries : x'.hub.pool = x.hub.pool
  username : ∀ c < x.hub.connections.length,
    (x'.connection c).username = (x.connection c).username

/-- Where nobody is moved in the pool, nobody changes a name either. -/
theorem Steady.unmoved (h : x.Steady x') : x.Unmoved x' where
  later := h.later
  numbered hn := hn.of_same h.online.places h.nextId
  pool := congrArg Option.isSome h.online.pool
  entries := h.online.pool
  username c _ := h.online.username c

/-- Who joins changes nobody's name. -/
theorem Joins.unmoved (h : x.Joins x') : x.Unmoved x' where
  later := h.later
  numbered hn := hn.joins h
  pool := congrArg Option.isSome h.pool
  entries := h.pool
  username _ hc := congrArg Connection.username (h.connection hc)

/-- A signal to close moves nobody by itself. -/
theorem unmoved_signals (x : Exchange) (n : Nat) : x.Unmoved { x with signals := n } where
  later := ⟨Nat.le_refl _, fun _ _ => id, rfl⟩
  numbered hn := hn.of_same (.refl _) rfl
  pool := rfl
  entries := rfl
  username _ _ := rfl

end Exchange

namespace Service

open Line Exchange

variable {s : Service} {moves : List Move} {move : Move} {i : Nat} {l l' : Line} {call : PoolCall}
variable {u : String} {c : Place}

/-! ## Calls of the pool -/

/-- **A move that calls the pool is one of three**: a line leaves, or a handler takes its connection
online or offline. -/
theorem poolCall?_cases (hcall : s.poolCall? move = some call) :
    (∃ i l, move = .leaves i ∧ s.lines[i]? = some l ∧ l.IsDone ∧ call = .forget l.place) ∨
      (∃ r u, move = .handles r (.online u) ∧ s.exchange.hub.reachesPool r.place = true ∧
        call = .online u r.place) ∨
      ∃ r u, move = .handles r .offline ∧ s.exchange.hub.reachesPool r.place = true ∧
        (s.exchange.connection r.place).username = some u ∧ call = .offline u := by
  unfold poolCall? at hcall
  split at hcall
  · rename_i i
    obtain ⟨l, hl, rfl⟩ := Option.map_eq_some_iff.mp hcall
    obtain ⟨hl, hdone⟩ := Option.filter_eq_some_iff.mp hl
    exact .inl ⟨i, l, rfl, hl, of_decide_eq_true hdone, rfl⟩
  · rename_i r u
    obtain ⟨hreach, hsome⟩ := Option.ite_none_right_eq_some.mp hcall
    exact .inr (.inl ⟨r, u, rfl, hreach, (Option.some.inj hsome).symm⟩)
  · rename_i r
    obtain ⟨hreach, hsome⟩ := Option.ite_none_right_eq_some.mp hcall
    obtain ⟨u, hname, rfl⟩ := Option.map_eq_some_iff.mp hsome
    exact .inr (.inr ⟨r, u, rfl, hreach, hname, rfl⟩)
  · exact nomatch hcall

/-- Only a connection that there is reaches the pool. -/
theorem lt_of_reachesPool {hub : Hub} (h : hub.reachesPool c = true) :
    c < hub.connections.length := by
  have hpooled : (hub.connection c).pooled = true := (Bool.and_eq_true_iff.mp h).1
  refine Nat.lt_of_not_le fun hge => ?_
  rw [Hub.connection, List.getD_eq_getElem?_getD, List.getElem?_eq_none hge] at hpooled
  exact Bool.false_ne_true hpooled

/-- A line has its connection as long as connections last. -/
theorem sits_of_later {x x' : Exchange} (hs : l.Sits x) (h : x.Later x') : l.Sits x' where
  place := Nat.lt_of_lt_of_le hs.place h.length
  closed hnone := h.closed _ hs.place (hs.closed hnone)

/-- **A move that does not call the pool** changes neither entries nor names, and neither does a
line that leaves with no name in mind. -/
theorem unmoved_perform (hs : s.Seated)
    (hcall : ∀ call ∈ s.poolCall? move, ∃ c, call = .forget c ∧
      (s.exchange.connection c).username = none) :
    s.exchange.Unmoved (s.perform move).exchange := by
  have hhappens := happens_perform hs move
  generalize (s.perform move).exchange = x at hhappens
  cases hhappens with
  | steady _ h => exact h.unmoved
  | joins _ h => exact h.unmoved
  | signals => exact s.exchange.unmoved_signals _
  | @calls call hsome =>
    obtain ⟨c, rfl, hname⟩ := hcall call hsome
    have hsame : s.exchange.hub.perform (.forget c) = s.exchange.hub := by
      show s.exchange.hub.forget c = _
      rw [Hub.forget, show (s.exchange.hub.connection c).username = none from hname]
    rw [hsame]
    exact (Steady.refl _).unmoved

/-- **What a call does to the entry under a name**, as long as there is a pool. -/
theorem onlineAt_call (hs : s.Seated) (h : s.exchange.Registered)
    (hcall : s.poolCall? move = some call) :
    (s.exchange.hub.perform call).Named ∧ ∀ u c,
      (s.exchange.hub.perform call).onlineAt u = some c ↔
        call = .online u c ∨ ¬call.Ends u c ∧ s.exchange.hub.onlineAt u = some c := by
  have hplaces : ∀ c ∈ call.place?, c < s.exchange.hub.connections.length := by
    rcases poolCall?_cases hcall with
      ⟨i, l, -, hi, -, rfl⟩ | ⟨r, u, -, hreach, rfl⟩ | ⟨r, u, -, -, -, rfl⟩
    · rintro _ ⟨⟩
      exact (hs i l hi).place
    · rintro _ ⟨⟩
      exact lt_of_reachesPool hreach
    · nofun
  by_cases hpool : s.exchange.hub.pool.isSome
  · exact ⟨h.named.perform hpool hplaces,
      fun u c => Hub.onlineAt_perform h.named h.distinct hpool hplaces⟩
  -- Without a pool only a line that leaves calls it, and nobody is online.
  have hnone : s.exchange.hub.pool = none := Option.not_isSome_iff_eq_none.mp hpool
  rcases poolCall?_cases hcall with
    ⟨i, l, -, -, -, rfl⟩ | ⟨r, u, -, hreach, rfl⟩ | ⟨r, u, -, hreach, -, rfl⟩
  · refine ⟨h.named.forget _, fun u c => ?_⟩
    have hnobody : s.exchange.hub.onlineAt u = none := by rw [Hub.onlineAt, hnone]; rfl
    simp [Hub.perform, Hub.onlineAt_forget, hnobody]
  · exact absurd (Bool.and_eq_true_iff.mp hreach).2 hpool
  · exact absurd (Bool.and_eq_true_iff.mp hreach).2 hpool

/-- **What a move does to the entry under a name** is what its call does. -/
theorem onlineAt_move (hs : s.Seated) (h : s.exchange.Registered) (move : Move) :
    (s.perform move).exchange.Registered ∧ ∀ u c,
      (s.perform move).exchange.hub.onlineAt u = some c ↔ s.poolCall? move = some (.online u c) ∨
        (∀ call ∈ s.poolCall? move, ¬call.Ends u c) ∧ s.exchange.hub.onlineAt u = some c := by
  generalize hx : (s.perform move).exchange = x
  have hhappens : Happens s move x := hx ▸ happens_perform hs move
  cases hhappens with
  | steady hcall hsteady =>
    refine ⟨h.of_same hsteady.online.places hsteady.nextId (hsteady.online.named h.named),
      fun u c => ?_⟩
    rw [hsteady.online.onlineAt, hcall]
    simp
  | joins hcall hjoins =>
    refine ⟨h.joins hjoins, fun u c => ?_⟩
    rw [Hub.onlineAt, hjoins.pool, ← Hub.onlineAt, hcall]
    simp
  | signals hmove =>
    subst hmove
    exact ⟨h.of_same (.refl _) rfl h.named, fun u c => by simp [poolCall?, Exchange.hub]⟩
  | @calls call hcall =>
    obtain ⟨hnamed, honline⟩ := onlineAt_call hs h hcall
    refine ⟨h.of_same (Hub.samePlaces_perform ..) rfl hnamed, fun u c => ?_⟩
    show (s.exchange.hub.perform call).onlineAt u = some c ↔ _
    rw [honline, hcall]
    simp

end Service

end Switchboard
