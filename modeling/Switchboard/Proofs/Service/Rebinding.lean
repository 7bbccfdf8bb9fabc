import Switchboard.Proofs.Service.Stopping

/-!
# Proofs/Service/Rebinding — no listener is lost or invented

A start takes all remembered listeners and gives them back one by one, bound again under a new
number or, once an address cannot be bound, as they were.  So what is remembered together with what
the starts in progress have taken and not given back is bound to just what calls to listen have
bound (`Lifecycle.History.Balanced`), if binding an address again yields that address.  What a start
could not bind again stands ahead of all that was remembered meanwhile, in its old order, and stays
together until a later start takes it (`Lifecycle.History.Together`).  And a start that no other
call overlaps leaves the listeners in their order (`Lifecycle.History.Alone`).
-/

namespace Switchboard

namespace Lifecycle

namespace History

variable {h h' : History} {act : Act} {i j k n : Nat} {c old : Call} {life : Lifecycle}

/-! ## Binding again -/

/-- The listener whose address call `i` binds again, if it waits for one. -/
def rebound? (h : History) (i : Nat) : Option Listener :=
  match h.calls[i]? with
  | some ⟨_, .starting (.binding (x :: _))⟩ => some x
  | _ => none

/-- Does binding an address again yield that address? -/
def Rebinds (h : History) : Act → Prop
  | .binds i address => ∀ x ∈ h.rebound? i, address = x.address
  | .listens _ | .starts | .stops | .ends _ | .passes _ | .fails _ _ => True

/-- **Does every address that is bound again stay the same?** -/
def AllRebind (h : History) : List Act → Prop
  | [] => True
  | act :: rest => h.Rebinds act ∧ AllRebind (h.perform act) rest

instance (h : History) : (act : Act) → Decidable (h.Rebinds act)
  | .binds i address => inferInstanceAs (Decidable (∀ x ∈ h.rebound? i, address = x.address))
  | .listens _ | .starts | .stops | .ends _ | .passes _ | .fails _ _ => isTrue trivial

instance decidableAllRebind : (h : History) → (acts : List Act) → Decidable (h.AllRebind acts)
  | _, [] => isTrue trivial
  | h, act :: rest => @instDecidableAnd _ _ _ (decidableAllRebind (h.perform act) rest)

/-- A listener that is bound again gets the address it had. -/
theorem Rebinds.address_eq {address : String} (hact : h.Rebinds (.binds i address))
    {took rest : List Listener} {x : Listener}
    (hi : h.calls[i]? = some ⟨took, .starting (.binding (x :: rest))⟩) : address = x.address :=
  hact x (by rw [rebound?, hi]; rfl)

/-! ## Accounts -/

/-- What the remembered listeners are bound to, and those that starts in progress have taken and not
given back. -/
def pairs (h : History) : List (Network × String) :=
  (h.life.cache ++ h.calls.flatMap Call.held).map Listener.pair

/-- **Nothing is lost or invented**: these are what calls to listen have bound, in some order. -/
def Balanced (h : History) : Prop := h.pairs.Perm h.asked

/-- At first nothing is remembered, and nothing was asked for. -/
theorem balanced_initial : initial.Balanced := .refl _

/-- What one call holds makes room for what it holds now. -/
theorem perm_flatMap_set {calls : List Call} (hi : calls[i]? = some old) :
    ((calls.set i c).flatMap Call.held ++ old.held).Perm (calls.flatMap Call.held ++ c.held) := by
  obtain ⟨hlt, hget⟩ := List.getElem?_eq_some_iff.mp hi
  obtain ⟨before, after, hcalls, hset⟩ : ∃ before after, calls = before ++ old :: after ∧
      calls.set i c = before ++ c :: after :=
    ⟨calls.take i, calls.drop (i + 1), by simp [← hget],
      List.set_eq_take_append_cons_drop.trans (if_pos hlt)⟩
  rw [hset, hcalls, List.perm_iff_count]
  intro x
  simp only [List.flatMap_append, List.flatMap_cons, List.count_append]
  omega

/-- **The balance is kept by a call that goes on**, if listeners only pass between it and the
cache. -/
theorem Balanced.set (hb : h.Balanced) (hi : h.calls[i]? = some old)
    (hsame : ((life.cache ++ c.held).map Listener.pair).Perm
      ((h.life.cache ++ old.held).map Listener.pair)) : (h.set i c life).Balanced := by
  have hset := (perm_flatMap_set (c := c) hi).map Listener.pair
  refine .trans ?_ hb
  rw [pairs, pairs, List.perm_iff_count]
  intro p
  have hheld := hset.count_eq p
  have hlife := hsame.count_eq p
  simp only [List.map_append, List.count_append, History.set] at hheld hlife ⊢
  omega

/-- The balance is kept by a new call, which holds what the cache gives up. -/
theorem Balanced.call (hb : h.Balanced)
    (hsame : ((life.cache ++ c.held).map Listener.pair).Perm (h.life.cache.map Listener.pair)) :
    (h.call c life).Balanced := by
  refine .trans ?_ hb
  rw [pairs, pairs, List.perm_iff_count]
  intro p
  have hlife := hsame.count_eq p
  simp only [List.map_append, List.count_append, History.call, List.flatMap_append,
    List.flatMap_singleton] at hlife ⊢
  omega

/-- A listener that a call to listen has bound. -/
theorem Balanced.listens (hb : h.Balanced) {took : List Listener} {network : Network}
    (address : String) (hi : h.calls[i]? = some ⟨took, .listening network⟩) :
    (((h.bind i).ask network address).set i ⟨took, .returned (.ok ())⟩
      (h.life.spawned network address).2).Balanced := by
  have hbound : ({ (h.bind i).ask network address with
      life := (h.life.spawned network address).2 } : History).Balanced := by
    show (((h.life.spawned network address).2.cache ++ _).map Listener.pair).Perm
      (h.asked ++ [(network, address)])
    rw [cache_spawned, List.append_assoc, List.map_append, List.map_append]
    refine (List.Perm.append_left _ List.perm_append_comm).trans ?_
    rw [← List.append_assoc, ← List.map_append]
    exact List.Perm.append_right _ hb
  exact hbound.set hi (.refl _)

/-- A listener that a start has bound again is bound to what it was before. -/
theorem map_pair_record (l : Lifecycle) (x : Listener) (rest : List Listener) :
    ((l.record x.network x.address).2.cache ++ rest).map Listener.pair =
      (l.cache ++ x :: rest).map Listener.pair := by
  show ((l.cache ++ [_]) ++ rest).map Listener.pair = _
  rw [List.append_assoc, List.map_append, List.map_append, List.map_append]
  rfl

/-- Every act that binds again to the same address keeps the balance. -/
theorem Balanced.goes (hb : h.Balanced) (hgoes : Goes h act h') (hact : h.Rebinds act) :
    h'.Balanced := by
  cases hgoes with
  | idle _ => exact hb
  | ends serial => exact hb
  | passes hi => exact hb.set hi (.refl _)
  | turns hi => exact hb.set hi (.refl _)
  | listens hi => exact hb.listens _ hi
  | refuses hi => exact hb.set hi (.refl _)
  | rebinds hi =>
    rw [hact.address_eq hi]
    exact Balanced.set (h := h.bind _) hb hi (.of_eq (map_pair_record ..))
  | completes hi =>
    rw [hact.address_eq hi]
    refine Balanced.set (h := h.bind _) hb hi ?_
    rw [cache_finish]
    exact .of_eq (map_pair_record ..)
  | givesUp hi =>
    refine hb.set hi ?_
    rw [cache_giveUp]
    exact List.Perm.map _ (.trans (.of_eq (List.append_nil _)) List.perm_append_comm)

/-- **Every move keeps the accounts**, as long as binding an address again yields that address. -/
theorem Balanced.moves (hb : h.Balanced) (hmoves : Moves h act h') (hact : h.Rebinds act) :
    h'.Balanced := by
  cases hmoves with
  | goes hgoes => exact hb.goes hgoes hact
  | calls stage hstage =>
    refine hb.call ?_
    cases stage with
    | starting s => exact absurd rfl (hstage s)
    | listening network => exact .of_eq (congrArg _ (List.append_nil _))
    | returned result => exact .of_eq (congrArg _ (List.append_nil _))
  | stops hphase => exact hb.call (.of_eq (congrArg _ (List.append_nil _)))
  | starts hphase hne => exact hb.call (.refl _)

/-- The balance is kept over every interleaving of such acts. -/
theorem Balanced.run (hb : h.Balanced) {acts : List Act} (hacts : h.AllRebind acts) :
    (h.run acts).Balanced := by
  induction acts generalizing h with
  | nil => exact hb
  | cons act acts ih => exact ih (hb.moves (h.moves_perform act) hacts.1) hacts.2

/-! ## What could not be bound again -/

/-- These listeners stand together among those remembered, or a call after the first `k` took them
together. -/
def Together (k : Nat) (xs : List Listener) (h : History) : Prop :=
  k ≤ h.calls.length ∧ (xs <:+: h.life.cache ∨
    ∃ j c, k ≤ j ∧ h.calls[j]? = some c ∧ xs <:+: c.took)

section

variable {xs : List Listener}

/-- Listeners that were together stay so while a call goes on. -/
theorem Together.set (ht : Together k xs h) (hi : h.calls[i]? = some old)
    (htook : c.took = old.took)
    (hcache : h.life.cache <:+: life.cache) : Together k xs (h.set i c life) := by
  obtain ⟨hk, hcached | ⟨j, d, hj, hd, htaken⟩⟩ := ht
  · exact ⟨List.length_set.symm ▸ hk, .inl (hcached.trans hcache)⟩
  · refine ⟨List.length_set.symm ▸ hk, .inr ?_⟩
    rcases calls_set c life hi hd with ⟨rfl, hc⟩ | hd
    · exact ⟨j, c, hj, hc, htook ▸ htaken⟩
    · exact ⟨j, d, hj, hd, htaken⟩

/-- Listeners that were together in the cache are taken together. -/
theorem Together.call (ht : Together k xs h)
    (hcache : h.life.cache <:+: life.cache ∨ h.life.cache <:+: c.took) :
    Together k xs (h.call c life) := by
  obtain ⟨hk, hcached | ⟨j, d, hj, hd, htaken⟩⟩ := ht
  · refine ⟨?_, hcache.imp hcached.trans fun hc => ⟨_, c, hk, ?_, hcached.trans hc⟩⟩
    · exact Nat.le_trans hk (List.length_append ▸ Nat.le_add_right ..)
    · exact List.getElem?_concat_length
  · refine ⟨?_, .inr ⟨j, d, hj, calls_call hd, htaken⟩⟩
    exact Nat.le_trans hk (List.length_append ▸ Nat.le_add_right ..)

/-- **No act tears listeners apart** that stood together. -/
theorem Together.goes (ht : Together k xs h) (hgoes : Goes h act h') : Together k xs h' := by
  cases hgoes with
  | idle _ => exact ht
  | ends serial => exact ht
  | passes hi => exact ht.set hi rfl (List.infix_refl _)
  | turns hi => exact ht.set hi rfl (List.infix_refl _)
  | listens hi =>
    exact Together.set (h := (h.bind _).ask _ _) ht hi rfl
      (cache_spawned .. ▸ (List.prefix_append ..).isInfix)
  | refuses hi => exact ht.set hi rfl (List.infix_refl _)
  | rebinds hi =>
    exact Together.set (h := h.bind _) ht hi rfl (List.prefix_append ..).isInfix
  | completes hi =>
    refine Together.set (h := h.bind _) ht hi rfl ?_
    rw [cache_finish]
    exact (List.prefix_append ..).isInfix
  | givesUp hi => exact ht.set hi rfl (cache_giveUp .. ▸ (List.suffix_append ..).isInfix)

/-- **No move parts them.** -/
theorem Together.moves (ht : Together k xs h) (hmoves : Moves h act h') : Together k xs h' := by
  cases hmoves with
  | goes hgoes => exact ht.goes hgoes
  | calls stage hstage => exact ht.call (.inl (List.infix_refl _))
  | stops hphase => exact ht.call (.inl (List.infix_refl _))
  | starts hphase hne => exact ht.call (.inr (List.infix_refl _))

end

/-! ## How many were bound again -/

/-- A start that binds addresses has bound `n` again, all it took but the `rest`, and one that has
succeeded has bound all it took; a call that has not come so far has bound nothing. -/
def HasBound (n : Nat) (c : Call) : Prop :=
  match c.stage with
  | .starting (.binding rest) => c.took.length = n + rest.length
  | .starting (.waiting _ _) => n = 0
  | .listening _ => n = 0 ∧ c.took = []
  | .returned (.ok ()) => c.took ≠ [] → c.took.length = n
  | .returned (.error _) => True

/-- **Every start has bound as many listeners as it has behind it.** -/
structure Counted (h : History) : Prop where
  calls : ∀ i c, h.calls[i]? = some c → HasBound (h.binders.count i) c
  binders : ∀ i ∈ h.binders, i < h.calls.length

theorem counted_initial : initial.Counted := ⟨fun _ _ => nofun, nofun⟩

theorem Counted.call (hc : h.Counted) (hbound : HasBound 0 c) : (h.call c life).Counted where
  calls j d hd := by
    rcases Nat.lt_or_ge j h.calls.length with hj | hj
    · exact hc.calls j d ((List.getElem?_append_left hj).symm.trans hd)
    · have hnone : h.binders.count j = 0 := List.count_eq_zero.mpr fun hmem =>
        Nat.not_lt.mpr hj (hc.binders j hmem)
      have hlast : [c][j - h.calls.length]? = some d :=
        (List.getElem?_append_right hj).symm.trans hd
      obtain rfl := List.mem_singleton.mp (List.mem_of_getElem? hlast)
      exact hnone.symm ▸ hbound
  binders j hj := List.length_append ▸ Nat.lt_add_right _ (hc.binders j hj)

/-- A call goes on counted, if what it has bound by then is what is counted for it. -/
theorem Counted.set (hc : h.Counted) (hi : h.calls[i]? = some old)
    (hbound : HasBound (h.binders.count i) c) : (h.set i c life).Counted where
  calls j d hd := by
    rcases of_calls_set hi hd with ⟨rfl, rfl⟩ | ⟨-, hd⟩
    · exact hbound
    · exact hc.calls j d hd
  binders j hj := List.length_set.symm ▸ hc.binders j hj

/-- A call that has bound one listener more. -/
theorem Counted.bind (hc : h.Counted) (hi : h.calls[i]? = some old)
    (hbound : HasBound (h.binders.count i + 1) c) : ((h.bind i).set i c life).Counted where
  calls j d hd := by
    have hcount : (h.binders ++ [i]).count j = h.binders.count j + if i = j then 1 else 0 := by
      rw [List.count_append, List.count_singleton]
      simp only [beq_iff_eq]
    show HasBound ((h.binders ++ [i]).count j) d
    rcases of_calls_set (h := h.bind i) hi hd with ⟨rfl, rfl⟩ | ⟨hij, hd⟩
    · rwa [hcount, if_pos rfl]
    · rw [hcount, if_neg hij]
      exact hc.calls j d hd
  binders j hj := by
    refine List.length_set.symm ▸ ?_
    rcases List.mem_append.mp hj with hj | hj
    · exact hc.binders j hj
    · exact List.mem_singleton.mp hj ▸ (List.getElem?_eq_some_iff.mp hi).1

theorem Counted.ask (hc : h.Counted) (network : Network) (address : String) :
    (h.ask network address).Counted :=
  ⟨hc.calls, hc.binders⟩

/-- Every act counts what it binds. -/
theorem Counted.goes (hc : h.Counted) (hs : h.Sound) (hgoes : Goes h act h') : h'.Counted := by
  cases hgoes with
  | idle _ => exact hc
  | ends serial => exact ⟨hc.calls, hc.binders⟩
  | passes hi =>
    have hnone : h.binders.count _ = 0 := hc.calls _ _ hi
    exact hc.set hi hnone
  | turns hi =>
    obtain ⟨rfl, -⟩ := hs.starts _ (List.mem_of_getElem? hi) _ rfl
    have hnone : h.binders.count _ = 0 := hc.calls _ _ hi
    refine hc.set hi ?_
    rw [hnone]
    exact (Nat.zero_add _).symm
  | listens hi =>
    obtain ⟨-, rfl⟩ : _ ∧ _ = [] := hc.calls _ _ hi
    exact (hc.ask _ _).bind hi fun hne => absurd rfl hne
  | refuses hi => exact hc.set hi trivial
  | rebinds hi =>
    have hcount := hc.calls _ _ hi
    refine hc.bind hi ?_
    simp only [HasBound, List.length_cons] at hcount ⊢
    omega
  | completes hi => exact hc.bind hi fun _ => hc.calls _ _ hi
  | givesUp hi => exact hc.set hi trivial

/-- A call that begins has bound nothing yet. -/
theorem Counted.moves (hc : h.Counted) (hs : h.Sound) (hmoves : Moves h act h') : h'.Counted := by
  cases hmoves with
  | goes hgoes => exact hc.goes hs hgoes
  | calls stage hstage =>
    refine hc.call ?_
    cases stage with
    | starting s => exact absurd rfl (hstage s)
    | listening network => exact ⟨rfl, rfl⟩
    | returned result =>
      cases result with
      | ok _ => exact fun hne => absurd rfl hne
      | error e => exact trivial
  | stops hphase => exact hc.call fun hne => absurd rfl hne
  | starts hphase hne => exact hc.call rfl

/-- Listeners are counted in every interleaving. -/
theorem counted_run (acts : List Act) : (initial.run acts).Counted :=
  (run_induction (P := fun h => h.Sound ∧ h.Counted) ⟨sound_initial, counted_initial⟩
    (fun ⟨hs, hc⟩ hmoves => ⟨hs.moves hmoves, hc.moves hs hmoves⟩) acts).2

/-! ## A start by itself -/

section

variable {took : List Listener} {r : Except ServiceError Unit}

/-- A call that has returned is not touched by another that goes on. -/
theorem returned_set (hj : h.calls[j]? = some ⟨took, .returned r⟩) (hi : h.calls[i]? = some old)
    (hold : ¬old.HasReturned) :
    (h.set i c life).calls[j]? = some ⟨took, .returned r⟩ := by
  rcases calls_set c life hi hj with ⟨rfl, -⟩ | hj
  · exact absurd ⟨r, rfl⟩ hold
  · exact hj

/-- A call that has returned stays as it is. -/
theorem returned_goes (hj : h.calls[j]? = some ⟨took, .returned r⟩) (hgoes : Goes h act h') :
    h'.calls[j]? = some ⟨took, .returned r⟩ := by
  cases hgoes with
  | idle _ => exact hj
  | ends serial => exact hj
  | passes hi => exact returned_set hj hi (Call.IsStarting.not_hasReturned ⟨_, rfl⟩)
  | turns hi => exact returned_set hj hi (Call.IsStarting.not_hasReturned ⟨_, rfl⟩)
  | listens hi =>
    exact returned_set (h := (h.bind _).ask _ _) hj hi (Call.IsListening.not_hasReturned ⟨_, rfl⟩)
  | refuses hi => exact returned_set hj hi (Call.IsListening.not_hasReturned ⟨_, rfl⟩)
  | rebinds hi =>
    exact returned_set (h := h.bind _) hj hi (Call.IsStarting.not_hasReturned ⟨_, rfl⟩)
  | completes hi =>
    exact returned_set (h := h.bind _) hj hi (Call.IsStarting.not_hasReturned ⟨_, rfl⟩)
  | givesUp hi => exact returned_set hj hi (Call.IsStarting.not_hasReturned ⟨_, rfl⟩)

end

/-- How far a start has come that nothing overlaps: what it has bound again is remembered in order,
bound to what it was before. -/
def InOrder (took cache : List Listener) : Stage → Prop
  | .starting (.waiting taken _) => taken = took ∧ cache = []
  | .starting (.binding rest) => ∃ before, took = before ++ rest ∧
      cache.map Listener.pair = before.map Listener.pair
  | .returned (.ok ()) => cache.map Listener.pair = took.map Listener.pair
  | .returned (.error _) => True
  | .listening _ => False

/-- After `calls`, which have returned, there was one call more, and it is by itself. -/
def Alone (calls : List Call) (took : List Listener) (h : History) : Prop :=
  ∃ stage, h.calls = calls ++ [⟨took, stage⟩] ∧ InOrder took h.life.cache stage

section

variable {calls : List Call} {took : List Listener}

/-- Only the last call can go on. -/
theorem eq_of_not_returned {stage stage' : Stage} {t : List Listener}
    (hreturned : ∀ c ∈ calls, c.HasReturned)
    (hi : (calls ++ [⟨took, stage⟩])[i]? = some ⟨t, stage'⟩)
    (hstage : ¬Call.HasReturned ⟨t, stage'⟩) :
    i = calls.length ∧ t = took ∧ stage' = stage := by
  rcases Nat.lt_or_ge i calls.length with hlt | hge
  · have hi' : calls[i]? = _ := (List.getElem?_append_left hlt).symm.trans hi
    exact absurd (hreturned _ (List.mem_of_getElem? hi')) hstage
  · have hlength := (List.getElem?_eq_some_iff.mp hi).1
    obtain rfl : i = calls.length := by
      rw [List.length_append, List.length_singleton] at hlength
      omega
    rw [List.getElem?_concat_length] at hi
    obtain ⟨rfl, rfl⟩ := Call.mk.inj (Option.some.inj hi)
    exact ⟨rfl, rfl, rfl⟩

theorem Alone.set {stage stage' : Stage} (hcalls : h.calls = calls ++ [⟨took, stage⟩])
    (horder : InOrder took life.cache stage') :
    Alone calls took (h.set calls.length ⟨took, stage'⟩ life) := by
  refine ⟨stage', ?_, horder⟩
  rw [History.set, hcalls, List.set_append_right _ _ (Nat.le_refl _), Nat.sub_self]
  rfl

/-- One listener more is bound again, to what it was before. -/
theorem map_pair_record_of_eq (l : Lifecycle) {before : List Listener} (x : Listener)
    (hbefore : l.cache.map Listener.pair = before.map Listener.pair) :
    (l.record x.network x.address).2.cache.map Listener.pair =
      (before ++ [x]).map Listener.pair := by
  rw [List.map_append, ← hbefore]
  exact List.map_append

/-- **A start that is alone keeps the order of what it took**, act by act. -/
theorem Alone.goes (ha : Alone calls took h) (hreturned : ∀ c ∈ calls, c.HasReturned)
    (hgoes : Goes h act h') (hact : h.Rebinds act) : Alone calls took h' := by
  obtain ⟨stage, hcalls, horder⟩ := ha
  -- all calls but the last have returned, so whatever goes on is that one
  have hlast {i : Nat} {t : List Listener} {stage' : Stage} (hi : h.calls[i]? = some ⟨t, stage'⟩)
      (hstage : ¬Call.HasReturned ⟨t, stage'⟩) : i = calls.length ∧ t = took ∧ stage' = stage :=
    eq_of_not_returned hreturned (hcalls ▸ hi) hstage
  cases hgoes with
  | idle _ => exact ⟨stage, hcalls, horder⟩
  | ends serial => exact ⟨stage, hcalls, horder⟩
  | passes hi =>
    obtain ⟨rfl, rfl, rfl⟩ := hlast hi (Call.IsStarting.not_hasReturned ⟨_, rfl⟩)
    exact Alone.set hcalls horder
  | turns hi =>
    obtain ⟨rfl, rfl, rfl⟩ := hlast hi (Call.IsStarting.not_hasReturned ⟨_, rfl⟩)
    obtain ⟨rfl, hempty⟩ := horder
    exact Alone.set hcalls ⟨[], rfl, by rw [hempty]⟩
  | listens hi =>
    obtain ⟨rfl, rfl, rfl⟩ := hlast hi (Call.IsListening.not_hasReturned ⟨_, rfl⟩)
    exact horder.elim
  | refuses hi =>
    obtain ⟨rfl, rfl, rfl⟩ := hlast hi (Call.IsListening.not_hasReturned ⟨_, rfl⟩)
    exact horder.elim
  | rebinds hi =>
    rw [hact.address_eq hi]
    obtain ⟨rfl, rfl, rfl⟩ := hlast hi (Call.IsStarting.not_hasReturned ⟨_, rfl⟩)
    obtain ⟨before, htook, hbefore⟩ := horder
    refine Alone.set (h := h.bind _) hcalls ⟨before ++ [_], ?_, map_pair_record_of_eq _ _ hbefore⟩
    rw [htook, List.append_assoc]
    rfl
  | completes hi =>
    rw [hact.address_eq hi]
    obtain ⟨rfl, rfl, rfl⟩ := hlast hi (Call.IsStarting.not_hasReturned ⟨_, rfl⟩)
    obtain ⟨before, rfl, hbefore⟩ := horder
    refine Alone.set (h := h.bind _) hcalls ?_
    show List.map _ (finish _ _).cache = _
    rw [cache_finish]
    exact map_pair_record_of_eq _ _ hbefore
  | givesUp hi =>
    obtain ⟨rfl, rfl, rfl⟩ := hlast hi (Call.IsStarting.not_hasReturned ⟨_, rfl⟩)
    exact Alone.set hcalls trivial

/-- **A start that nothing overlaps keeps the listeners in their order.** -/
theorem Alone.run (ha : Alone calls took h) (hreturned : ∀ c ∈ calls, c.HasReturned)
    {acts : List Act} (hacts : ∀ act ∈ acts, ¬act.IsCall) (hbinds : h.AllRebind acts) :
    Alone calls took (h.run acts) := by
  induction acts generalizing h with
  | nil => exact ha
  | cons act acts ih =>
    have hgoes := h.goes_perform (hacts act List.mem_cons_self)
    exact ih (ha.goes hreturned hgoes hbinds.1) (fun later hlater =>
      hacts later (List.mem_cons_of_mem _ hlater)) hbinds.2

end

/-! ## Failing and succeeding -/

section

variable {took rest : List Listener} {x : Listener}

/-- A start that cannot bind an address has bound all that it took before, and what it gives back
was told to end. -/
theorem Sound.split (hs : h.Sound) (hc : h.Counted)
    (hi : h.calls[i]? = some ⟨took, .starting (.binding (x :: rest))⟩) :
    ∃ before, took = before ++ x :: rest ∧ h.binders.count i = before.length ∧
      ∀ y ∈ x :: rest, y.serial ∈ h.life.told := by
  obtain ⟨before, htook, htold⟩ := hs.starts _ (List.mem_of_getElem? hi) _ rfl
  have hcount : took.length = h.binders.count i + (x :: rest).length := hc.calls _ _ hi
  refine ⟨before, htook, ?_, fun y hy => htold y (htook ▸ List.mem_append_right _ hy)⟩
  rw [show took = before ++ x :: rest from htook, List.length_append] at hcount
  omega

/-- What it gives back stays together. -/
theorem together_fails (e : ServiceError)
    (hi : h.calls[i]? = some ⟨took, .starting (.binding (x :: rest))⟩) :
    Together h.calls.length (x :: rest) (h.perform (.fails i e)) := by
  rw [perform_fails e hi]
  refine ⟨List.length_set.symm ▸ Nat.le_refl _, .inl ?_⟩
  show _ <:+: (h.life.giveUp (x :: rest)).cache
  rw [cache_giveUp]
  exact (List.prefix_append ..).isInfix

/-- A start that is called for takes all listeners, or it is refused. -/
theorem alone_starts (h : History) : Alone h.calls h.life.cache (h.perform .starts) ∨
    ∃ e, (h.perform .starts).calls[h.calls.length]? = some ⟨[], .returned (.error e)⟩ := by
  rw [perform, start]
  rcases beginStart_cases h.life with ⟨-, -, hbegin⟩ | ⟨e, hbegin⟩ <;> rw [hbegin]
  · exact .inl ⟨_, rfl, rfl, rfl⟩
  · exact .inr ⟨e, List.getElem?_concat_length⟩

/-- One that succeeds without another call has kept the listeners in their order. -/
theorem map_pair_of_succeeds (hreturned : ∀ c ∈ h.calls, c.HasReturned) {more : List Act}
    (hmore : ∀ act ∈ more, ¬act.IsCall) (hbinds : (h.perform .starts).AllRebind more)
    (hsucceeds : ∃ c ∈ ((h.perform .starts).run more).calls[h.calls.length]?, c.Succeeded) :
    ((h.perform .starts).run more).life.cache.map Listener.pair =
      h.life.cache.map Listener.pair := by
  obtain ⟨c, hc, hstage⟩ := hsucceeds
  rcases h.alone_starts with halone | ⟨e, hrefused⟩
  · obtain ⟨stage, hcalls, horder⟩ := halone.run hreturned hmore hbinds
    rw [hcalls, List.getElem?_concat_length] at hc
    obtain rfl := Option.some.inj hc
    obtain rfl : stage = _ := hstage
    exact horder
  · have hstays := goes_induction (P := fun h' => h'.calls[h.calls.length]? = _) hrefused
      returned_goes hmore
    obtain rfl := Option.some.inj (hstays.symm.trans hc)
    exact nomatch hstage

end

/-- **No listener is lost or invented.**  What is remembered and what starts in progress have taken
and not given back is bound to just what calls to listen have bound.  A start that cannot bind an
address has bound again what it took before that; it gives back the rest, told to end and in its
order, ahead of all that is remembered, and the rest stays together until a later call takes it.  A
start that succeeds has bound all it took, and if nothing overlaps it, in the same order. -/
theorem keeps_listeners (acts : List Act) (hbinds : initial.AllRebind acts) :
    let h := initial.run acts
    h.Balanced ∧
    (∀ i took x rest e, h.calls[i]? = some ⟨took, .starting (.binding (x :: rest))⟩ →
      let h' := h.perform (.fails i e)
      ∃ before, took = before ++ x :: rest ∧ h.binders.count i = before.length ∧
        h'.calls[i]? = some ⟨took, .returned (.error e)⟩ ∧
        h'.life.cache = x :: rest ++ h.life.cache ∧
        (∀ y ∈ x :: rest, h'.life.isTold y = true) ∧
        ∀ more, Together h.calls.length (x :: rest) (h'.run more)) ∧
    (∀ i c, h.calls[i]? = some c → c.Succeeded → c.took ≠ [] →
      h.binders.count i = c.took.length) ∧
    ((∀ c ∈ h.calls, c.HasReturned) →
      ∀ more, (∀ act ∈ more, ¬act.IsCall) → (h.perform .starts).AllRebind more →
        let h' := (h.perform .starts).run more
        (∃ c ∈ h'.calls[h.calls.length]?, c.Succeeded) →
          h'.life.cache.map Listener.pair = h.life.cache.map Listener.pair) := by
  intro h
  have hs : h.Sound := sound_run acts
  have hc : h.Counted := counted_run acts
  refine ⟨balanced_initial.run hbinds, fun i took x rest e hi => ?_, fun i c hi hstage hne => ?_,
    fun hreturned more hmore hrebind => map_pair_of_succeeds hreturned hmore hrebind⟩
  · obtain ⟨before, htook, hcount, htold⟩ := hs.split hc hi
    refine ⟨before, htook, hcount, ?_⟩
    have htogether := together_fails e hi
    rw [perform_fails e hi] at htogether ⊢
    exact ⟨calls_set_self hi, cache_giveUp .., fun y hy =>
      isTold_iff.mpr (mem_told_finish (htold y hy)), fun more =>
        run_induction htogether Together.moves more⟩
  · have hbound := hc.calls i c hi
    rw [HasBound, show c.stage = _ from hstage] at hbound
    exact (hbound hne).symm

/-- A start that binds one of two listeners again, and the next, which binds both. -/
theorem keeps_listeners_retried :
    let acts : List Act := [.listens .tcp, .listens .unix, .binds 0 "a", .binds 1 "b", .stops,
      .starts, .ends 0, .passes 3, .ends 1, .passes 3, .passes 3, .binds 3 "a"]
    let fails : Act := .fails 3 (.link (.bind .unix "b" .addressInUse))
    let later : List Act := acts ++ [fails, .stops]
    let more : List Act := [.passes 5, .ends 2, .passes 5, .passes 5, .binds 5 "b", .binds 5 "a"]
    initial.AllRebind acts ∧ (initial.run acts).Balanced ∧ (initial.run acts).binders.count 3 = 1 ∧
      ((initial.run acts).perform fails).life.cache.map Listener.pair =
        [(.unix, "b"), (.tcp, "a")] ∧
      (((initial.run later).perform .starts).run more).life.cache.map Listener.pair =
        (initial.run later).life.cache.map Listener.pair := by
  intro acts fails later more
  have hbinds : initial.AllRebind acts := by decide +kernel
  have hlater : initial.AllRebind later := by decide +kernel
  obtain ⟨hbalanced, hfails, -⟩ := keeps_listeners acts hbinds
  obtain ⟨-, -, -, -, hcache, -⟩ := hfails 3 _ _ _ (.link (.bind .unix "b" .addressInUse)) rfl
  obtain ⟨-, -, -, halone⟩ := keeps_listeners later hlater
  have hcount : (initial.run acts).binders.count 3 = 1 := by decide +kernel
  exact ⟨hbinds, hbalanced, hcount, congrArg (List.map Listener.pair) hcache,
    halone (by decide +kernel) more (by decide) (by decide +kernel) (by decide +kernel)⟩

end History

end Lifecycle

end Switchboard
