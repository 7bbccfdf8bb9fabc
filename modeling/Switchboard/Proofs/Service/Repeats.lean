import Switchboard.Proofs.Service.Rebinding
import Switchboard.Service.Server

/-!
# Proofs/Service/Repeats — an address that is remembered twice

A service remembers every listener it has bound, also those that were stopped.  So an address that
is listened on again after a stop is remembered twice, although no two listeners ever held it at the
same time.  What is remembered has no address twice just if calls to listen have bound none twice
(`Lifecycle.History.remembers_once_iff`).  A start takes both, but the machine gives an address to
one listener at a time (`Lifecycle.History.Allows`).  Such a start gives up, and the listeners it
gives back have the address twice again.
-/

namespace Switchboard

namespace Lifecycle

/-! ## Listeners that have ended -/

/-- **A listener ends only after it was told to**, and is told only once it was bound. -/
structure Tidy (l : Lifecycle) : Prop where
  told : ∀ n ∈ l.told, n < l.fresh
  ended : ∀ n ∈ l.ended, n ∈ l.told

section

variable {l : Lifecycle} {n : Nat} {xs : List Listener}

theorem tidy_initial : initial.Tidy := ⟨nofun, nofun⟩

theorem Tidy.tell (ht : l.Tidy) (hxs : ∀ x ∈ xs, x.serial < l.fresh) : (l.tell xs).Tidy where
  told n hn := by
    rcases mem_told_tell.mp hn with ⟨x, hx, rfl⟩ | hn
    · exact hxs x hx
    · exact ht.told n hn
  ended n hn := mem_told_tell.mpr (.inr (ht.ended n hn))

theorem Tidy.noteEnd (ht : l.Tidy) (hn : n ∈ l.told) : (l.noteEnd n).Tidy where
  told := ht.told
  ended m hm := by
    rcases List.mem_cons.mp hm with rfl | hm
    · exact hn
    · exact ht.ended m hm

theorem Tidy.record (ht : l.Tidy) (network : Network) (address : String) :
    (l.record network address).2.Tidy :=
  ⟨fun n hn => Nat.lt_succ_of_lt (ht.told n hn), ht.ended⟩

theorem Tidy.spawned (ht : l.Tidy) (network : Network) (address : String) :
    (l.spawned network address).2.Tidy := by
  have hbound := ht.record network address
  unfold Lifecycle.spawned
  dsimp only
  split
  · exact ⟨hbound.told, hbound.ended⟩
  · exact hbound

theorem Tidy.finish (ht : l.Tidy) (hcache : ∀ x ∈ l.cache, x.serial < l.fresh) (b : Bool) :
    (l.finish b).Tidy := by
  unfold Lifecycle.finish
  split
  · exact ⟨ht.told, ht.ended⟩
  · exact ht.tell hcache
  · exact ht

theorem Tidy.giveUp (ht : l.Tidy) (hxs : ∀ x ∈ xs ++ l.cache, x.serial < l.fresh) :
    (l.giveUp xs).Tidy :=
  Tidy.finish (l := { l with cache := xs ++ l.cache }) ⟨ht.told, ht.ended⟩ hxs _

end

namespace History

variable {h h' : History} {act : Act} {i j : Nat} {c : Call}

/-! ## What the machine allows -/

/-- The listeners that are remembered, and those that starts in progress have taken and not given
back. -/
def holders (h : History) : List Listener := h.life.cache ++ h.calls.flatMap Call.held

/-- The network that call `i` binds an address of, if it waits for one. -/
def network? (h : History) (i : Nat) : Option Network :=
  match h.calls[i]? with
  | some ⟨_, .listening network⟩ => some network
  | some ⟨_, .starting (.binding (x :: _))⟩ => some x.network
  | _ => none

/-- **What the machine allows**: it binds an address only while no listener has it that has not
ended, and a listener ends only once it was told to. -/
def Allows (h : History) : Act → Prop
  | .binds i address => ∀ network ∈ h.network? i, ∀ x ∈ h.holders,
      x.pair = (network, address) → x.serial ∈ h.life.ended
  | .ends serial => serial ∈ h.life.told
  | .listens _ | .starts | .stops | .passes _ | .fails _ _ => True

/-- Does the machine allow one act after another? -/
def AllowsAll (h : History) : List Act → Prop
  | [] => True
  | act :: rest => h.Allows act ∧ AllowsAll (h.perform act) rest

instance (h : History) : (act : Act) → Decidable (h.Allows act)
  | .binds i address => inferInstanceAs (Decidable (∀ network ∈ h.network? i, ∀ x ∈ h.holders,
      x.pair = (network, address) → x.serial ∈ h.life.ended))
  | .ends serial => inferInstanceAs (Decidable (serial ∈ h.life.told))
  | .listens _ | .starts | .stops | .passes _ | .fails _ _ => isTrue trivial

instance decidableAllowsAll : (h : History) → (acts : List Act) → Decidable (h.AllowsAll acts)
  | _, [] => isTrue trivial
  | h, act :: rest => @instDecidableAnd _ _ _ (decidableAllowsAll (h.perform act) rest)

/-- An address of a start is bound again only if nobody has it any more. -/
theorem Allows.ended {address : String} {took rest : List Listener} {x y : Listener}
    (hallows : h.Allows (.binds i address))
    (hi : h.calls[i]? = some ⟨took, .starting (.binding (x :: rest))⟩) (hy : y ∈ h.life.cache)
    (hpair : y.pair = (x.network, address)) : y.serial ∈ h.life.ended :=
  hallows x.network (by rw [network?, hi]; rfl) y (List.mem_append_left _ hy) hpair

/-- Whatever a call awaits or holds was bound. -/
theorem Sound.lt_fresh (hs : h.Sound) (hc : c ∈ h.calls) {x : Listener}
    (hx : x ∈ c.awaited ∨ x ∈ c.held) : x.serial < h.life.fresh := by
  obtain ⟨took, stage⟩ := c
  refine hs.numbered x (.inr ⟨_, hc, ?_⟩)
  cases stage with
  | listening network => exact hx.elim nofun nofun
  | returned result => exact hx.elim nofun nofun
  | starting s =>
    cases s with
    | waiting taken rest =>
      obtain ⟨rfl, before, rfl, -⟩ := hs.starts _ hc _ rfl
      exact hx.elim (List.mem_append_right _) id
    | binding rest =>
      obtain ⟨before, rfl, -⟩ := hs.starts _ hc _ rfl
      exact hx.elim nofun (List.mem_append_right _)

theorem tidy_goes (ht : h.life.Tidy) (hs : h.Sound) (hgoes : Goes h act h')
    (hallows : h.Allows act) : h'.life.Tidy := by
  have hcache : ∀ x ∈ h.life.cache, x.serial < h.life.fresh := fun x hx => hs.numbered x (.inl hx)
  cases hgoes with
  | idle _ => exact ht
  | ends serial => exact ht.noteEnd hallows
  | passes hi =>
    exact ht.tell fun x hx => hs.lt_fresh (List.mem_of_getElem? hi)
      (.inl (List.mem_cons_of_mem _ (List.mem_of_mem_take hx)))
  | turns hi => exact ht
  | listens hi => exact ht.spawned ..
  | refuses hi => exact ht
  | rebinds hi => exact ht.record ..
  | completes hi =>
    refine (ht.record ..).finish (fun x hx => ?_) true
    rcases List.mem_append.mp hx with hx | hx
    · exact Nat.lt_succ_of_lt (hcache x hx)
    · rw [List.mem_singleton.mp hx]
      exact Nat.lt_succ_self _
  | givesUp hi =>
    refine ht.giveUp fun x hx => ?_
    rcases List.mem_append.mp hx with hx | hx
    · exact hs.lt_fresh (List.mem_of_getElem? hi) (.inr hx)
    · exact hcache x hx

theorem tidy_moves (ht : h.life.Tidy) (hs : h.Sound) (hmoves : Moves h act h')
    (hallows : h.Allows act) : h'.life.Tidy := by
  have hcache : ∀ x ∈ h.life.cache, x.serial < h.life.fresh := fun x hx => hs.numbered x (.inl hx)
  cases hmoves with
  | goes hgoes => exact tidy_goes ht hs hgoes hallows
  | calls stage hstage => exact ht
  | stops hphase =>
    have htold := ht.tell hcache
    exact ⟨htold.told, htold.ended⟩
  | starts hphase hne =>
    have htold : (h.life.tell (h.life.cache.take 1)).Tidy :=
      ht.tell fun x hx => hcache x (List.mem_of_mem_take hx)
    exact ⟨htold.told, htold.ended⟩

/-- What every act keeps that the machine allows. -/
theorem tidy_run (ht : h.life.Tidy) (hs : h.Sound) {acts : List Act} (hallows : h.AllowsAll acts) :
    (h.run acts).life.Tidy := by
  induction acts generalizing h with
  | nil => exact ht
  | cons act acts ih =>
    have hmoves := h.moves_perform act
    exact ih (tidy_moves ht hs hmoves hallows.1) (hs.moves hmoves) hallows.2

/-! ## What is remembered twice -/

/-- Without a start in progress, just what is remembered. -/
theorem pairs_eq (hstarting : ∀ c ∈ h.calls, ¬c.IsStarting) :
    h.pairs = h.life.cache.map Listener.pair := by
  have hheld : h.calls.flatMap Call.held = [] :=
    List.flatMap_eq_nil_iff.mpr fun c hc => Call.held_eq_nil (hstarting c hc)
  rw [pairs, hheld, List.append_nil]

/-- What calls have asked for is never forgotten. -/
theorem asked_moves (hmoves : Moves h act h') : h.asked <+: h'.asked := by
  cases hmoves with
  | goes hgoes =>
    cases hgoes with
    | listens hi => exact List.prefix_append ..
    | _ => exact List.prefix_refl _
  | _ => exact List.prefix_refl _

theorem asked_run (h : History) (acts : List Act) : h.asked <+: (h.run acts).asked :=
  run_induction (P := fun h' => h.asked <+: h'.asked) (List.prefix_refl _)
    (fun hbefore hmoves => hbefore.trans (asked_moves hmoves)) acts

/-- A call keeps what it took. -/
theorem took_goes (hgoes : Goes h act h') : ∀ c ∈ h'.calls, ∃ d ∈ h.calls, c.took = d.took := by
  have hset {i : Nat} {old new : Call} (hi : h.calls[i]? = some old) (htook : new.took = old.took) :
      ∀ c ∈ h.calls.set i new, ∃ d ∈ h.calls, c.took = d.took := by
    intro c hc
    rcases List.mem_or_eq_of_mem_set hc with hc | rfl
    · exact ⟨c, hc, rfl⟩
    · exact ⟨old, List.mem_of_getElem? hi, htook⟩
  cases hgoes with
  | idle _ => exact fun c hc => ⟨c, hc, rfl⟩
  | ends serial => exact fun c hc => ⟨c, hc, rfl⟩
  | passes hi => exact hset hi rfl
  | turns hi => exact hset hi rfl
  | listens hi => exact hset hi rfl
  | refuses hi => exact hset hi rfl
  | rebinds hi => exact hset hi rfl
  | completes hi => exact hset hi rfl
  | givesUp hi => exact hset hi rfl

/-- A new call takes what is remembered, or nothing. -/
theorem took_moves (hmoves : Moves h act h') : ∀ c ∈ h'.calls,
    (∃ d ∈ h.calls, c.took = d.took) ∨ c.took.Sublist h.life.cache := by
  have hcall {new : Call} (htook : new.took.Sublist h.life.cache) : ∀ c ∈ h.calls ++ [new],
      (∃ d ∈ h.calls, c.took = d.took) ∨ c.took.Sublist h.life.cache := by
    intro c hc
    rcases List.mem_append.mp hc with hc | hc
    · exact .inl ⟨c, hc, rfl⟩
    · exact .inr (List.mem_singleton.mp hc ▸ htook)
  cases hmoves with
  | goes hgoes => exact fun c hc => .inl (took_goes hgoes c hc)
  | calls stage hstage => exact hcall (List.nil_sublist _)
  | stops hphase => exact hcall (List.nil_sublist _)
  | starts hphase hne => exact hcall (List.Sublist.refl _)

/-- No start takes an address twice if no call has asked for one twice. -/
theorem Balanced.took_moves (hb : h.Balanced)
    (hbefore : h.asked.Nodup → ∀ c ∈ h.calls, (c.took.map Listener.pair).Nodup)
    (hmoves : Moves h act h') (honce : h'.asked.Nodup) :
    ∀ c ∈ h'.calls, (c.took.map Listener.pair).Nodup := by
  have hasked : h.asked.Nodup := honce.sublist (asked_moves hmoves).sublist
  intro c hc
  rcases History.took_moves hmoves c hc with ⟨d, hd, htook⟩ | htook
  · rw [htook]
    exact hbefore hasked d hd
  · have hpairs : h.pairs.Nodup := hb.nodup_iff.mpr hasked
    exact hpairs.sublist ((htook.trans (List.sublist_append_left _ _)).map _)

theorem Balanced.took_run {acts : List Act} (hb : h.Balanced)
    (hbefore : h.asked.Nodup → ∀ c ∈ h.calls, (c.took.map Listener.pair).Nodup)
    (hbinds : h.AllRebind acts) (honce : (h.run acts).asked.Nodup) :
    ∀ c ∈ (h.run acts).calls, (c.took.map Listener.pair).Nodup := by
  induction acts generalizing h with
  | nil => exact hbefore honce
  | cons act acts ih =>
    have hmoves := h.moves_perform act
    exact ih (hb.moves hmoves hbinds.1) (hb.took_moves hbefore hmoves) hbinds.2 honce

/-! ## A start that takes an address twice -/

/-- How far a start has come that nothing overlaps: all that it has bound again serves, and no two
of these have one address. -/
def Apart (l : Lifecycle) : Stage → Prop
  | .starting (.waiting _ _) => l.cache = []
  | .starting (.binding _) => (l.cache.map Listener.pair).Nodup ∧ ∀ x ∈ l.cache, x.serial ∉ l.told
  | .returned (.ok ()) => (l.cache.map Listener.pair).Nodup
  | .returned (.error _) => True
  | .listening _ => False

/-- A listener that is bound has no address that one that serves has. -/
theorem apart_record {l : Lifecycle} (ht : l.Tidy) {network : Network} {address : String}
    (hnodup : (l.cache.map Listener.pair).Nodup) (hserves : ∀ x ∈ l.cache, x.serial ∉ l.told)
    (hfree : ∀ x ∈ l.cache, x.pair = (network, address) → x.serial ∈ l.ended) :
    ((l.record network address).2.cache.map Listener.pair).Nodup ∧
      ∀ x ∈ (l.record network address).2.cache, x.serial ∉ l.told := by
  constructor
  · show ((l.cache ++ [_]).map Listener.pair).Nodup
    rw [List.map_append, List.nodup_append]
    refine ⟨hnodup, List.pairwise_singleton _ _, ?_⟩
    rintro p hp q hq rfl
    obtain ⟨x, hx, rfl⟩ := List.mem_map.mp hp
    exact hserves x hx (ht.ended _ (hfree x hx (List.mem_singleton.mp hq)))
  · intro x hx
    rcases List.mem_append.mp hx with hx | hx
    · exact hserves x hx
    · rw [List.mem_singleton.mp hx]
      exact fun h => Nat.lt_irrefl _ (ht.told _ h)

section

variable {calls : List Call} {took : List Listener}

/-- After `calls`, which have returned, there was one start more, and nothing overlaps it. -/
def AloneApart (calls : List Call) (took : List Listener) (h : History) : Prop :=
  ∃ stage, h.calls = calls ++ [⟨took, stage⟩] ∧ Apart h.life stage

theorem AloneApart.set {stage stage' : Stage} {life : Lifecycle}
    (hcalls : h.calls = calls ++ [⟨took, stage⟩]) (hapart : Apart life stage') :
    AloneApart calls took (h.set calls.length ⟨took, stage'⟩ life) := by
  refine ⟨stage', ?_, hapart⟩
  rw [History.set, hcalls, List.set_append_right _ _ (Nat.le_refl _), Nat.sub_self]
  rfl

theorem AloneApart.goes (ha : AloneApart calls took h) (ht : h.life.Tidy)
    (hreturned : ∀ c ∈ calls, c.HasReturned) (hgoes : Goes h act h') (hallows : h.Allows act) :
    AloneApart calls took h' := by
  obtain ⟨stage, hcalls, hapart⟩ := ha
  have hlast {i : Nat} {t : List Listener} {stage' : Stage} (hi : h.calls[i]? = some ⟨t, stage'⟩)
      (hstage : ¬Call.HasReturned ⟨t, stage'⟩) : i = calls.length ∧ t = took ∧ stage' = stage :=
    eq_of_not_returned hreturned (hcalls ▸ hi) hstage
  cases hgoes with
  | idle _ => exact ⟨stage, hcalls, hapart⟩
  | ends serial => exact ⟨stage, hcalls, hapart⟩
  | passes hi =>
    obtain ⟨rfl, rfl, rfl⟩ := hlast hi (Call.IsStarting.not_hasReturned ⟨_, rfl⟩)
    exact .set hcalls hapart
  | turns hi =>
    obtain ⟨rfl, rfl, rfl⟩ := hlast hi (Call.IsStarting.not_hasReturned ⟨_, rfl⟩)
    have hempty : h.life.cache = [] := hapart
    refine .set hcalls ?_
    rw [Apart, hempty]
    exact ⟨List.nodup_nil, List.forall_mem_nil _⟩
  | listens hi =>
    obtain ⟨rfl, rfl, rfl⟩ := hlast hi (Call.IsListening.not_hasReturned ⟨_, rfl⟩)
    exact hapart.elim
  | refuses hi =>
    obtain ⟨rfl, rfl, rfl⟩ := hlast hi (Call.IsListening.not_hasReturned ⟨_, rfl⟩)
    exact hapart.elim
  | rebinds hi =>
    obtain ⟨rfl, rfl, rfl⟩ := hlast hi (Call.IsStarting.not_hasReturned ⟨_, rfl⟩)
    obtain ⟨hnodup, hserves⟩ := hapart
    exact .set (h := h.bind _) hcalls
      (apart_record ht hnodup hserves fun x => hallows.ended hi)
  | completes hi =>
    obtain ⟨rfl, rfl, rfl⟩ := hlast hi (Call.IsStarting.not_hasReturned ⟨_, rfl⟩)
    obtain ⟨hnodup, hserves⟩ := hapart
    refine .set (h := h.bind _) hcalls ?_
    rw [Apart, cache_finish]
    exact (apart_record ht hnodup hserves fun x => hallows.ended hi).1
  | givesUp hi =>
    obtain ⟨rfl, rfl, rfl⟩ := hlast hi (Call.IsStarting.not_hasReturned ⟨_, rfl⟩)
    exact .set hcalls trivial

theorem AloneApart.run (ha : AloneApart calls took h) (ht : h.life.Tidy) (hs : h.Sound)
    (hreturned : ∀ c ∈ calls, c.HasReturned) {acts : List Act}
    (hacts : ∀ act ∈ acts, ¬act.IsCall) (hallows : h.AllowsAll acts) :
    AloneApart calls took (h.run acts) := by
  induction acts generalizing h with
  | nil => exact ha
  | cons act acts ih =>
    have hgoes := h.goes_perform (hacts act List.mem_cons_self)
    exact ih (ha.goes ht hreturned hgoes hallows.1) (tidy_goes ht hs hgoes hallows.1)
      (hs.goes hgoes) (fun later hlater => hacts later (List.mem_cons_of_mem _ hlater)) hallows.2

end

/-- A start that is called for has bound nothing yet. -/
theorem aloneApart_starts (h : History) :
    ∃ took, AloneApart h.calls took (h.perform .starts) := by
  rw [perform, start]
  rcases beginStart_cases h.life with ⟨-, -, hbegin⟩ | ⟨e, hbegin⟩ <;> rw [hbegin]
  · exact ⟨h.life.cache, _, rfl, rfl⟩
  · exact ⟨[], _, rfl, trivial⟩

/-- **A start succeeds only if it takes no address twice.** -/
theorem nodup_of_succeeds (ht : h.life.Tidy) (hs : h.Sound)
    (hreturned : ∀ c ∈ h.calls, c.HasReturned) {more : List Act}
    (hmore : ∀ act ∈ more, ¬act.IsCall) (hbinds : (h.perform .starts).AllRebind more)
    (hallows : (h.perform .starts).AllowsAll more)
    (hsucceeds : ∃ c ∈ ((h.perform .starts).run more).calls[h.calls.length]?, c.Succeeded) :
    (h.life.cache.map Listener.pair).Nodup := by
  rw [← map_pair_of_succeeds hreturned hmore hbinds hsucceeds]
  obtain ⟨took, halone⟩ := h.aloneApart_starts
  obtain ⟨stage, hcalls, hapart⟩ := halone.run (tidy_moves ht hs h.moves_start trivial)
    (hs.moves h.moves_start) hreturned hmore hallows
  obtain ⟨c, hc, hstage⟩ := hsucceeds
  rw [hcalls, List.getElem?_concat_length] at hc
  obtain rfl := Option.some.inj hc
  obtain rfl : stage = _ := hstage
  exact hapart

/-- **An address is remembered once just if it was asked for once.**  What is remembered and what
starts in progress have taken and not given back has no address twice just if calls to listen have
bound none twice; then no start takes one twice either.  Once an address was asked for twice, as it
can be after a stop, that is never forgotten, and no start succeeds any more that nothing
overlaps. -/
theorem remembers_once_iff (acts : List Act) (hbinds : initial.AllRebind acts) :
    let h := initial.run acts
    (h.pairs.Nodup ↔ h.asked.Nodup) ∧
    (h.asked.Nodup → (h.life.cache.map Listener.pair).Nodup ∧
      ∀ c ∈ h.calls, (c.took.map Listener.pair).Nodup) ∧
    ((∀ c ∈ h.calls, ¬c.IsStarting) →
      ((h.life.cache.map Listener.pair).Nodup ↔ h.asked.Nodup)) ∧
    (∀ more, h.asked <+: (h.run more).asked) ∧
    (initial.AllowsAll acts → (∀ c ∈ h.calls, c.HasReturned) →
      ∀ more, (∀ act ∈ more, ¬act.IsCall) → (h.perform .starts).AllRebind more →
        (h.perform .starts).AllowsAll more →
        (∃ c ∈ ((h.perform .starts).run more).calls[h.calls.length]?, c.Succeeded) →
          h.asked.Nodup) := by
  intro h
  have hs : h.Sound := sound_run acts
  have hb : h.Balanced := balanced_initial.run hbinds
  have honce : h.pairs.Nodup ↔ h.asked.Nodup := hb.nodup_iff
  have hcache (hstarting : ∀ c ∈ h.calls, ¬c.IsStarting) :
      (h.life.cache.map Listener.pair).Nodup ↔ h.asked.Nodup := by
    rw [← pairs_eq hstarting, honce]
  refine ⟨honce, fun hasked => ⟨?_, ?_⟩, hcache, h.asked_run, fun hallows hreturned more hmore
    hrebind hmachine hsucceeds => ?_⟩
  · exact (honce.mpr hasked).sublist ((List.sublist_append_left _ _).map _)
  · exact balanced_initial.took_run (fun _ => List.forall_mem_nil _) hbinds hasked
  · have ht : h.life.Tidy := tidy_run tidy_initial sound_initial hallows
    refine (hcache fun c hc hstarting => hstarting.not_hasReturned (hreturned c hc)).mp ?_
    exact nodup_of_succeeds ht hs hreturned hmore hrebind hmachine hsucceeds

/-- An address that is listened on again after a stop, and a start after another. -/
theorem remembers_once_iff_listened_again :
    let acts : List Act := [.listens .udp, .binds 0 "a", .stops, .ends 0, .listens .udp,
      .binds 2 "a", .stops]
    let more : List Act := [.passes 4, .ends 1, .passes 4, .passes 4, .binds 4 "a",
      .fails 4 (.link (.bind .udp "a" .addressInUse))]
    let h := initial.run acts
    initial.AllRebind acts ∧ initial.AllowsAll acts ∧ (∀ c ∈ h.calls, c.HasReturned) ∧
      (h.perform .starts).AllRebind more ∧ (h.perform .starts).AllowsAll more ∧
      ¬(h.life.cache.map Listener.pair).Nodup ∧
      ¬∃ c ∈ ((h.perform .starts).run more).calls[h.calls.length]?, c.Succeeded := by
  intro acts more h
  have hbinds : initial.AllRebind acts := by decide +kernel
  have hallows : initial.AllowsAll acts := by decide +kernel
  have hreturned : ∀ c ∈ h.calls, c.HasReturned := by decide +kernel
  have hrebind : (h.perform .starts).AllRebind more := by decide +kernel
  have hmachine : (h.perform .starts).AllowsAll more := by decide +kernel
  have htwice : ¬h.asked.Nodup := by decide +kernel
  obtain ⟨-, -, hcache, -, hfails⟩ := remembers_once_iff acts hbinds
  exact ⟨hbinds, hallows, hreturned, hrebind, hmachine,
    fun honce => htwice ((hcache fun c hc hstarting =>
      hstarting.not_hasReturned (hreturned c hc)).mp honce),
    fun hsucceeds => htwice (hfails hallows hreturned more (by decide) hrebind hmachine hsucceeds)⟩

end History

end Lifecycle

namespace Service

/-- **A service remembers an address twice** that it listens on again after a stop, and after the
next stop it cannot be started. -/
theorem not_nodup_cache_listened_again :
    let s : Service := .ofPlan ⟨.empty, .standard, none, none, .none⟩ (.fresh true)
    let stopped := ((s.listen "udp" "127.0.0.1:5000" false).2.stop false).2.settle
    let again := stopped.listen "udp" "127.0.0.1:5000" false
    let later := (again.2.stop false).2.settle
    again.1 = .ok (.internet .udp ⟨.v4 127 0 0 1, 5000⟩) ∧
      again.2.life.cache.map Listener.pair = [(.udp, "127.0.0.1:5000"), (.udp, "127.0.0.1:5000")] ∧
      ¬(again.2.life.cache.map Listener.pair).Nodup ∧
      later.start.1 = .error (.link (.bind .udp "127.0.0.1:5000" .addressInUse)) := by
  decide +kernel

end Service

end Switchboard
