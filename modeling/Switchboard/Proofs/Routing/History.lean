import Switchboard.Proofs.Routing.Calls
import Switchboard.Proofs.Routing.Ranges
import Switchboard.Proofs.Wire.Grammar

/-!
# Proofs/Routing/History — a chain follows from the calls

`Router.Keeps` says what the anchors of a router know of the calls that made it: the keys, the
functions given last, the ranges, and for every handler registered so far whether each middleware
was active at that time.  One call in turn preserves it (`Keeps.concat`).  The chain of a request is
then read off the calls (`resolve_run`).
-/

namespace Switchboard

namespace Router

variable {H : Type} {r : Router H} {calls before after : List (Call H)} {c : Call H}

/-! ## Registrations and the counter -/

/-- A call for a key registers under it, if it can. -/
theorem perform_of_target {key : RouteKey} (h : c.target? = some key) :
    ∃ own handler through, ∀ r, c.perform r = (r.register key own handler through).2 := by
  cases c with
  | add k own handler =>
    injection h with hk
    exact ⟨own, handler, true, fun r => by rw [← hk]; rfl⟩
  | addBare k handler =>
    injection h with hk
    exact ⟨[], handler, false, fun r => by rw [← hk]; rfl⟩
  | useGlobal | activate | deactivate | setRaw => cases h

/-- The second router has the handlers of the first. -/
structure SameHandlers (r r' : Router H) : Prop where
  byId : r'.byId = r.byId
  byPattern : r'.byPattern = r.byPattern
  counter : r'.counter = r.counter

/-- Keys lead to the same registrations. -/
theorem SameHandlers.find? {r' : Router H} (h : SameHandlers r r') (key : RouteKey) :
    r'.find? key = r.find? key := by
  cases key with
  | messageId id => rw [Router.find?, Router.find?, h.byId]
  | urlPattern pattern => rw [Router.find?, Router.find?, h.byPattern]

/-- Any other call leaves the handlers alone. -/
theorem perform_of_no_target (h : c.target? = none) (r : Router H) :
    SameHandlers r (c.perform r) := by
  cases c with
  | add | addBare => cases h
  | activate k f =>
    show SameHandlers r (r.activate k f)
    unfold activate
    split <;> exact ⟨rfl, rfl, rfl⟩
  | deactivate k =>
    show SameHandlers r (r.deactivate k).2
    unfold deactivate
    split <;> exact ⟨rfl, rfl, rfl⟩
  | useGlobal | setRaw => exact ⟨rfl, rfl, rfl⟩

/-- A handler that is kept is found under its key. -/
theorem find?_keep (r : Router H) (key k : RouteKey) (g : Registered H) :
    (r.keep key g).find? k = if k = key then some (g.under key) else r.find? k := by
  cases key with
  | messageId id =>
    cases k with
    | messageId id' =>
      simp only [keep, find?, Assoc.get?_insert, RouteKey.messageId.injEq]
      split <;> simp [*]
    | urlPattern pattern => rfl
  | urlPattern pattern =>
    cases k with
    | messageId id => rfl
    | urlPattern pattern' =>
      simp only [keep, find?, Assoc.get?_insert, RouteKey.urlPattern.injEq]
      split <;> simp [*]

theorem find?_empty (key : RouteKey) : (empty : Router H).find? key = none := by
  cases key with
  | messageId id | urlPattern pattern => rfl

/-- What is kept under a key changes one of the two maps only. -/
theorem keep_eq (r : Router H) (key : RouteKey) (g : Registered H) :
    ∃ ids patterns, r.keep key g = { r with byId := ids, byPattern := patterns } := by
  cases key with
  | messageId id | urlPattern pattern => exact ⟨_, _, rfl⟩

/-- A new key takes the next index. -/
theorem register_of_new (r : Router H) {key : RouteKey} (own : List H) (handler : H)
    (through : Bool) (h : r.find? key = none) :
    (r.register key own handler through).2 =
      { r with counter := r.counter + 1 }.keep key ⟨r.counter, own, handler, through⟩ := by
  rw [register, h]

/-- A key that is taken changes nothing. -/
theorem register_of_taken (r : Router H) {key : RouteKey} (own : List H) (handler : H)
    (through : Bool) {g : Registration H} (h : r.find? key = some g) :
    (r.register key own handler through).2 = r := by
  rw [register, h]

/-- A registration changes the handlers and the counter only. -/
theorem register_eq (r : Router H) (key : RouteKey) (own : List H) (handler : H) (through : Bool) :
    ∃ n ids patterns, (r.register key own handler through).2 =
      { r with counter := n, byId := ids, byPattern := patterns } := by
  cases hfind : r.find? key with
  | some g => exact ⟨_, _, _, register_of_taken r own handler through hfind⟩
  | none =>
    rw [register_of_new r own handler through hfind]
    obtain ⟨ids, patterns, hkeep⟩ := keep_eq { r with counter := r.counter + 1 } key
      ⟨r.counter, own, handler, through⟩
    exact ⟨_, ids, patterns, hkeep⟩

/-- What a registration adds to the handlers found. -/
theorem find?_register (r : Router H) (key k : RouteKey) (own : List H) (handler : H)
    (through : Bool) :
    (r.register key own handler through).2.find? k =
      (r.find? k).or (if key = k then some ⟨key, r.counter, own, handler, through⟩ else none) := by
  cases hfind : r.find? key with
  | some g =>
    rw [register_of_taken r own handler through hfind]
    split
    · rename_i hk
      rw [← hk, hfind, Option.some_or]
    · exact Option.or_none.symm
  | none =>
    rw [register_of_new r own handler through hfind, find?_keep]
    by_cases hk : k = key
    · rw [if_pos hk, if_pos hk.symm, hk, hfind, Option.none_or]
      rfl
    · rw [if_neg hk, if_neg (Ne.symm hk), Option.or_none]
      exact SameHandlers.find? ⟨rfl, rfl, rfl⟩ k

/-- A handler that is registered stays so. -/
theorem find?_perform_of_some {key : RouteKey} {g : Registration H} (h : r.find? key = some g)
    (c : Call H) : (c.perform r).find? key = some g := by
  cases htarget : c.target? with
  | none => exact ((perform_of_no_target htarget r).find? key).trans h
  | some k =>
    obtain ⟨own, handler, through, hc⟩ := perform_of_target htarget
    rw [hc, find?_register, h, Option.some_or]

/-- A call for another key changes nothing about this one. -/
theorem find?_perform_of_ne {key : RouteKey} (h : c.target? ≠ some key) :
    (c.perform r).find? key = r.find? key := by
  cases htarget : c.target? with
  | none => exact (perform_of_no_target htarget r).find? key
  | some k =>
    have hne : k ≠ key := fun hk => h (htarget.trans (congrArg some hk))
    obtain ⟨own, handler, through, hc⟩ := perform_of_target htarget
    rw [hc, find?_register, if_neg hne, Option.or_none]

/-- **A registration stays as it was made**, whatever is called later. -/
theorem find?_foldl_of_some {key : RouteKey} {g : Registration H} (h : r.find? key = some g)
    (calls : List (Call H)) : (calls.foldl Call.perform r).find? key = some g := by
  induction calls generalizing r with
  | nil => exact h
  | cons c rest ih => exact ih (find?_perform_of_some h c)

/-- A key that no later call is about leads where it led. -/
theorem find?_foldl_of_ne {key : RouteKey} (h : ∀ c ∈ calls, c.target? ≠ some key) :
    (calls.foldl Call.perform r).find? key = r.find? key := by
  induction calls generalizing r with
  | nil => rfl
  | cons c rest ih =>
    obtain ⟨hc, hrest⟩ := List.forall_mem_cons.mp h
    exact (ih hrest).trans (find?_perform_of_ne hc)

/-- **A registered handler stems from the first call for its key.** -/
theorem exists_first_of_find? {key : RouteKey} {g : Registration H}
    (h : (run calls).find? key = some g) :
    ∃ before c after, calls = before ++ c :: after ∧ c.target? = some key ∧
      ∀ d ∈ before, d.target? ≠ some key := by
  cases hfirst : calls.find? fun c => c.target? = some key with
  | none =>
    have hne : ∀ c ∈ calls, c.target? ≠ some key := fun c hc htarget =>
      List.find?_eq_none.mp hfirst c hc (decide_eq_true htarget)
    exact nomatch h.symm.trans ((find?_foldl_of_ne hne).trans (find?_empty key))
  | some c =>
    obtain ⟨hc, before, after, hsplit, hbefore⟩ := List.find?_eq_some_iff_append.mp hfirst
    refine ⟨before, c, after, hsplit, of_decide_eq_true hc, fun d hd htarget => ?_⟩
    have hnot := hbefore d hd
    rw [decide_eq_true htarget] at hnot
    cases hnot

/-- A call that registers a handler takes the next number and leaves the anchors alone. -/
theorem perform_of_registers (h : c.Registers r) :
    (c.perform r).counter = r.counter + 1 ∧ (c.perform r).anchors = r.anchors := by
  obtain ⟨key, htarget, hnone⟩ := h
  obtain ⟨own, handler, through, hc⟩ := perform_of_target htarget
  rw [hc, register_of_new r own handler through hnone]
  obtain ⟨ids, patterns, hkeep⟩ := keep_eq { r with counter := r.counter + 1 } key
    ⟨r.counter, own, handler, through⟩
  rw [hkeep]
  exact ⟨rfl, rfl⟩

/-- The counter never falls. -/
theorem counter_le_perform (c : Call H) (r : Router H) : r.counter ≤ (c.perform r).counter := by
  cases htarget : c.target? with
  | none => exact Nat.le_of_eq (perform_of_no_target htarget r).counter.symm
  | some key =>
    cases hfind : r.find? key with
    | some g =>
      obtain ⟨own, handler, through, hc⟩ := perform_of_target htarget
      exact Nat.le_of_eq (by rw [hc, register_of_taken r own handler through hfind])
    | none =>
      rw [(perform_of_registers ⟨key, htarget, hfind⟩).1]
      exact Nat.le_succ _

theorem counter_le_foldl (calls : List (Call H)) (r : Router H) :
    r.counter ≤ (calls.foldl Call.perform r).counter := by
  induction calls generalizing r with
  | nil => exact Nat.le_refl _
  | cons c rest ih => exact Nat.le_trans (counter_le_perform c r) (ih _)

/-- The numbers of handlers that are registered are below the counter. -/
theorem counter_lt_run (hc : c.Registers (run before)) (after : List (Call H)) :
    (run before).counter < (run (before ++ c :: after)).counter := by
  rw [run, run, List.foldl_append]
  refine Nat.lt_of_lt_of_le ?_ (counter_le_foldl after _)
  show (run before).counter < (c.perform (run before)).counter
  rw [(perform_of_registers hc).1]
  exact Nat.lt_succ_self _

/-! ## Anchors -/

/-- **Each middleware key has its own slot**, the one where its anchor stands. -/
def Slotted (r : Router H) : Prop :=
  ∀ key slot, r.slots.get? key = some slot ↔ (r.anchors.map Anchor.key)[slot]? = some key

theorem slotted_empty : (empty : Router H).Slotted := fun _ _ => ⟨nofun, nofun⟩

/-- A key has no slot exactly if no anchor has it. -/
theorem Slotted.eq_none_iff (hr : r.Slotted) {key : String} :
    r.slots.get? key = none ↔ key ∉ r.anchors.map Anchor.key := by
  rw [List.mem_iff_getElem?, Option.eq_none_iff_forall_ne_some, not_exists]
  exact forall_congr' fun slot => not_congr (hr key slot)

/-- What is done in the slot of a key is done to the anchor with that key. -/
theorem Slotted.modify_eq (hr : r.Slotted) {key : String} {slot : Nat}
    (h : r.slots.get? key = some slot) (f : Anchor H → Anchor H) :
    r.anchors.modify slot f = r.anchors.map fun a => if a.key = key then f a else a := by
  refine List.ext_getElem? fun i => ?_
  rw [List.getElem?_modify, List.getElem?_map]
  cases ha : r.anchors[i]? with
  | none => rfl
  | some a =>
    have hslot : r.slots.get? a.key = some i :=
      (hr a.key i).mpr (by rw [List.getElem?_map, ha, Option.map_some])
    have hiff : slot = i ↔ a.key = key := by
      constructor
      · rintro rfl
        have hkey := (hr key slot).mp h
        rw [List.getElem?_map, ha] at hkey
        exact Option.some.inj hkey
      · intro hkey
        rw [hkey, h] at hslot
        exact Option.some.inj hslot
    show some (if slot = i then f a else a) = some (if a.key = key then f a else a)
    simp only [hiff]

/-- **An activation opens the anchor of its key**, or makes one behind the others. -/
theorem anchors_activate (hr : r.Slotted) (key : String) (f : H) :
    (r.activate key f).anchors =
      if key ∈ r.anchors.map Anchor.key then
        r.anchors.map fun a => if a.key = key then a.activate f r.counter else a
      else r.anchors ++ [.ofFirst key f r.counter] := by
  rw [activate]
  cases hslot : r.slots.get? key with
  | none => rw [if_neg (hr.eq_none_iff.mp hslot)]
  | some slot =>
    have hused : key ∈ r.anchors.map Anchor.key :=
      List.mem_of_getElem? ((hr key slot).mp hslot)
    rw [if_pos hused]
    exact hr.modify_eq hslot _

/-- A key that was never used has no anchor to deactivate. -/
theorem anchors_deactivate (hr : r.Slotted) (key : String) :
    (r.deactivate key).2.anchors =
      r.anchors.map fun a => if a.key = key then a.deactivate r.counter else a := by
  rw [deactivate]
  cases hslot : r.slots.get? key with
  | none =>
    have hnew := hr.eq_none_iff.mp hslot
    have hsame : ∀ a ∈ r.anchors, a = if a.key = key then a.deactivate r.counter else a :=
      fun a ha => (if_neg fun hk : a.key = key => hnew (hk ▸ List.mem_map_of_mem ha)).symm
    exact (List.map_id _).symm.trans (List.map_congr_left hsame)
  | some slot => exact hr.modify_eq hslot _

/-- **Where an anchor comes from** that is there after a call. -/
inductive Origin (r : Router H) (c : Call H) : Anchor H → Prop where
  /-- It was there, and the call is about something else. -/
  | kept {a : Anchor H} (ha : a ∈ r.anchors) (hc : c.switchOf a.key = none) : Origin r c a
  /-- It was there and is activated. -/
  | activated {a : Anchor H} {f : H} (ha : a ∈ r.anchors) (hc : c = .activate a.key f) :
      Origin r c (a.activate f r.counter)
  /-- Its key is used for the first time. -/
  | first {key : String} {f : H} (hnew : key ∉ r.anchors.map Anchor.key)
      (hc : c = .activate key f) : Origin r c (.ofFirst key f r.counter)
  /-- It was there and is deactivated. -/
  | deactivated {a : Anchor H} (ha : a ∈ r.anchors) (hc : c = .deactivate a.key) :
      Origin r c (a.deactivate r.counter)

/-- A registration leaves all anchors. -/
theorem anchors_register (r : Router H) (key : RouteKey) (own : List H) (handler : H)
    (through : Bool) : (r.register key own handler through).2.anchors = r.anchors := by
  obtain ⟨n, ids, patterns, hr⟩ := register_eq r key own handler through
  rw [hr]

theorem origin_activate (hr : r.Slotted) {key : String} {f : H} {a : Anchor H}
    (h : a ∈ (r.activate key f).anchors) : Origin r (.activate key f) a := by
  rw [anchors_activate hr] at h
  split at h
  · obtain ⟨b, hb, rfl⟩ := List.mem_map.mp h
    split
    · rename_i hk
      exact .activated hb (by rw [hk])
    · rename_i hk
      exact .kept hb (if_neg (Ne.symm hk))
  · rename_i hnew
    rcases List.mem_append.mp h with ha | ha
    · have hne : key ≠ a.key := fun hk => hnew (hk ▸ List.mem_map_of_mem ha)
      exact .kept ha (if_neg hne)
    · rw [List.mem_singleton.mp ha]
      exact .first hnew rfl

theorem origin_deactivate (hr : r.Slotted) {key : String} {a : Anchor H}
    (h : a ∈ (r.deactivate key).2.anchors) : Origin r (.deactivate key) a := by
  rw [anchors_deactivate hr] at h
  obtain ⟨b, hb, rfl⟩ := List.mem_map.mp h
  split
  · rename_i hk
    exact .deactivated hb (by rw [hk])
  · rename_i hk
    exact .kept hb (if_neg (Ne.symm hk))

/-- **Every anchor after a call has one of these origins.** -/
theorem origin_perform (hr : r.Slotted) {a : Anchor H} (h : a ∈ (c.perform r).anchors) :
    Origin r c a := by
  cases c with
  | activate key f => exact origin_activate hr h
  | deactivate key => exact origin_deactivate hr h
  | add key own handler => exact .kept (anchors_register r key own handler true ▸ h) rfl
  | addBare key handler => exact .kept (anchors_register r key [] handler false ▸ h) rfl
  | useGlobal | setRaw => exact .kept h rfl

/-- What is done to anchors leaves their keys in place. -/
theorem map_key_map {anchors : List (Anchor H)} {f : Anchor H → Anchor H}
    (hf : ∀ a, (f a).key = a.key) : (anchors.map f).map Anchor.key = anchors.map Anchor.key := by
  rw [List.map_map]
  exact List.map_congr_left fun a _ => hf a

/-- A key that is used for the first time comes last. -/
theorem keys_activate (hr : r.Slotted) (key : String) (f : H) :
    (r.activate key f).anchors.map Anchor.key =
      if key ∈ r.anchors.map Anchor.key then r.anchors.map Anchor.key
      else r.anchors.map Anchor.key ++ [key] := by
  rw [anchors_activate hr]
  split
  · exact map_key_map fun a => by split <;> rfl
  · exact List.map_append

/-- A deactivation makes no anchor and removes none. -/
theorem keys_deactivate (hr : r.Slotted) (key : String) :
    (r.deactivate key).2.anchors.map Anchor.key = r.anchors.map Anchor.key := by
  rw [anchors_deactivate hr]
  exact map_key_map fun a => by split <;> rfl

/-- The keys of the anchors are those used, in order of first use. -/
theorem keys_perform (hr : r.Slotted) (c : Call H) (h : r.anchors.map Anchor.key = keysOf calls) :
    (c.perform r).anchors.map Anchor.key = keysOf (calls ++ [c]) := by
  cases c with
  | activate key f =>
    refine (keys_activate hr key f).trans ?_
    rw [h]
    split
    · exact (keysOf_concat_of_mem ‹_› f).symm
    · exact (keysOf_concat_of_not_mem ‹_› f).symm
  | deactivate key =>
    rw [keysOf_concat_of_none rfl, ← h]
    exact keys_deactivate hr key
  | add key own handler =>
    rw [keysOf_concat_of_none rfl, ← h]
    exact congrArg _ (anchors_register r key own handler true)
  | addBare key handler =>
    rw [keysOf_concat_of_none rfl, ← h]
    exact congrArg _ (anchors_register r key [] handler false)
  | useGlobal | setRaw =>
    rw [keysOf_concat_of_none rfl]
    exact h

theorem Slotted.of_same (hr : r.Slotted) {r' : Router H} (hslots : r'.slots = r.slots)
    (hkeys : r'.anchors.map Anchor.key = r.anchors.map Anchor.key) :
    r'.Slotted := fun key slot => by
  rw [hslots, hkeys]
  exact hr key slot

/-- A key that is used for the first time takes the next slot. -/
theorem Slotted.activate (hr : r.Slotted) (key : String) (f : H) : (r.activate key f).Slotted := by
  have hkeys := keys_activate hr key f
  cases hslot : r.slots.get? key with
  | some slot =>
    rw [if_pos (List.mem_of_getElem? ((hr key slot).mp hslot))] at hkeys
    refine hr.of_same ?_ hkeys
    rw [Router.activate, hslot]
  | none =>
    have hnew := hr.eq_none_iff.mp hslot
    rw [if_neg hnew] at hkeys
    have hslots :
        (r.activate key f).slots = r.slots.insert key (r.anchors.map Anchor.key).length := by
      rw [Router.activate, hslot, List.length_map]
    intro k slot
    rw [hkeys, hslots, Assoc.get?_insert]
    have hold := hr k slot
    have hfresh : ∀ slot, (r.anchors.map Anchor.key)[slot]? ≠ some key := fun slot h =>
      hnew (List.mem_of_getElem? h)
    generalize r.anchors.map Anchor.key = keys at hold hfresh ⊢
    grind

/-- **Every call keeps the keys in their slots.** -/
theorem Slotted.perform (hr : r.Slotted) (c : Call H) : (c.perform r).Slotted := by
  cases c with
  | activate key f => exact hr.activate key f
  | deactivate key =>
    refine hr.of_same ?_ (keys_deactivate hr key)
    show (r.deactivate key).2.slots = r.slots
    unfold deactivate
    split <;> rfl
  | add key own handler =>
    obtain ⟨n, ids, patterns, hregister⟩ := register_eq r key own handler true
    rw [Call.perform, add, hregister]
    exact hr.of_same rfl rfl
  | addBare key handler =>
    obtain ⟨n, ids, patterns, hregister⟩ := register_eq r key [] handler false
    rw [Call.perform, addBare, hregister]
    exact hr.of_same rfl rfl
  | useGlobal | setRaw => exact hr.of_same rfl rfl

/-- The key table leads to the anchors after any calls. -/
theorem slotted_run (calls : List (Call H)) : (run calls).Slotted := by
  suffices h : ∀ r : Router H, r.Slotted → (calls.foldl Call.perform r).Slotted from
    h empty slotted_empty
  induction calls with
  | nil => exact fun _ h => h
  | cons c rest ih => exact fun r h => ih _ (h.perform c)

/-! ## What the anchors know -/

/-- **The anchors of a router know the calls that made it.** -/
structure Keeps (calls : List (Call H)) : Prop where
  keys : (run calls).anchors.map Anchor.key = keysOf calls
  latest : ∀ a ∈ (run calls).anchors, latestOf calls a.key = some a.latest
  records : ∀ a ∈ (run calls).anchors,
    a.Records (run calls).counter (isActive calls a.key)
  covers : ∀ before c after, calls = before ++ c :: after → c.Registers (run before) →
    ∀ a ∈ (run calls).anchors, a.contains (run before).counter = isActive before a.key

theorem keeps_nil : Keeps ([] : List (Call H)) where
  keys := rfl
  latest := fun _ ha => absurd ha List.not_mem_nil
  records := fun _ ha => absurd ha List.not_mem_nil
  covers := fun _ _ _ _ _ _ ha => absurd ha List.not_mem_nil

/-- After one more call an anchor has the middleware that its key was last used with. -/
theorem Keeps.latest_concat (h : Keeps calls) {a : Anchor H} (ha : Origin (run calls) c a) :
    latestOf (calls ++ [c]) a.key = some a.latest := by
  rw [latestOf, lastOf_concat]
  cases ha with
  | kept ha hc =>
    rw [Call.functionFor_of_switchOf hc, Option.none_or]
    exact h.latest a ha
  | @activated a f ha hc =>
    show (c.functionFor a.key).or _ = some f
    rw [hc, Call.functionFor_activate, Option.some_or]
  | @first key f hnew hc =>
    show (c.functionFor key).or _ = some f
    rw [hc, Call.functionFor_activate, Option.some_or]
  | @deactivated a ha hc =>
    show (c.functionFor a.key).or _ = some a.latest
    rw [hc]
    exact h.latest a ha

/-- A middleware is off when it is activated in turn. -/
theorem Keeps.records_off (h : Keeps calls) {a : Anchor H} (ha : a ∈ (run calls).anchors) {f : H}
    (hturn : (Call.activate a.key f).InTurn calls) : a.Records (run calls).counter false := by
  have hoff : isActive calls a.key = false := hturn
  rw [← hoff]
  exact h.records a ha

/-- …and on when it is deactivated in turn. -/
theorem Keeps.records_on (h : Keeps calls) {a : Anchor H} (ha : a ∈ (run calls).anchors)
    (hturn : (Call.deactivate a.key).InTurn calls) : a.Records (run calls).counter true := by
  have hused : a.key ∈ keysOf calls := h.keys ▸ List.mem_map_of_mem ha
  have hon : isActive calls a.key = true := hturn hused
  rw [← hon]
  exact h.records a ha

/-- **An anchor records when its key was active**, up to the call that was made last. -/
theorem Keeps.records_concat (h : Keeps calls) (hturn : c.InTurn calls) {a : Anchor H}
    (ha : Origin (run calls) c a) :
    a.Records (run (calls ++ [c])).counter (isActive (calls ++ [c]) a.key) := by
  have hle : (run calls).counter ≤ (run (calls ++ [c])).counter := by
    rw [run_concat]
    exact counter_le_perform c _
  cases ha with
  | kept ha hc =>
    rw [isActive_concat_of_none hc]
    exact (h.records a ha).mono hle
  | @activated a f ha hc =>
    subst hc
    show (a.activate f _).Records _ (isActive _ a.key)
    rw [isActive_concat_of_some (Call.switchOf_activate a.key f)]
    exact ((h.records_off ha hturn).activate f).mono hle
  | @first key f hnew hc =>
    subst hc
    show (Anchor.ofFirst key f _).Records _ (isActive _ key)
    rw [isActive_concat_of_some (Call.switchOf_activate key f)]
    exact (Anchor.records_ofFirst key f _).mono hle
  | @deactivated a ha hc =>
    subst hc
    show (a.deactivate _).Records _ (isActive _ a.key)
    rw [isActive_concat_of_some (Call.switchOf_deactivate a.key)]
    exact (h.records_on ha hturn).deactivate.mono hle

/-- **Later calls change nothing for the handlers there are.** -/
theorem Keeps.contains_concat (h : Keeps calls) (hturn : c.InTurn calls) {d : Call H}
    (hsplit : calls = before ++ d :: after) (hd : d.Registers (run before)) {a : Anchor H}
    (ha : Origin (run calls) c a) : a.contains (run before).counter = isActive before a.key := by
  have hlt : (run before).counter < (run calls).counter := hsplit ▸ counter_lt_run hd after
  cases ha with
  | kept ha hc => exact h.covers before d after hsplit hd a ha
  | @activated a f ha hc =>
    subst hc
    rw [(h.records_off ha hturn).contains_activate f hlt]
    exact h.covers before d after hsplit hd a ha
  | @first key f hnew hc =>
    rw [Anchor.contains_ofFirst key f hlt]
    refine (Bool.eq_false_iff.mpr fun hon => hnew ?_).symm
    obtain ⟨g, hg⟩ := mem_keysOf.mp (mem_keysOf_of_isActive hon)
    rw [h.keys, hsplit]
    exact mem_keysOf.mpr ⟨g, List.mem_append_left _ hg⟩
  | @deactivated a ha hc =>
    subst hc
    rw [(h.records_on ha hturn).contains_deactivate hlt]
    exact h.covers before d after hsplit hd a ha

/-- **One more call in turn.** -/
theorem Keeps.concat (h : Keeps calls) (hturn : c.InTurn calls) : Keeps (calls ++ [c]) where
  keys := by
    rw [run_concat]
    exact keys_perform (slotted_run calls) c h.keys
  latest := fun a ha =>
    h.latest_concat (origin_perform (slotted_run calls) (run_concat calls c ▸ ha))
  records := fun a ha =>
    h.records_concat hturn (origin_perform (slotted_run calls) (run_concat calls c ▸ ha))
  covers := by
    intro before d after hsplit hd a ha
    rw [run_concat] at ha
    rcases List.eq_nil_or_concat after with rfl | ⟨after, x, rfl⟩
    · -- the call itself registers a handler, which takes the next number
      obtain ⟨rfl, hcd⟩ := List.append_inj' hsplit rfl
      obtain rfl : c = d := List.singleton_inj.mp hcd
      rw [(perform_of_registers hd).2] at ha
      exact (h.records a ha).contains_counter
    · rw [List.concat_eq_append, ← List.cons_append, ← List.append_assoc] at hsplit
      obtain ⟨hsplit, -⟩ := List.append_inj' hsplit rfl
      exact h.contains_concat hturn hsplit hd (origin_perform (slotted_run calls) ha)

/-- Anchors keep to the calls over all that follow. -/
theorem Keeps.append (h : Keeps before) (hturn : AlternatesAfter before calls) :
    Keeps (before ++ calls) := by
  induction calls generalizing before with
  | nil => rwa [List.append_nil]
  | cons c rest ih =>
    obtain ⟨hc, hrest⟩ := hturn
    rw [List.append_cons]
    exact ih (h.concat hc) hrest

/-- **Every sequence of calls in turn is known to the anchors it makes.** -/
theorem keeps_of_alternates (h : Alternates calls) : Keeps calls := keeps_nil.append h

/-! ## Chains -/

theorem map_latest {anchors : List (Anchor H)}
    (h : ∀ a ∈ anchors, latestOf calls a.key = some a.latest) :
    anchors.map Anchor.latest = (anchors.map Anchor.key).filterMap (latestOf calls) := by
  induction anchors with
  | nil => rfl
  | cons a rest ih =>
    obtain ⟨ha, hrest⟩ := List.forall_mem_cons.mp h
    rw [List.map_cons, List.map_cons, List.filterMap_cons_some ha, ih hrest]

/-- The functions of the anchors, in order. -/
theorem Keeps.map_latest (h : Keeps calls) :
    (run calls).anchors.map Anchor.latest = (keysOf calls).filterMap (latestOf calls) := by
  rw [Router.map_latest h.latest, h.keys]

/-- The functions of the anchors that cover a handler, in order. -/
theorem Keeps.map_latest_filter (h : Keeps calls) (hsplit : calls = before ++ c :: after)
    (hc : c.Registers (run before)) :
    ((run calls).anchors.filter fun a => a.contains (run before).counter).map Anchor.latest =
      ((keysOf calls).filter (isActive before)).filterMap (latestOf calls) := by
  rw [Router.map_latest fun a ha => h.latest a (List.mem_filter.mp ha |>.1), ← h.keys,
    List.filter_map]
  congr 2
  exact List.filter_congr fun a ha => h.covers before c after hsplit hc a ha

/-- What one call does to the global middleware and the raw handler. -/
theorem globals_raw_perform (c : Call H) (r : Router H) :
    (c.perform r).globals = r.globals ++ c.global?.toList ∧
      (c.perform r).raw = c.raw?.or r.raw := by
  cases c with
  | add key own handler =>
    obtain ⟨n, ids, patterns, hr⟩ := register_eq r key own handler true
    rw [Call.perform, add, hr]
    exact ⟨(List.append_nil _).symm, rfl⟩
  | addBare key handler =>
    obtain ⟨n, ids, patterns, hr⟩ := register_eq r key [] handler false
    rw [Call.perform, addBare, hr]
    exact ⟨(List.append_nil _).symm, rfl⟩
  | deactivate key =>
    show (r.deactivate key).2.globals = r.globals ++ [] ∧ (r.deactivate key).2.raw = r.raw
    rw [List.append_nil]
    unfold deactivate
    split <;> exact ⟨rfl, rfl⟩
  | activate key f =>
    show (r.activate key f).globals = r.globals ++ [] ∧ (r.activate key f).raw = r.raw
    rw [List.append_nil]
    unfold activate
    split <;> exact ⟨rfl, rfl⟩
  | useGlobal => exact ⟨rfl, rfl⟩
  | setRaw => exact ⟨(List.append_nil _).symm, rfl⟩

/-- The global middleware is what was called for, in order. -/
theorem globals_run (calls : List (Call H)) : (run calls).globals = globalsOf calls := by
  suffices h : ∀ r : Router H, (calls.foldl Call.perform r).globals = r.globals ++ globalsOf calls
    from h empty
  induction calls with
  | nil => exact fun r => (List.append_nil _).symm
  | cons c rest ih =>
    intro r
    rw [List.foldl_cons, ih, (globals_raw_perform c r).1, List.append_assoc, globalsOf, globalsOf,
      List.filterMap_cons]
    cases c.global? <;> rfl

/-- The raw handler is the one that was set last. -/
theorem raw_run (calls : List (Call H)) : (run calls).raw = rawOf calls := by
  suffices h : ∀ r : Router H, (calls.foldl Call.perform r).raw = (rawOf calls).or r.raw from
    (h empty).trans Option.or_none
  induction calls with
  | nil => exact fun r => rfl
  | cons c rest ih =>
    intro r
    rw [List.foldl_cons, ih, (globals_raw_perform c r).2, rawOf, rawOf, lastOf_cons,
      Option.or_assoc]

/-- **A chain follows from the calls**, as long as each middleware is activated and deactivated in
turn.  With a raw handler it is the global middleware, the middleware of every key and the raw
handler set last.  Otherwise the first call for the key that the octets are routed by decides, and
there is one for every registered handler: a bare handler runs alone, and any other after the global
middleware, the middleware of just the keys that were active when it was registered, with the
function each was given last, and its own.  Whether an anchor covers the number of a handler says
the same of any handler. -/
theorem resolve_run (calls : List (Call H)) (h : Alternates calls) (input : Bytes) :
    (∀ f, rawOf calls = some f →
      (run calls).resolve input =
        some (globalsOf calls ++ (keysOf calls).filterMap (latestOf calls) ++ [f])) ∧
    (rawOf calls = none → ∀ before c after key, calls = before ++ c :: after →
      c.target? = some key → (∀ d ∈ before, d.target? ≠ some key) → keyOf input = some key →
        (∀ own handler, c = .add key own handler →
          (run calls).resolve input =
            some (globalsOf calls ++
              ((keysOf calls).filter (isActive before)).filterMap (latestOf calls) ++ own ++
                [handler])) ∧
        ∀ handler, c = .addBare key handler → (run calls).resolve input = some [handler]) ∧
    (∀ key g, (run calls).find? key = some g → ∃ before c after, calls = before ++ c :: after ∧
      c.target? = some key ∧ ∀ d ∈ before, d.target? ≠ some key) ∧
    (run calls).anchors.map Anchor.key = keysOf calls ∧
    ∀ before c after, calls = before ++ c :: after → c.Registers (run before) →
      ∀ a ∈ (run calls).anchors, a.contains (run before).counter = isActive before a.key := by
  have hkeeps := keeps_of_alternates h
  refine ⟨fun f hf => ?_, fun hraw before c after key hsplit htarget hfresh hkey => ?_,
    fun key g hg => exists_first_of_find? hg, hkeeps.keys, hkeeps.covers⟩
  · rw [resolve, raw_run, hf]
    show some ((run calls).globals ++ (run calls).anchors.map Anchor.latest ++ [f]) = _
    rw [globals_run, hkeeps.map_latest]
  · -- the first call about a key registers it, and the registration stays as it was made
    have hnone : (run before).find? key = none :=
      (find?_foldl_of_ne hfresh).trans (find?_empty key)
    have hregisters : c.Registers (run before) := ⟨key, htarget, hnone⟩
    have hresolve (g : Registration H) (hg : (c.perform (run before)).find? key = some g) :
        (run calls).resolve input = some ((run calls).chainOf g) := by
      have hfind : (run calls).find? key = some g := by
        rw [hsplit, run, List.foldl_append]
        exact find?_foldl_of_some hg after
      rw [resolve, raw_run, hraw]
      show ((keyOf input).bind (run calls).find?).map (run calls).chainOf = _
      rw [hkey, Option.bind_some, hfind, Option.map_some]
    constructor
    · rintro own handler rfl
      have hg := find?_register (run before) key key own handler true
      rw [hnone, Option.none_or, if_pos rfl] at hg
      rw [hresolve _ hg, chainOf, if_pos rfl, globals_run,
        hkeeps.map_latest_filter hsplit hregisters]
    · rintro handler rfl
      have hg := find?_register (run before) key key [] handler false
      rw [hnone, Option.none_or, if_pos rfl] at hg
      rw [hresolve _ hg, chainOf]
      rfl

/-- A block without a header is routed by its message id. -/
theorem keyOf_bytes_of_no_header (id : Int32) (body : Bytes)
    (h : (⟨id, [], body⟩ : Block).Fits) :
    keyOf (⟨id, [], body⟩ : Block).bytes = some (.messageId id) := by
  have hread := Block.read_bytes_append h []
  rw [List.append_nil] at hread
  rw [keyOf, hread]
  rfl

/-- A middleware activated again with another function, a key that is taken and a global middleware
that comes late. -/
theorem resolve_run_reopened :
    let calls : List (Call String) := [.useGlobal "first", .activate "A" "old",
      .add (.messageId 1) [] "one", .deactivate "A", .add (.messageId 2) ["own"] "two",
      .activate "A" "new", .add (.messageId 1) [] "again", .useGlobal "late"]
    Alternates calls ∧
      (run calls).resolve (⟨1, [], []⟩ : Block).bytes = some ["first", "late", "new", "one"] ∧
      (run calls).resolve (⟨2, [], []⟩ : Block).bytes = some ["first", "late", "own", "two"] := by
  intro calls
  have h : Alternates calls := by decide
  have hone := keyOf_bytes_of_no_header 1 [] (by decide)
  have htwo := keyOf_bytes_of_no_header 2 [] (by decide)
  refine ⟨h, ?_, ?_⟩
  · exact ((resolve_run calls h _).2.1 rfl [_, _] _ _ _ rfl rfl (by decide) hone).1 _ _ rfl
  · exact ((resolve_run calls h _).2.1 rfl [_, _, _, _] _ _ _ rfl rfl (by decide) htwo).1 _ _ rfl

end Router

end Switchboard
