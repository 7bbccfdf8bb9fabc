import Mathlib.Data.List.Induction
import Mathlib.Data.List.Nodup
import Switchboard.Proofs.Routing.Balance

/-!
# Proofs/Routing/Registry — handlers are numbered without gaps, middleware keys keep their slots

    byId ───┐                      slots ──▸ anchors
            ├──▸ 0, 1, 2, … < counter
    byPattern                      key ──▸ slot ──▸ the anchor with that key

A router keeps handlers in two maps, a counter, a list of anchors and a third map from middleware
keys into that list, and nothing but the calls keeps them in step.  After any calls, failed ones
included, the numbers of both maps together are those below the counter (`Numbered`), so that
listing them by number does not depend on how the maps are gone through (`listed_eq_of_perm`); every
range of an anchor begins and ends at counter values in rising order (`Anchor.Within`), and each
middleware key ever used has the slot that its first use gave it (`Slotted`).

Whether a call fails follows from the calls before it (`Call.refusal?`): a key of a handler is taken
once it was asked for, and a middleware key is known once it was used.  `registry_run` states all of
this together.
-/

namespace Switchboard

/-! ## Ranges -/

/-- Numbers in rising order with one more at the end, which is not below any of them. -/
theorem rising_concat {ns : List Nat} {n : Nat} (h : ns.Pairwise (· ≤ ·)) (hle : ∀ m ∈ ns, m ≤ n) :
    (ns ++ [n]).Pairwise (· ≤ ·) := by
  refine List.pairwise_append.mpr ⟨h, List.pairwise_singleton .., fun m hm k hk => ?_⟩
  exact List.mem_singleton.mp hk ▸ hle m hm

theorem le_concat {ns : List Nat} {n : Nat} (hle : ∀ m ∈ ns, m ≤ n) : ∀ m ∈ ns ++ [n], m ≤ n :=
  fun m hm => (List.mem_append.mp hm).elim (hle m) fun hm => Nat.le_of_eq (List.mem_singleton.mp hm)

namespace Anchor

variable {H : Type} {a : Anchor H} {m n : Nat}

/-- **The ranges of the anchor lie within the numbers given so far**, in rising order. -/
structure Within (a : Anchor H) (counter : Nat) : Prop where
  starts_rising : a.starts.Pairwise (· ≤ ·)
  ends_rising : a.ends.Pairwise (· ≤ ·)
  starts_le : ∀ n ∈ a.starts, n ≤ counter
  ends_le : ∀ n ∈ a.ends, n ≤ counter

theorem Within.mono (h : a.Within m) (hle : m ≤ n) : a.Within n :=
  { h with
    starts_le := fun k hk => Nat.le_trans (h.starts_le k hk) hle
    ends_le := fun k hk => Nat.le_trans (h.ends_le k hk) hle }

theorem within_ofFirst (key : String) (f : H) (n : Nat) : (ofFirst key f n).Within n where
  starts_rising := List.pairwise_singleton ..
  ends_rising := List.Pairwise.nil
  starts_le _ hk := Nat.le_of_eq (List.mem_singleton.mp hk)
  ends_le := nofun

theorem Within.activate (h : a.Within n) (f : H) : (a.activate f n).Within n :=
  ⟨rising_concat h.starts_rising h.starts_le, h.ends_rising, le_concat h.starts_le, h.ends_le⟩

theorem Within.deactivate (h : a.Within n) : (a.deactivate n).Within n :=
  ⟨h.starts_rising, rising_concat h.ends_rising h.ends_le, h.starts_le, le_concat h.ends_le⟩

end Anchor

namespace Router

variable {H : Type} {r : Router H} {calls : List (Call H)} {c : Call H}

/-! ## Numbers of handlers -/

/-- **The numbers of the handlers are those below the counter**, each given once. -/
def Numbered (r : Router H) : Prop :=
  ((withKeys r.byId.entries r.byPattern.entries).map Registration.index).Perm
    (List.range r.counter)

theorem numbered_empty : (empty : Router H).Numbered := List.Perm.nil

/-- A handler that is kept under a new key joins those of its map. -/
theorem withKeys_keep {key : RouteKey} (hnew : r.find? key = none) (g : Registered H) :
    (withKeys (r.keep key g).byId.entries (r.keep key g).byPattern.entries).Perm
      (g.under key :: withKeys r.byId.entries r.byPattern.entries) := by
  cases key with
  | messageId id =>
    have hentries : (r.byId.insert id g).entries = (id, g) :: r.byId.entries :=
      Assoc.entries_insert_of_new (Option.map_eq_none_iff.mp hnew)
    rw [keep, withKeys, hentries]
    exact List.Perm.refl _
  | urlPattern pattern =>
    have hentries : (r.byPattern.insert pattern g).entries = (pattern, g) :: r.byPattern.entries :=
      Assoc.entries_insert_of_new (Option.map_eq_none_iff.mp hnew)
    rw [keep, withKeys, hentries, List.map_cons]
    exact List.perm_middle

/-- A registration takes the next number. -/
theorem Numbered.register (h : r.Numbered) {key : RouteKey} (hnew : r.find? key = none)
    (own : List H) (handler : H) (through : Bool) :
    (r.register key own handler through).2.Numbered := by
  let g : Registered H := ⟨r.counter, own, handler, through⟩
  have hcounter : ({ r with counter := r.counter + 1 }.keep key g).counter = r.counter + 1 := by
    obtain ⟨ids, patterns, hkeep⟩ := keep_eq { r with counter := r.counter + 1 } key g
    rw [hkeep]
  have hjoins := withKeys_keep (r := { r with counter := r.counter + 1 }) hnew g
  rw [register_of_new r own handler through hnew, Numbered, hcounter, List.range_succ]
  exact (hjoins.map Registration.index).trans <|
    (List.Perm.cons r.counter h).trans (List.perm_append_singleton ..).symm

/-- **Every call keeps the handlers numbered.** -/
theorem Numbered.perform (h : r.Numbered) (c : Call H) : (c.perform r).Numbered := by
  cases htarget : c.target? with
  | none =>
    have hsame := perform_of_no_target htarget r
    rw [Numbered, hsame.byId, hsame.byPattern, hsame.counter]
    exact h
  | some key =>
    obtain ⟨own, handler, through, hc⟩ := perform_of_target htarget
    rw [hc]
    cases hfind : r.find? key with
    | none => exact h.register hfind own handler through
    | some g => rwa [register_of_taken r own handler through hfind]

theorem numbered_run (calls : List (Call H)) : (run calls).Numbered := by
  suffices h : ∀ r : Router H, r.Numbered → (calls.foldl Call.perform r).Numbered from
    h empty numbered_empty
  induction calls with
  | nil => exact fun _ h => h
  | cons c rest ih => exact fun r h => ih _ (h.perform c)

/-- **The counter counts the handlers of both maps.** -/
theorem Numbered.counter_eq (h : r.Numbered) :
    r.counter = r.byId.entries.length + r.byPattern.entries.length := by
  have hlength := List.Perm.length_eq h
  rw [List.length_map, withKeys, List.length_append, List.length_map, List.length_map,
    List.length_range] at hlength
  exact hlength.symm

/-! ## Listing handlers -/

section

variable {ids : List (Int32 × Registered H)} {patterns : List (String × Registered H)}

theorem listed_perm (ids : List (Int32 × Registered H)) (patterns : List (String × Registered H)) :
    (listed ids patterns).Perm (withKeys ids patterns) := List.mergeSort_perm ..

theorem rising_listed (ids : List (Int32 × Registered H))
    (patterns : List (String × Registered H)) :
    (listed ids patterns).Pairwise fun g g' => g.index ≤ g'.index := by
  have hsorted : (listed ids patterns).Pairwise fun g g' => decide (g.index ≤ g'.index) :=
    List.pairwise_mergeSort
      (fun a b c hab hbc => by
        rw [decide_eq_true_eq] at *
        exact Nat.le_trans hab hbc)
      (fun a b => by
        rw [Bool.or_eq_true, decide_eq_true_eq, decide_eq_true_eq]
        exact Nat.le_total ..)
      (withKeys ids patterns)
  exact hsorted.imp of_decide_eq_true

/-- **The handlers are listed by their numbers.** -/
theorem Numbered.indices (h : r.Numbered) :
    r.registrations.map Registration.index = List.range r.counter := by
  have hperm : (r.registrations.map Registration.index).Perm (List.range r.counter) :=
    ((listed_perm ..).map _).trans h
  refine hperm.eq_of_pairwise (fun _ _ _ _ => Nat.le_antisymm) ?_ ?_
  · exact List.pairwise_map.mpr (rising_listed ..)
  · exact List.pairwise_lt_range.imp Nat.le_of_lt

/-- The handler at position `k` has number `k`. -/
theorem Numbered.index_eq (h : r.Numbered) {k : Nat} {g : Registration H}
    (hk : r.registrations[k]? = some g) : g.index = k := by
  have hindex : (r.registrations.map Registration.index)[k]? = some g.index := by
    rw [List.getElem?_map, hk, Option.map_some]
  rw [h.indices, List.getElem?_eq_some_iff] at hindex
  obtain ⟨hlt, heq⟩ := hindex
  rw [← heq, List.getElem_range]

/-- **However the two maps are gone through**, the handlers are listed alike. -/
theorem Numbered.listed_eq_of_perm (h : r.Numbered) (hids : ids.Perm r.byId.entries)
    (hpatterns : patterns.Perm r.byPattern.entries) : listed ids patterns = r.registrations := by
  have hperm : (listed ids patterns).Perm r.registrations :=
    (listed_perm ..).trans (((hids.map _).append (hpatterns.map _)).trans (listed_perm ..).symm)
  refine hperm.eq_of_pairwise (fun a b ha hb hab hba => ?_) (rising_listed ..) (rising_listed ..)
  have hnodup : (r.registrations.map Registration.index).Nodup := h.indices ▸ List.nodup_range
  exact List.inj_on_of_nodup_map hnodup (hperm.mem_iff.mp ha) hb (Nat.le_antisymm hab hba)

/-- **Listed is what is found** under its key. -/
theorem mem_registrations_iff {g : Registration H} :
    g ∈ r.registrations ↔ r.find? g.key = some g := by
  rw [registrations, (listed_perm ..).mem_iff, withKeys, List.mem_append, List.mem_map,
    List.mem_map]
  constructor
  · rintro (⟨e, he, rfl⟩ | ⟨e, he, rfl⟩)
    · exact Option.map_eq_some_iff.mpr ⟨e.2, Assoc.mem_entries_iff.mp he, rfl⟩
    · exact Option.map_eq_some_iff.mpr ⟨e.2, Assoc.mem_entries_iff.mp he, rfl⟩
  · intro hfind
    cases hkey : g.key with
    | messageId id =>
      rw [hkey] at hfind
      obtain ⟨v, hv, hg⟩ := Option.map_eq_some_iff.mp hfind
      exact .inl ⟨(id, v), Assoc.mem_entries_iff.mpr hv, hg⟩
    | urlPattern pattern =>
      rw [hkey] at hfind
      obtain ⟨v, hv, hg⟩ := Option.map_eq_some_iff.mp hfind
      exact .inr ⟨(pattern, v), Assoc.mem_entries_iff.mpr hv, hg⟩

theorem find?_eq_some_iff {key : RouteKey} {g : Registration H} :
    r.find? key = some g ↔ g ∈ r.registrations ∧ g.key = key := by
  rw [mem_registrations_iff]
  constructor
  · intro hfind
    obtain rfl := key_of_find? hfind
    exact ⟨hfind, rfl⟩
  · rintro ⟨hfind, rfl⟩
    exact hfind

end

/-! ## Ranges and slots of anchors -/

/-- **Every call keeps the ranges within the numbers given.** -/
theorem within_perform (hr : r.Slotted) (h : ∀ a ∈ r.anchors, a.Within r.counter) (c : Call H) :
    ∀ a ∈ (c.perform r).anchors, a.Within (c.perform r).counter := by
  intro a ha
  refine Anchor.Within.mono ?_ (counter_le_perform c r)
  cases origin_perform hr ha with
  | kept hmem _ => exact h _ hmem
  | activated hmem _ => exact (h _ hmem).activate _
  | first _ _ => exact Anchor.within_ofFirst ..
  | deactivated hmem _ => exact (h _ hmem).deactivate

theorem within_run (calls : List (Call H)) :
    ∀ a ∈ (run calls).anchors, a.Within (run calls).counter := by
  suffices h : ∀ r : Router H, r.Slotted → (∀ a ∈ r.anchors, a.Within r.counter) →
      ∀ a ∈ (calls.foldl Call.perform r).anchors,
        a.Within (calls.foldl Call.perform r).counter from h empty slotted_empty nofun
  induction calls with
  | nil => exact fun _ _ h => h
  | cons c rest ih => exact fun r hr h => ih _ (hr.perform c) (within_perform hr h c)

theorem nodup_keysOf (calls : List (Call H)) : (keysOf calls).Nodup := by
  induction calls using List.reverseRecOn with
  | nil => exact List.nodup_nil
  | append_singleton calls c ih =>
    cases hused : c.usedKey? with
    | none => rwa [keysOf_concat_of_none hused]
    | some key =>
      obtain ⟨f, rfl⟩ : ∃ f, c = .activate key f := by
        cases c with
        | activate k f => exact ⟨f, Option.some.inj hused ▸ rfl⟩
        | useGlobal | deactivate | add | addBare | setRaw => cases hused
      by_cases hmem : key ∈ keysOf calls
      · rwa [keysOf_concat_of_mem hmem]
      · rw [keysOf_concat_of_not_mem hmem, ← List.concat_eq_append]
        exact ih.concat hmem

/-- **Found is the anchor with the key.** -/
theorem Slotted.anchor?_eq_some_iff (hr : r.Slotted) {key : String} {a : Anchor H} :
    r.anchor? key = some a ↔ a ∈ r.anchors ∧ a.key = key := by
  rw [anchor?, Option.bind_eq_some_iff]
  constructor
  · rintro ⟨slot, hslot, ha⟩
    have hkey := (hr key slot).mp hslot
    rw [List.getElem?_map, ha] at hkey
    exact ⟨List.mem_of_getElem? ha, Option.some.inj hkey⟩
  · rintro ⟨ha, rfl⟩
    obtain ⟨slot, hslot⟩ := List.mem_iff_getElem?.mp ha
    exact ⟨slot, (hr a.key slot).mpr (by rw [List.getElem?_map, hslot, Option.map_some]), hslot⟩

/-- **The slots are in order of first use.** -/
theorem slots_run {key : String} {slot : Nat} :
    (run calls).slots.get? key = some slot ↔ (keysOf calls)[slot]? = some key := by
  rw [slotted_run calls, (tallied calls).keys]

/-! ## Answers -/

/-- What a call answers: the number of the handler it registers, nothing, or why it fails. -/
def Call.answer (r : Router H) : Call H → Except RegistryError (Option Nat)
  | add key own handler => (r.add key own handler).1.map some
  | addBare key handler => (r.addBare key handler).1.map some
  | deactivate key => (r.deactivate key).1.map fun _ => none
  | useGlobal _ | activate .. | setRaw _ => .ok none

/-- **Why a call fails after others**, if it does: a key of a handler is taken once it was asked
for, and a middleware key is unknown until it is used. -/
def Call.refusal? (before : List (Call H)) : Call H → Option RegistryError
  | add key _ _ | addBare key _ =>
    if ∃ d ∈ before, d.target? = some key then some (.duplicateRoute key) else none
  | deactivate key =>
    if ∃ d ∈ before, d.usedKey? = some key then none else some (.unknownMiddleware key)
  | useGlobal _ | activate .. | setRaw _ => none

/-- Whoever asks for a key leaves it taken. -/
theorem exists_find?_perform {key : RouteKey} (h : c.target? = some key) (r : Router H) :
    ∃ g, (c.perform r).find? key = some g := by
  obtain ⟨own, handler, through, hc⟩ := perform_of_target h
  rw [hc, find?_register, if_pos rfl]
  cases r.find? key with
  | none => exact ⟨_, rfl⟩
  | some g => exact ⟨g, rfl⟩

/-- **A key is free until it is asked for.** -/
theorem find?_run_eq_none_iff {key : RouteKey} :
    (run calls).find? key = none ↔ ¬∃ d ∈ calls, d.target? = some key := by
  constructor
  · rintro hnone ⟨d, hd, htarget⟩
    obtain ⟨before, after, rfl⟩ := List.append_of_mem hd
    obtain ⟨g, hg⟩ := exists_find?_perform htarget (run before)
    rw [run, List.foldl_append] at hnone
    cases hnone.symm.trans (find?_foldl_of_some hg after)
  · intro hnot
    exact (find?_foldl_of_ne fun d hd htarget => hnot ⟨d, hd, htarget⟩).trans (find?_empty key)

/-- **A middleware key is unknown until it is used.** -/
theorem slots_run_eq_none_iff {key : String} :
    (run calls).slots.get? key = none ↔ ¬∃ d ∈ calls, d.usedKey? = some key := by
  rw [(slotted_run calls).eq_none_iff, (tallied calls).keys, keysOf, List.mem_eraseDups,
    List.mem_filterMap]

/-- What becomes of a call after others: it answers and changes the router, or it fails and does
not. -/
structure Call.Settles (calls : List (Call H)) (c : Call H) : Prop where
  refused : ∀ e, c.refusal? calls = some e →
    c.answer (run calls) = .error e ∧ c.perform (run calls) = run calls
  answered : c.refusal? calls = none →
    c.answer (run calls) = .ok (c.target?.map fun _ => (run calls).counter)

theorem settles_register {key : RouteKey} {own : List H} {handler : H} {through : Bool}
    (hc : c.target? = some key)
    (hanswer : c.answer (run calls) = ((run calls).register key own handler through).1.map some)
    (hperform : c.perform (run calls) = ((run calls).register key own handler through).2)
    (hrefusal : c.refusal? calls =
      if ∃ d ∈ calls, d.target? = some key then some (.duplicateRoute key) else none) :
    c.Settles calls := by
  constructor
  · intro e he
    rw [hrefusal] at he
    split at he
    · cases he
      rename_i htaken
      cases hfind : (run calls).find? key with
      | none => exact absurd htaken (find?_run_eq_none_iff.mp hfind)
      | some g =>
        rw [hanswer, hperform, register, hfind]
        exact ⟨rfl, rfl⟩
    · cases he
  · intro hnone
    rw [hrefusal] at hnone
    split at hnone
    · cases hnone
    · rename_i hfree
      rw [hanswer, hc, register, find?_run_eq_none_iff.mpr hfree]
      rfl

theorem settles (calls : List (Call H)) (c : Call H) : c.Settles calls := by
  cases c with
  | add key own handler => exact settles_register rfl rfl rfl rfl
  | addBare key handler => exact settles_register rfl rfl rfl rfl
  | deactivate key =>
    by_cases hused : ∃ d ∈ calls, d.usedKey? = some key
    · refine ⟨fun e he => ?_, fun _ => ?_⟩
      · cases (if_pos hused).symm.trans he
      · cases hslot : (run calls).slots.get? key with
        | none => exact absurd hused (slots_run_eq_none_iff.mp hslot)
        | some slot =>
          rw [Call.answer, deactivate, hslot]
          rfl
    · refine ⟨fun e he => ?_, fun hnone => ?_⟩
      · cases (if_neg hused).symm.trans he
        rw [Call.answer, Call.perform, deactivate, slots_run_eq_none_iff.mpr hused]
        exact ⟨rfl, rfl⟩
      · cases (if_neg hused).symm.trans hnone
  | useGlobal | activate | setRaw =>
    refine ⟨fun e he => ?_, fun _ => rfl⟩
    cases he

/-- **The registry of a router is consistent after any calls.**  The counter counts the handlers
under message ids and those under patterns.  The numbers of the handlers are `0` to below the
counter; listed by number, however the two maps are gone through, the handler at position `k` has
number `k`, and a handler is listed just if it is found under its key.  The ranges of every anchor
rise and are at most the counter.  Every middleware key ever used has its own slot, slots being in
order of first use, and what is found there is the anchor with that key.  A call fails exactly if
its key is taken or its middleware key is unknown; then it leaves the router as it is, and otherwise
a handler that is registered is told the counter, its number. -/
theorem registry_run (calls : List (Call H)) :
    let r := run calls
    (r.counter = r.byId.entries.length + r.byPattern.entries.length ∧
      r.registrations.map Registration.index = List.range r.counter ∧
      (∀ (k : Nat) (g : Registration H), r.registrations[k]? = some g → g.index = k) ∧
      (∀ key g, r.find? key = some g ↔ g ∈ r.registrations ∧ g.key = key) ∧
      ∀ ids patterns, ids.Perm r.byId.entries → patterns.Perm r.byPattern.entries →
        listed ids patterns = r.registrations) ∧
    (∀ a ∈ r.anchors, a.Within r.counter) ∧
    (r.anchors.map Anchor.key = keysOf calls ∧ (keysOf calls).Nodup ∧
      (∀ key slot, r.slots.get? key = some slot ↔ (keysOf calls)[slot]? = some key) ∧
      ∀ key a, r.anchor? key = some a ↔ a ∈ r.anchors ∧ a.key = key) ∧
    ∀ c : Call H, c.Settles calls := by
  intro r
  have hnumbered : r.Numbered := numbered_run calls
  exact ⟨⟨hnumbered.counter_eq, hnumbered.indices, fun _ _ => hnumbered.index_eq,
      fun _ _ => find?_eq_some_iff, fun _ _ => hnumbered.listed_eq_of_perm⟩,
    within_run calls,
    ⟨(tallied calls).keys, nodup_keysOf calls, fun _ _ => slots_run,
      fun _ _ => (slotted_run calls).anchor?_eq_some_iff⟩,
    settles calls⟩

end Router

end Switchboard
