/-!
# Assoc — maps whose order means nothing

An `Assoc K V` lists each key once, in no order that anybody may rely on.  `get?_insert` says what
an insertion does to the look-ups, `mem_entries_iff` that the entries are what is found.
-/

namespace Switchboard

universe u v

/-- A map with each key once. -/
structure Assoc (K : Type u) (V : Type v) where
  /-- The entries, in any order. -/
  entries : List (K × V)
  /-- Each key comes once. -/
  nodup : (entries.map Prod.fst).Nodup
deriving Repr

namespace Assoc

variable {K : Type u} {V : Type v}

/-- The map without entries. -/
def empty : Assoc K V := ⟨[], List.nodup_nil⟩

instance : Inhabited (Assoc K V) := ⟨empty⟩

variable [DecidableEq K]

/-- The value under a key. -/
def get? (m : Assoc K V) (k : K) : Option V := (m.entries.find? fun e => e.1 = k).map Prod.snd

/-- The map with a value under a key, over any value there was. -/
def insert (m : Assoc K V) (k : K) (v : V) : Assoc K V where
  entries := (k, v) :: m.entries.filter fun e => e.1 ≠ k
  nodup := by
    rw [List.map_cons, List.nodup_cons]
    refine ⟨fun hk => ?_, m.nodup.sublist (List.filter_sublist.map Prod.fst)⟩
    obtain ⟨e, he, hek⟩ := List.mem_map.mp hk
    exact of_decide_eq_true (List.mem_filter.mp he).2 hek

variable {m : Assoc K V} {k k' : K} {v : V}

/-- **The entries are what is found.** -/
theorem mem_entries_iff : (k, v) ∈ m.entries ↔ m.get? k = some v := by
  obtain ⟨entries, hnodup⟩ := m
  show (k, v) ∈ entries ↔ (entries.find? fun e => e.1 = k).map Prod.snd = some v
  induction entries with
  | nil => exact ⟨nofun, nofun⟩
  | cons e rest ih =>
    rw [List.map_cons, List.nodup_cons] at hnodup
    rw [List.mem_cons, List.find?_cons]
    by_cases hk : e.1 = k
    · rw [decide_eq_true hk]
      show _ ↔ some e.2 = some v
      constructor
      · rintro (rfl | hmem)
        · rfl
        · exact absurd (List.mem_map_of_mem (f := Prod.fst) hmem) (hk ▸ hnodup.1)
      · exact fun hv => .inl (Prod.ext hk.symm (Option.some.inj hv).symm)
    · rw [decide_eq_false hk]
      have hne : (k, v) ≠ e := fun he => hk (congrArg Prod.fst he).symm
      rw [or_iff_right hne]
      exact ih hnodup.2

theorem get?_insert (m : Assoc K V) (k k' : K) (v : V) :
    (m.insert k v).get? k' = if k' = k then some v else m.get? k' := by
  refine Option.ext fun w => ?_
  rw [← mem_entries_iff, insert, List.mem_cons, List.mem_filter, mem_entries_iff]
  by_cases hk : k' = k
  · simp [hk, eq_comm]
  · simp [hk]

/-- A new key comes on top of the others. -/
theorem entries_insert_of_new (h : m.get? k = none) :
    (m.insert k v).entries = (k, v) :: m.entries :=
  congrArg ((k, v) :: ·) <| List.filter_eq_self.mpr fun e he => decide_eq_true fun hk =>
    nomatch h.symm.trans (mem_entries_iff.mp (hk ▸ he : (k, e.2) ∈ m.entries))

end Assoc

end Switchboard
