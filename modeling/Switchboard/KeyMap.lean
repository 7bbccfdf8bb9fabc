/-!
# KeyMap — maps from texts, kept in rising key order

A `KeyMap α` lists each key once, keys rising in code point order (which is also the order of their
UTF-8 octets).  The order is part of the type, so a map has one list of entries whatever the order
it was built in: `KeyMap.ext_get?` says that two maps answering every look-up alike are equal.
`get?_insert`, `get?_erase` and `get?_merge` say what each operation does to the look-ups.
-/

namespace Switchboard

universe u

/-- Entries with each key once and keys rising. -/
def Rising {α : Type u} (entries : List (String × α)) : Prop :=
  entries.Pairwise fun a b => a.1 < b.1

instance {α : Type u} (entries : List (String × α)) : Decidable (Rising entries) :=
  inferInstanceAs (Decidable (entries.Pairwise _))

/-- A map from texts to values, its keys rising. -/
structure KeyMap (α : Type u) where
  /-- The entries in key order. -/
  entries : List (String × α)
  /-- Each key comes once, below all later ones. -/
  rising : Rising entries

namespace KeyMap

variable {α : Type u}

/-! ## Entries -/

/-- Puts one entry in its place, over any entry of the same key. -/
def place (k : String) (v : α) : List (String × α) → List (String × α)
  | [] => [(k, v)]
  | e :: rest =>
    if k < e.1 then (k, v) :: e :: rest
    else if k = e.1 then (k, v) :: rest
    else e :: place k v rest

/-- The value of the first entry with this key. -/
def find : List (String × α) → String → Option α
  | [], _ => none
  | e :: rest, k => if k = e.1 then some e.2 else find rest k

theorem mem_place {k : String} {v : α} {e : String × α} :
    ∀ {l : List (String × α)}, e ∈ place k v l → e = (k, v) ∨ e ∈ l
  | [], h => by simpa [place] using h
  | f :: rest, h => by
    rw [place] at h
    split at h
    · simpa using h
    · split at h
      · rcases List.mem_cons.mp h with h | h
        · exact Or.inl h
        · exact Or.inr (List.mem_cons_of_mem _ h)
      · rcases List.mem_cons.mp h with h | h
        · exact Or.inr (h ▸ List.mem_cons_self)
        · exact (mem_place h).imp id (List.mem_cons_of_mem _)

/-- Of two keys neither equal nor rising, the second comes first. -/
theorem key_lt_of_not {a b : String} (h : ¬a < b) (hne : a ≠ b) : b < a :=
  Std.lt_of_le_of_ne (Std.not_lt.mp h) (Ne.symm hne)

theorem rising_place (k : String) (v : α) :
    ∀ {l : List (String × α)}, Rising l → Rising (place k v l)
  | [], _ => by simp [place, Rising]
  | f :: rest, h => by
    have hf : ∀ e ∈ rest, f.1 < e.1 := fun e he => List.rel_of_pairwise_cons h he
    have hr : Rising rest := List.Pairwise.of_cons h
    rw [place]
    split
    · rename_i hk
      refine List.Pairwise.cons ?_ h
      intro e he
      rcases List.mem_cons.mp he with rfl | he
      · exact hk
      · exact Std.lt_trans hk (hf e he)
    · split
      · rename_i hk
        refine List.Pairwise.cons ?_ hr
        intro e he
        exact hk ▸ hf e he
      · rename_i hlt hne
        refine List.Pairwise.cons ?_ (rising_place k v hr)
        intro e he
        rcases mem_place he with rfl | he
        · exact key_lt_of_not hlt hne
        · exact hf e he

/-! ## Operations -/

/-- The map without entries. -/
def empty : KeyMap α := ⟨[], List.Pairwise.nil⟩

instance : EmptyCollection (KeyMap α) := ⟨empty⟩
instance : Inhabited (KeyMap α) := ⟨empty⟩

/-- The value under a key. -/
def get? (m : KeyMap α) (k : String) : Option α := find m.entries k

/-- Is there an entry under this key? -/
def contains (m : KeyMap α) (k : String) : Bool := (m.get? k).isSome

/-- The keys, rising. -/
def keys (m : KeyMap α) : List String := m.entries.map Prod.fst

/-- The number of entries. -/
def size (m : KeyMap α) : Nat := m.entries.length

/-- Is there no entry? -/
def isEmpty (m : KeyMap α) : Bool := m.entries.isEmpty

/-- The map with `v` under `k`, whatever was there before. -/
def insert (m : KeyMap α) (k : String) (v : α) : KeyMap α :=
  ⟨place k v m.entries, rising_place k v m.rising⟩

/-- The map with no entry under `k`. -/
def erase (m : KeyMap α) (k : String) : KeyMap α :=
  ⟨m.entries.filter (·.1 != k), m.rising.filter _⟩

/-- The map of a list of entries, where the last entry of a key wins. -/
def ofList (l : List (String × α)) : KeyMap α :=
  l.foldl (fun m e => m.insert e.1 e.2) empty

/-- Both maps together, the second winning where they share a key. -/
def merge (m n : KeyMap α) : KeyMap α :=
  n.entries.foldl (fun m e => m.insert e.1 e.2) m

/-! ## Look-ups -/

@[simp] theorem get?_empty (k : String) : (empty : KeyMap α).get? k = none := rfl

theorem find_place (k : String) (v : α) (j : String) :
    ∀ l : List (String × α), find (place k v l) j = if j = k then some v else find l j
  | [] => by simp [place, find]
  | f :: rest => by
    rw [place]
    split
    · simp [find]
    · split
      · rename_i hk
        by_cases hj : j = f.1 <;> simp [find, hk, hj]
      · rename_i hne
        by_cases hj : j = f.1
        · have hjk : ¬f.1 = k := fun e => hne e.symm
          simp [find, hj, hjk]
        · simp [find, hj, find_place k v j rest]

theorem find_filter (k j : String) :
    ∀ l : List (String × α),
      find (l.filter (·.1 != k)) j = if j = k then none else find l j
  | [] => by simp [find]
  | e :: rest => by
    by_cases he : e.1 = k
    · have ih := find_filter k j rest
      by_cases hj : j = k <;> simp_all [find]
    · by_cases hj : j = e.1
      · subst hj; simp [find, he]
      · simp [find, he, find_filter k j rest, hj]

/-- **An insertion shows under its own key only.** -/
@[simp] theorem get?_insert (m : KeyMap α) (k : String) (v : α) (j : String) :
    (m.insert k v).get? j = if j = k then some v else m.get? j :=
  find_place k v j m.entries

/-- An erasure hides its own key only. -/
@[simp] theorem get?_erase (m : KeyMap α) (k j : String) :
    (m.erase k).get? j = if j = k then none else m.get? j :=
  find_filter k j m.entries

/-- A key of no entry is not found. -/
theorem find_eq_none {j : String} :
    ∀ {l : List (String × α)}, (∀ e ∈ l, e.1 ≠ j) → find l j = none
  | [], _ => rfl
  | e :: rest, h => by
    have he : ¬j = e.1 := fun hj => h e List.mem_cons_self hj.symm
    simp [find, he, find_eq_none fun f hf => h f (List.mem_cons_of_mem _ hf)]

/-- Among rising keys every entry is the one found under its key. -/
theorem find_eq_some_iff {k : String} {v : α} :
    ∀ {l : List (String × α)}, Rising l → (find l k = some v ↔ (k, v) ∈ l)
  | [], _ => by simp [find]
  | e :: rest, h => by
    have hr : Rising rest := List.Pairwise.of_cons h
    have hlt : ∀ f ∈ rest, e.1 < f.1 := fun f hf => List.rel_of_pairwise_cons h hf
    by_cases hk : k = e.1
    · subst hk
      have : ∀ w, (e.1, w) ∉ rest := fun w hw => Std.lt_irrefl (hlt (e.1, w) hw)
      obtain ⟨a, b⟩ := e
      simp [find, this, eq_comm]
    · have : (k, v) ≠ e := fun h => hk (congrArg Prod.fst h)
      simp [find, hk, this, find_eq_some_iff hr]

/-- **Two maps with the same look-ups are the same map.** -/
theorem ext_get? {m n : KeyMap α} (h : ∀ k, m.get? k = n.get? k) : m = n := by
  obtain ⟨l, hl⟩ := m
  obtain ⟨r, hr⟩ := n
  have hmem : ∀ e, e ∈ l ↔ e ∈ r := fun e => by
    rw [← find_eq_some_iff hl, ← find_eq_some_iff hr]
    exact iff_of_eq (congrArg (· = some e.2) (h e.1))
  obtain rfl : l = r := by
    refine List.Perm.eq_of_pairwise (fun a b _ _ hab hba => ?_) hl hr ?_
    · exact absurd (Std.lt_trans hab hba) Std.lt_irrefl
    · refine (List.perm_ext_iff_of_nodup ?_ ?_).mpr hmem
      · exact hl.imp fun hab e => by subst e; exact Std.lt_irrefl hab
      · exact hr.imp fun hab e => by subst e; exact Std.lt_irrefl hab
  rfl

theorem get?_foldl_insert (k : String) :
    ∀ (l : List (String × α)) (m : KeyMap α),
      (l.foldl (fun m e => m.insert e.1 e.2) m).get? k =
        ((l.reverse.find? fun e => e.1 == k).map Prod.snd).or (m.get? k)
  | [], m => by simp
  | e :: rest, m => by
    rw [List.foldl_cons, get?_foldl_insert k rest, get?_insert, List.reverse_cons,
      List.find?_append]
    by_cases hk : k = e.1
    · subst hk
      cases rest.reverse.find? fun f => f.1 == e.1 <;> simp
    · have : ¬e.1 = k := fun h => hk h.symm
      cases rest.reverse.find? fun f => f.1 == k <;> simp [hk, this]

/-- **The last entry given for a key is the one found.** -/
theorem get?_ofList (l : List (String × α)) (k : String) :
    (ofList l).get? k = (l.reverse.find? fun e => e.1 == k).map Prod.snd := by
  rw [ofList, get?_foldl_insert, get?_empty, Option.or_none]

theorem find?_reverse_of_rising {k : String} :
    ∀ {l : List (String × α)}, Rising l →
      (l.reverse.find? fun e => e.1 == k).map Prod.snd = find l k
  | [], _ => rfl
  | e :: rest, h => by
    have hr : Rising rest := List.Pairwise.of_cons h
    have hlt : ∀ f ∈ rest, e.1 < f.1 := fun f hf => List.rel_of_pairwise_cons h hf
    rw [List.reverse_cons, List.find?_append, Option.map_or, find?_reverse_of_rising hr]
    by_cases hk : k = e.1
    · subst hk
      rw [find_eq_none fun f hf he => Std.lt_irrefl (he ▸ hlt f hf)]
      simp [find]
    · have : ¬e.1 = k := fun h => hk h.symm
      cases hf : find rest k <;> simp [find, hk, this, hf]

/-- A map is the map of its own entries. -/
@[simp] theorem ofList_entries (m : KeyMap α) : ofList m.entries = m :=
  ext_get? fun k => by rw [get?_ofList, find?_reverse_of_rising m.rising]; rfl

/-- In a merge the second map answers first. -/
@[simp] theorem get?_merge (m n : KeyMap α) (k : String) :
    (m.merge n).get? k = (n.get? k).or (m.get? k) := by
  rw [merge, get?_foldl_insert, find?_reverse_of_rising n.rising]
  rfl

end KeyMap

end Switchboard
