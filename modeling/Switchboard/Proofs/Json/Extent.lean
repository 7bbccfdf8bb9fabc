import Switchboard.Proofs.Json.ReadBack

/-!
# Proofs/Json/Extent — where the text of a value ends, and which keys it has

Not every value is read back from its text: a double may come back as another one, and a value that
nests too deep is refused.  Whatever the reader makes of the text of a value, though, it stops where
the text stops (`covers_value`), so it can take no part of it for something else.  An object
therefore comes back with just the keys it had, whatever becomes of the values under them
(`contains_of_parseObject`).
-/

namespace Switchboard

theorem KeyMap.mem_keys_iff {α : Type} {m : KeyMap α} {k : String} :
    k ∈ m.keys ↔ m.contains k = true := by
  rw [contains, Option.isSome_iff_exists]
  constructor
  · intro h
    obtain ⟨⟨_, v⟩, he, rfl⟩ := List.mem_map.mp h
    exact ⟨v, (find_eq_some_iff m.rising).mpr he⟩
  · rintro ⟨v, hv⟩
    exact List.mem_map.mpr ⟨(k, v), (find_eq_some_iff m.rising).mp hv, rfl⟩

theorem KeyMap.contains_insert {α : Type} {m : KeyMap α} {k j : String} {v : α} :
    (m.insert k v).contains j = true ↔ j = k ∨ m.contains j = true := by
  rw [contains, get?_insert]
  split
  · simp [*]
  · simp [contains, *]

namespace Json

namespace Reader

/-- Whatever this reader makes of the text of the value, does it stop where the text stops? -/
def Covers (item : Bytes → Reading Json) (v : Json) : Prop :=
  ∀ rest, EndsNumber rest → StopsAt (item (v.bytes ++ rest)) rest

theorem ReadsBack.covers {item : Bytes → Reading Json} {v : Json} (h : ReadsBack item v) :
    Covers item v := fun rest hrest => h rest hrest ▸ stopsAt_ok v rest

/-- A reader that covers a value refuses it, or leaves just what follows it. -/
theorem Covers.cases {item : Bytes → Reading Json} {v : Json} (h : Covers item v) {rest : Bytes}
    (hrest : EndsNumber rest) :
    (∃ f, item (v.bytes ++ rest) = .error f) ∨ ∃ w, item (v.bytes ++ rest) = .ok (w, rest) := by
  have hstops := h rest hrest
  generalize item (v.bytes ++ rest) = r at hstops ⊢
  cases r with
  | error f => exact .inl ⟨f, rfl⟩
  | ok p => exact .inr ⟨p.1, by rw [← hstops p.1 p.2 rfl]⟩

variable {item : Bytes → Reading Json} {tail : Bytes}

/-! ## Arrays -/

theorem stopsAt_items : ∀ (vs : List Json) (v : Json), (∀ w ∈ v :: vs, Covers item w) →
    ∀ (n : Nat) (before : List Json),
      StopsAt (items item n before (itemsBytes (v :: vs) ++ 0x5d :: tail)) tail
  | _, _, _, 0, _ => stopsAt_error _ _
  | [], v, h, n + 1, before => by
    rcases (h v List.mem_cons_self).cases (endsNumber_cons (b := 0x5d) (by decide) tail) with
      ⟨f, hf⟩ | ⟨w, hw⟩
    · rw [itemsBytes, items, hf]
      exact stopsAt_error _ _
    · rw [items_last hw]
      exact stopsAt_ok _ _
  | u :: us, v, h, n + 1, before => by
    rcases (h v List.mem_cons_self).cases (endsNumber_cons (b := 0x2c) (by decide)
      (itemsBytes (u :: us) ++ 0x5d :: tail)) with ⟨f, hf⟩ | ⟨w, hw⟩
    · rw [itemsBytes_cons_cons, List.append_assoc, List.cons_append, items, hf]
      exact stopsAt_error _ _
    · rw [items_more hw]
      exact stopsAt_items us u (fun w hw => h w (List.mem_cons_of_mem _ hw)) n _

/-- **Of an array all is read and nothing more**, if it is accepted. -/
theorem stopsAt_arrayBody {vs : List Json} (h : ∀ v ∈ vs, Covers item v) :
    StopsAt (arrayBody item (itemsBytes vs ++ 0x5d :: tail)) tail := by
  cases vs with
  | nil =>
    rw [arrayBody_nil]
    exact stopsAt_ok _ _
  | cons v vs =>
    rw [arrayBody_cons]
    exact stopsAt_items vs v h _ _

/-! ## Objects -/

/-- If an object is read, exactly `rest` is left, and it has the keys `keys`. -/
def HasKeys (r : Reading (KeyMap Json)) (keys : List String) (rest : Bytes) : Prop :=
  ∀ m left, r = .ok (m, left) → left = rest ∧ ∀ k, m.contains k = true ↔ k ∈ keys

theorem HasKeys.stopsAt {r : Reading (KeyMap Json)} {keys : List String} {rest : Bytes}
    (h : HasKeys r keys rest) : StopsAt r rest := fun m left hr => (h m left hr).1

theorem hasKeys_error (f : Fault) (keys : List String) (rest : Bytes) :
    HasKeys (.error f) keys rest := fun _ _ h => nomatch h

theorem hasKeys_ok {m : KeyMap Json} {keys : List String} (rest : Bytes)
    (h : ∀ k, m.contains k = true ↔ k ∈ keys) : HasKeys (.ok (m, rest)) keys rest := by
  intro m' left h'
  injection h' with h'
  obtain ⟨rfl, rfl⟩ := Prod.mk.inj h'
  exact ⟨rfl, h⟩

theorem hasKeys_fields : ∀ (fs : List (String × Json)) (f : String × Json),
    (∀ e ∈ f :: fs, Covers item e.2) →
      ∀ (n : Nat) (before : KeyMap Json) (seen : List String) (input : Bytes),
        (∀ k, before.contains k = true ↔ k ∈ seen) →
        fieldsBytes (f :: fs) ++ 0x7d :: tail = 0x22 :: input →
        HasKeys (fields item n before input) (seen ++ (f :: fs).map Prod.fst) tail
  | _, _, _, 0, _, _, _, _, _ => hasKeys_error _ _ _
  | fs, (k, v), h, n + 1, before, seen, input, hseen, hinput => by
    have hv := h (k, v) List.mem_cons_self
    have hinsert : ∀ w j, (before.insert k w).contains j = true ↔ j ∈ seen ++ [k] := fun w j => by
      rw [KeyMap.contains_insert, hseen, List.mem_append, List.mem_singleton, or_comm]
    cases fs with
    | nil =>
      rcases hv.cases (endsNumber_cons (b := 0x7d) (by decide) tail) with ⟨f, hf⟩ | ⟨w, hw⟩
      · rw [exists_of_fieldsBytes hinput, fields, stringBody_escaped]
        simp only [colon_cons, hf]
        exact hasKeys_error _ _ _
      · rw [fields_last hinput hw]
        exact hasKeys_ok _ (hinsert w)
    | cons g gs =>
      obtain ⟨bs, hbs⟩ := exists_fieldsBytes g gs
      have hmore : fieldsBytes (g :: gs) ++ 0x7d :: tail = 0x22 :: (bs ++ 0x7d :: tail) := by
        rw [hbs]
        rfl
      rcases hv.cases (endsNumber_cons (b := 0x2c) (by decide)
        (fieldsBytes (g :: gs) ++ 0x7d :: tail)) with ⟨f, hf⟩ | ⟨w, hw⟩
      · rw [exists_of_fieldsBytes hinput, fields, stringBody_escaped]
        simp only [colon_cons, hf]
        exact hasKeys_error _ _ _
      · rw [fields_more hinput hmore hw, List.map_cons, List.append_cons seen]
        exact hasKeys_fields gs g (fun e he => h e (List.mem_cons_of_mem _ he)) n _ _ _ (hinsert w)
          hmore

/-- **Of an object all is read and nothing more**, if it is accepted, and its keys are read back. -/
theorem hasKeys_objectBody {fs : List (String × Json)} (h : ∀ e ∈ fs, Covers item e.2) :
    HasKeys (objectBody item (fieldsBytes fs ++ 0x7d :: tail)) (fs.map Prod.fst) tail := by
  have hnone : ∀ k, (KeyMap.empty : KeyMap Json).contains k = true ↔ k ∈ ([] : List String) :=
    fun k => by simp [KeyMap.contains]
  cases fs with
  | nil =>
    rw [objectBody_nil]
    exact hasKeys_ok _ hnone
  | cons f fs =>
    obtain ⟨bs, hbs⟩ := exists_fieldsBytes f fs
    have hinput : fieldsBytes (f :: fs) ++ 0x7d :: tail = 0x22 :: (bs ++ 0x7d :: tail) := by
      rw [hbs]
      rfl
    rw [objectBody_cons hinput]
    exact hasKeys_fields fs f h _ _ [] _ hnone hinput

/-! ## Values -/

variable {nested : Option (Bytes → Reading Json)}

/-- A double is covered, though it may come back as another one. -/
theorem covers_real (bits : UInt64) : Covers (valueWith nested) (Json.number (.real bits)) := by
  intro rest hrest
  obtain ⟨text, hdecimal, htext | htext⟩ := isDecimal_realText bits
  · have hstops := stopsAt_number hdecimal hrest false
    obtain ⟨d, ds, rfl, hd⟩ := hdecimal.exists_digit
    rw [htext, List.cons_append, valueWith, skipSpace_cons (startsValue_of_isDigit hd).1]
    dsimp only
    rw [if_neg (ne_of_isDigit hd (by decide)), if_neg (ne_of_isDigit hd (by decide)),
      if_neg (ne_of_isDigit hd (by decide)), if_neg (ne_of_isDigit hd (by decide)), if_pos hd]
    exact hstops.map Json.number
  · have hstops := stopsAt_number hdecimal hrest true
    rw [htext, List.cons_append, valueWith, skipSpace_cons (by decide)]
    dsimp only
    rw [if_neg (by decide), if_neg (by decide), if_neg (by decide), if_pos rfl]
    exact hstops.map Json.number

theorem covers_valueWith (hnested : ∀ item ∈ nested, ∀ v, Covers item v) (v : Json) :
    Covers (valueWith nested) v := by
  cases v with
  | null => exact valueWith_null.covers
  | bool b => exact (valueWith_bool b).covers
  | number n =>
    cases n with
    | natural n => exact (valueWith_natural n).covers
    | negative n => exact (valueWith_negative n).covers
    | real bits => exact covers_real bits
  | string s => exact (valueWith_string s).covers
  | array vs =>
    intro rest _
    rw [valueWith_bracket]
    cases nested with
    | none => exact stopsAt_error _ _
    | some item => exact (stopsAt_arrayBody fun v _ => hnested item rfl v).map Json.array
  | object fs =>
    intro rest _
    rw [valueWith_brace]
    cases nested with
    | none => exact stopsAt_error _ _
    | some item =>
      exact (hasKeys_objectBody fun e _ => hnested item rfl e.2).stopsAt.map fun m =>
        Json.object m.entries

/-- **The reader of values stops where the text of a value stops**, whatever the value is. -/
theorem covers_value (levels : Nat) (v : Json) : Covers (value levels) v := by
  induction levels generalizing v with
  | zero =>
    have hnone (item) (hitem : item ∈ none) (w : Json) : Covers item w := nomatch hitem
    exact covers_valueWith hnone v
  | succ levels ih =>
    refine covers_valueWith (fun item hitem w => ?_) v
    rw [← Option.some.inj hitem]
    exact ih w

end Reader

/-- What is read from a whole input is read from its front. -/
theorem Reader.exists_of_whollyRead {α : Type} {reader : Bytes → Reading α} {input : Bytes} {a : α}
    (h : whollyRead reader input = .ok a) : ∃ rest, reader input = .ok (a, rest) := by
  unfold whollyRead at h
  split at h
  · cases h
  · rename_i v rest hread
    split at h
    · injection h with h
      exact ⟨rest, h ▸ hread⟩
    · cases h

/-- **An object that is read from its text has the keys it had.** -/
theorem contains_of_parseObject {m m' : KeyMap Json}
    (h : parseObject (object m.entries).bytes = .ok m') (k : String) :
    m'.contains k = m.contains k := by
  obtain ⟨rest, hread⟩ := Reader.exists_of_whollyRead h
  have hkeys : Reader.HasKeys (Reader.objectBody (Reader.value (Reader.maxDepth - 1)) _) _ [] :=
    Reader.hasKeys_objectBody fun e (_ : e ∈ m.entries) => Reader.covers_value _ e.2
  rw [bytes, Reader.objectOnly, Reader.skipSpace_cons (by decide)] at hread
  obtain ⟨-, hm⟩ := hkeys m' rest hread
  rw [Bool.eq_iff_iff, hm, ← KeyMap.mem_keys_iff]
  rfl

end Json

end Switchboard
