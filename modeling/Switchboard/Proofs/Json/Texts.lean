import Switchboard.Proofs.Json.Extent
import Switchboard.Proofs.Json.Magnitude

/-!
# Proofs/Json/Texts — a finite value is accepted, and strings come back as they were

`Extent` says where the reader stops if it accepts a text.  Here it does accept it: a value whose
doubles are finite and that does not nest too deep is read from its text, and what is read is the
same string, or no string if the value is none (`keeps_value`).  Doubles may come back as others, so
the values are compared by their strings alone (`KeyMap.SameTexts`); that is all that routing looks
at.  The induction is on the levels the reader may go down, as in `ReadBack`.
-/

namespace Switchboard

/-! ## Finite values -/

/-- A number that is not infinite, nor not a number. -/
def Number.IsFinite : Number → Prop
  | real bits => Shortest.biased bits ≠ 0x7FF
  | _ => True

namespace Json

mutual

/-- Every double in the value is finite. -/
def Finite : Json → Prop
  | number n => n.IsFinite
  | array items => FiniteItems items
  | object fields => FiniteFields fields
  | _ => True

/-- Every double in the items is finite. -/
def FiniteItems : List Json → Prop
  | [] => True
  | v :: rest => v.Finite ∧ FiniteItems rest

/-- Every double in the fields is finite. -/
def FiniteFields : List (String × Json) → Prop
  | [] => True
  | (_, v) :: rest => v.Finite ∧ FiniteFields rest

end

theorem finiteItems_iff {items : List Json} : FiniteItems items ↔ ∀ v ∈ items, v.Finite := by
  induction items with
  | nil => simp [FiniteItems]
  | cons v rest ih => rw [FiniteItems, ih, List.forall_mem_cons]

theorem finiteFields_iff {fields : List (String × Json)} :
    FiniteFields fields ↔ ∀ e ∈ fields, e.2.Finite := by
  induction fields with
  | nil => simp [FiniteFields]
  | cons e rest ih => rw [FiniteFields, ih, List.forall_mem_cons]

end Json

/-! ## Maps with the same strings -/

/-- **Two maps have the same keys and the same strings.** -/
def KeyMap.SameTexts (m m' : KeyMap Json) : Prop :=
  ∀ k, (m.get? k).map Json.text? = (m'.get? k).map Json.text?

namespace KeyMap

variable {m m' : KeyMap Json} {k : String}

theorem SameTexts.refl (m : KeyMap Json) : m.SameTexts m := fun _ => rfl

theorem SameTexts.insert {v w : Json} (h : m.SameTexts m') (hv : v.text? = w.text?) (k : String) :
    (m.insert k v).SameTexts (m'.insert k w) := by
  intro j
  rw [get?_insert, get?_insert]
  split
  · exact congrArg some hv
  · exact h j

theorem SameTexts.bind_text? (h : m.SameTexts m') (k : String) :
    (m.get? k).bind Json.text? = (m'.get? k).bind Json.text? := by
  have hjoin (o : Option Json) : o.bind Json.text? = (o.map Json.text?).join := by cases o <;> rfl
  rw [hjoin, hjoin, h k]

end KeyMap

namespace Json.Reader

/-- Is the value accepted by this reader, whatever ends it, and does a string come back? -/
def Keeps (item : Bytes → Reading Json) (v : Json) : Prop :=
  ∀ rest, EndsNumber rest → ∃ w, item (v.bytes ++ rest) = .ok (w, rest) ∧ v.text? = w.text?

theorem ReadsBack.keeps {item : Bytes → Reading Json} {v : Json} (h : ReadsBack item v) :
    Keeps item v := fun rest hrest => ⟨v, h rest hrest, rfl⟩

variable {item : Bytes → Reading Json}

/-! ## Arrays and objects -/

theorem accepts_items (tail : Bytes) :
    ∀ (vs : List Json) (v : Json), (∀ w ∈ v :: vs, Keeps item w) →
      ∀ (n : Nat) (before : List Json), vs.length < n →
        Accepts (items item n before (itemsBytes (v :: vs) ++ 0x5d :: tail)) tail
  | [], v, h, n + 1, before, _ => by
    obtain ⟨w, hw, -⟩ := h v List.mem_cons_self _ (endsNumber_cons (b := 0x5d) (by decide) tail)
    exact ⟨_, items_last hw n before⟩
  | u :: us, v, h, n + 1, before, hn => by
    obtain ⟨w, hw, -⟩ := h v List.mem_cons_self _ (endsNumber_cons (b := 0x2c) (by decide)
      (itemsBytes (u :: us) ++ 0x5d :: tail))
    rw [items_more hw]
    exact accepts_items tail us u (fun w hw => h w (List.mem_cons_of_mem _ hw)) n (w :: before)
      (Nat.lt_of_succ_lt_succ hn)

/-- **An array is accepted** if its items are. -/
theorem accepts_arrayBody {vs : List Json} (h : ∀ v ∈ vs, Keeps item v) (tail : Bytes) :
    Accepts (arrayBody item (itemsBytes vs ++ 0x5d :: tail)) tail := by
  cases vs with
  | nil => exact ⟨_, arrayBody_nil tail⟩
  | cons v vs =>
    have hfuel := length_le_itemsBytes v vs
    rw [arrayBody_cons]
    exact accepts_items tail vs v h _ [] (by rw [List.length_append]; omega)

theorem exists_fields (tail : Bytes) :
    ∀ (fs : List (String × Json)) (f : String × Json), (∀ e ∈ f :: fs, Keeps item e.2) →
      ∀ (n : Nat) (before before' : KeyMap Json) (input : Bytes), fs.length < n →
        before.SameTexts before' → fieldsBytes (f :: fs) ++ 0x7d :: tail = 0x22 :: input →
        ∃ m, fields item n before' input = .ok (m, tail) ∧
          ((f :: fs).foldl (fun m e => m.insert e.1 e.2) before).SameTexts m
  | [], (k, v), h, n + 1, before, before', input, _, hbefore, hinput => by
    obtain ⟨w, hw, htext⟩ :=
      h (k, v) List.mem_cons_self _ (endsNumber_cons (b := 0x7d) (by decide) tail)
    exact ⟨_, fields_last hinput hw n before', hbefore.insert htext k⟩
  | g :: gs, (k, v), h, n + 1, before, before', input, hn, hbefore, hinput => by
    obtain ⟨bs, hbs⟩ := exists_fieldsBytes g gs
    have hmore : fieldsBytes (g :: gs) ++ 0x7d :: tail = 0x22 :: (bs ++ 0x7d :: tail) := by
      rw [hbs]
      rfl
    obtain ⟨w, hw, htext⟩ := h (k, v) List.mem_cons_self _ (endsNumber_cons (b := 0x2c) (by decide)
      (fieldsBytes (g :: gs) ++ 0x7d :: tail))
    rw [fields_more hinput hmore hw]
    exact exists_fields tail gs g (fun e he => h e (List.mem_cons_of_mem _ he)) n _ _ _
      (Nat.lt_of_succ_lt_succ hn) (hbefore.insert htext k) hmore

/-- **An object is accepted** if its values are, and its strings come back. -/
theorem exists_objectBody {fs : List (String × Json)} (h : ∀ e ∈ fs, Keeps item e.2)
    (tail : Bytes) : ∃ m, objectBody item (fieldsBytes fs ++ 0x7d :: tail) = .ok (m, tail) ∧
      (KeyMap.ofList fs).SameTexts m := by
  cases fs with
  | nil => exact ⟨_, objectBody_nil tail, .refl _⟩
  | cons f fs =>
    obtain ⟨bs, hbs⟩ := exists_fieldsBytes f fs
    have hinput : fieldsBytes (f :: fs) ++ 0x7d :: tail = 0x22 :: (bs ++ 0x7d :: tail) := by
      rw [hbs]
      rfl
    have hlength := length_le_fieldsBytes (f :: fs)
    rw [List.length_cons] at hlength
    rw [objectBody_cons hinput]
    exact exists_fields tail fs f h _ _ _ _ (by rw [List.length_append]; omega) (.refl _) hinput

/-! ## Values -/

variable {nested : Option (Bytes → Reading Json)}

/-- A finite double is accepted, though it may come back as another one. -/
theorem keeps_real {bits : UInt64} (h : Shortest.biased bits ≠ 0x7FF) :
    Keeps (valueWith nested) (Json.number (.real bits)) := by
  intro rest hrest
  rcases bytes_real bits with htext | htext
  · obtain ⟨x, hx⟩ := accepts_magnitudeText h hrest false
    obtain ⟨d, ds, hds, hd⟩ := (isDecimal_magnitudeText bits).exists_digit
    refine ⟨.number x, ?_, rfl⟩
    rw [hds, List.cons_append] at hx
    rw [htext, hds, List.cons_append, valueWith, skipSpace_cons (startsValue_of_isDigit hd).1]
    dsimp only
    rw [if_neg (ne_of_isDigit hd (by decide)), if_neg (ne_of_isDigit hd (by decide)),
      if_neg (ne_of_isDigit hd (by decide)), if_neg (ne_of_isDigit hd (by decide)), if_pos hd, hx]
    rfl
  · obtain ⟨x, hx⟩ := accepts_magnitudeText h hrest true
    refine ⟨.number x, ?_, rfl⟩
    rw [htext, List.cons_append, valueWith, skipSpace_cons (by decide)]
    dsimp only
    rw [if_neg (by decide), if_neg (by decide), if_neg (by decide), if_pos rfl, hx]
    rfl

theorem keeps_array {vs : List Json} (h : ∀ v ∈ vs, Keeps item v) :
    Keeps (valueWith (some item)) (array vs) := by
  intro rest _
  obtain ⟨ws, hws⟩ := accepts_arrayBody h rest
  rw [valueWith_bracket]
  dsimp only
  rw [hws]
  exact ⟨array ws, rfl, rfl⟩

theorem keeps_object {fs : List (String × Json)} (h : ∀ e ∈ fs, Keeps item e.2) :
    Keeps (valueWith (some item)) (object fs) := by
  intro rest _
  obtain ⟨m, hm, -⟩ := exists_objectBody h rest
  rw [valueWith_brace]
  dsimp only
  rw [hm]
  exact ⟨object m.entries, rfl, rfl⟩

/-- A value without levels needs no reader of nested values. -/
theorem keeps_scalar {v : Json} (hfinite : v.Finite) (hdepth : v.depth = 0) :
    Keeps (valueWith nested) v := by
  cases v with
  | null => exact valueWith_null.keeps
  | bool b => exact (valueWith_bool b).keeps
  | number n =>
    cases n with
    | natural n => exact (valueWith_natural n).keeps
    | negative n => exact (valueWith_negative n).keeps
    | real bits => exact keeps_real (by rwa [Finite] at hfinite)
  | string s => exact (valueWith_string s).keeps
  | array vs => exact absurd hdepth (by rw [depth]; exact Nat.succ_ne_zero _)
  | object fs => exact absurd hdepth (by rw [depth]; exact Nat.succ_ne_zero _)

/-- **A finite value is accepted** by a reader with levels enough, and a string comes back. -/
theorem keeps_value {levels : Nat} {v : Json} (hfinite : v.Finite) (hdepth : v.depth ≤ levels) :
    Keeps (value levels) v := by
  induction levels generalizing v with
  | zero => exact keeps_scalar hfinite (Nat.le_zero.mp hdepth)
  | succ levels ih =>
    cases v with
    | array vs =>
      rw [Finite, finiteItems_iff] at hfinite
      rw [depth, Nat.add_le_add_iff_right, depthItems_le_iff] at hdepth
      exact keeps_array fun v hv => ih (hfinite v hv) (hdepth v hv)
    | object fs =>
      rw [Finite, finiteFields_iff] at hfinite
      rw [depth, Nat.add_le_add_iff_right, depthFields_le_iff] at hdepth
      exact keeps_object fun e he => ih (hfinite e he) (hdepth e he)
    | _ => exact keeps_scalar hfinite rfl

end Json.Reader

/-! ## Whole texts -/

/-- **A finite object is read from its text**, and its strings come back. -/
theorem Json.exists_of_finite {m : KeyMap Json} (hfinite : (object m.entries).Finite)
    (hdepth : (object m.entries).depth ≤ Reader.maxDepth) :
    ∃ m', parseObject (object m.entries).bytes = .ok m' ∧ m.SameTexts m' := by
  rw [Finite, finiteFields_iff] at hfinite
  rw [depth] at hdepth
  replace hdepth := depthFields_le_iff.mp (Nat.le_of_succ_le_succ hdepth)
  have hkeeps : ∀ e ∈ m.entries, Reader.Keeps (Reader.value (Reader.maxDepth - 1)) e.2 :=
    fun e he => Reader.keeps_value (hfinite e he) (hdepth e he)
  obtain ⟨m', hm', hsame⟩ := Reader.exists_objectBody hkeeps []
  rw [KeyMap.ofList_entries] at hsame
  refine ⟨m', ?_, hsame⟩
  rw [parseObject, Reader.whollyRead, bytes, Reader.objectOnly, Reader.skipSpace_cons (by decide)]
  dsimp only
  rw [if_pos rfl, hm']
  rfl

end Switchboard
