import Switchboard.Proofs.Json.Doubles

/-!
# Proofs/Json/ReadBack — a plain value is read back from its text

`value_bytes`: the reader returns every plain value from its compact text, with whatever follows,
as long as that does not continue a number.  The induction is on the levels the reader may go down,
not on the value: the items of an array are read by the reader of one level less, and so it is
enough to know of it that it reads each of them (`items_itemsBytes`, `fields_fieldsBytes`).
-/

namespace Switchboard.Json

/-! ## The parts of a plain value -/

/-- Items are as deep as the deepest of them. -/
theorem depthItems_le_iff {n : Nat} {items : List Json} :
    depthItems items ≤ n ↔ ∀ v ∈ items, v.depth ≤ n := by
  induction items with
  | nil => simp [depthItems]
  | cons v rest ih => rw [depthItems, Nat.max_le, ih, List.forall_mem_cons]

/-- Fields are as deep as the deepest of their values. -/
theorem depthFields_le_iff {n : Nat} {fields : List (String × Json)} :
    depthFields fields ≤ n ↔ ∀ e ∈ fields, e.2.depth ≤ n := by
  induction fields with
  | nil => simp [depthFields]
  | cons e rest ih => rw [depthFields, Nat.max_le, ih, List.forall_mem_cons]

/-- Items hold no double exactly if none of them does. -/
theorem integralItems_iff {items : List Json} :
    IntegralItems items ↔ ∀ v ∈ items, v.Integral := by
  induction items with
  | nil => simp [IntegralItems]
  | cons v rest ih => rw [IntegralItems, ih, List.forall_mem_cons]

/-- Fields hold no double exactly if none of their values does. -/
theorem integralFields_iff {fields : List (String × Json)} :
    IntegralFields fields ↔ ∀ e ∈ fields, e.2.Integral := by
  induction fields with
  | nil => simp [IntegralFields]
  | cons e rest ih => rw [IntegralFields, ih, List.forall_mem_cons]

/-- Items are canonical exactly if each is. -/
theorem canonicalItems_iff {items : List Json} :
    CanonicalItems items ↔ ∀ v ∈ items, v.Canonical := by
  induction items with
  | nil => simp [CanonicalItems]
  | cons v rest ih => rw [CanonicalItems, ih, List.forall_mem_cons]

/-- Fields are canonical exactly if each value is. -/
theorem canonicalFields_iff {fields : List (String × Json)} :
    CanonicalFields fields ↔ ∀ e ∈ fields, e.2.Canonical := by
  induction fields with
  | nil => simp [CanonicalFields]
  | cons e rest ih => rw [CanonicalFields, ih, List.forall_mem_cons]

/-- **An array is plain when its items are**, one level further down. -/
theorem plain_array_iff {levels : Nat} {items : List Json} :
    Plain (levels + 1) (array items) ↔ ∀ v ∈ items, Plain levels v := by
  constructor
  · rintro ⟨hi, hc, hd⟩ v hv
    rw [Integral, integralItems_iff] at hi
    rw [Canonical, canonicalItems_iff] at hc
    rw [depth, Nat.add_le_add_iff_right, depthItems_le_iff] at hd
    exact ⟨hi v hv, hc v hv, hd v hv⟩
  · intro h
    refine ⟨?_, ?_, ?_⟩
    · rw [Integral, integralItems_iff]
      exact fun v hv => (h v hv).integral
    · rw [Canonical, canonicalItems_iff]
      exact fun v hv => (h v hv).canonical
    · rw [depth, Nat.add_le_add_iff_right, depthItems_le_iff]
      exact fun v hv => (h v hv).depth_le

/-- **An object is plain when its keys rise and its values are plain**, one level further down. -/
theorem plain_object_iff {levels : Nat} {fields : List (String × Json)} :
    Plain (levels + 1) (object fields) ↔ Rising fields ∧ ∀ e ∈ fields, Plain levels e.2 := by
  constructor
  · rintro ⟨hi, hc, hd⟩
    rw [Integral, integralFields_iff] at hi
    rw [Canonical, canonicalFields_iff] at hc
    rw [depth, Nat.add_le_add_iff_right, depthFields_le_iff] at hd
    exact ⟨hc.1, fun e he => ⟨hi e he, hc.2 e he, hd e he⟩⟩
  · rintro ⟨hr, h⟩
    refine ⟨?_, ?_, ?_⟩
    · rw [Integral, integralFields_iff]
      exact fun e he => (h e he).integral
    · rw [Canonical, canonicalFields_iff]
      exact ⟨hr, fun e he => (h e he).canonical⟩
    · rw [depth, Nat.add_le_add_iff_right, depthFields_le_iff]
      exact fun e he => (h e he).depth_le

/-- Nothing that encloses others is plain without a level for it. -/
theorem not_plain_zero_array (items : List Json) : ¬Plain 0 (array items) := fun h => by
  have := h.depth_le
  rw [depth] at this
  omega

theorem not_plain_zero_object (fields : List (String × Json)) : ¬Plain 0 (object fields) :=
  fun h => by
    have := h.depth_le
    rw [depth] at this
    omega

namespace Reader

/-! ## The first octet -/

/-- Can this octet start a value inside an array? -/
def StartsValue (b : UInt8) : Prop := isSpace b = false ∧ b ≠ 0x5d

instance (b : UInt8) : Decidable (StartsValue b) := inferInstanceAs (Decidable (_ ∧ _))

theorem skipSpace_cons {b : UInt8} (h : isSpace b = false) (rest : Bytes) :
    skipSpace (b :: rest) = b :: rest := by rw [skipSpace, List.dropWhile_cons, h]; rfl

/-- A digit is none of the octets that mean something else. -/
theorem ne_of_isDigit {b c : UInt8} (h : isDigit b) (hc : c.toNat < 48 ∨ 57 < c.toNat) : b ≠ c := by
  rintro rfl
  rw [isDigit, Bool.and_eq_true, decide_eq_true_eq, decide_eq_true_eq, UInt8.le_iff_toNat_le,
    UInt8.le_iff_toNat_le] at h
  have hge : 48 ≤ b.toNat := h.1
  have hle : b.toNat ≤ 57 := h.2
  omega

/-- A digit is neither a space nor the end of an array. -/
theorem startsValue_of_isDigit {b : UInt8} (h : isDigit b) : StartsValue b := by
  refine ⟨?_, ne_of_isDigit h (by decide)⟩
  rw [isSpace, decide_eq_false (ne_of_isDigit h (by decide)),
    decide_eq_false (ne_of_isDigit h (by decide)), decide_eq_false (ne_of_isDigit h (by decide)),
    decide_eq_false (ne_of_isDigit h (by decide))]
  rfl

/-- A numeral starts with a digit. -/
theorem exists_digit_numeral (n : Nat) : ∃ d ds, numeral n = d :: ds ∧ isDigit d := by
  by_cases hn : n = 0
  · subst hn
    exact ⟨0x30, [], rfl, by decide⟩
  · obtain ⟨d, ds, hds, hd, -⟩ := exists_head_numeral hn
    exact ⟨d, ds, hds, hd⟩

theorem bytes_natural (n : UInt64) : (Json.number (.natural n)).bytes = numeral n.toNat := rfl

theorem bytes_negative (n : Fin 0x8000_0000_0000_0000) :
    (Json.number (.negative n)).bytes = 0x2d :: numeral (n.val + 1) := rfl

/-- **The text of a value starts with an octet that only starts values.** -/
theorem exists_head_bytes (v : Json) : ∃ b bs, v.bytes = b :: bs ∧ StartsValue b := by
  cases v with
  | null => exact ⟨0x6e, _, rfl, by decide⟩
  | bool b =>
    cases b with
    | false => exact ⟨0x66, _, rfl, by decide⟩
    | true => exact ⟨0x74, _, rfl, by decide⟩
  | number n =>
    cases n with
    | natural n =>
      obtain ⟨d, ds, hds, hd⟩ := exists_digit_numeral n.toNat
      exact ⟨d, ds, (bytes_natural n).trans hds, startsValue_of_isDigit hd⟩
    | negative n => exact ⟨0x2d, _, bytes_negative n, by decide⟩
    | real bits =>
      obtain ⟨text, hdecimal, htext | htext⟩ := isDecimal_realText bits
      · obtain ⟨d, ds, rfl, hd⟩ := hdecimal.exists_digit
        exact ⟨d, ds, htext, startsValue_of_isDigit hd⟩
      · exact ⟨0x2d, text, htext, by decide⟩
  | string s => exact ⟨0x22, _, rfl, by decide⟩
  | array items => exact ⟨0x5b, _, rfl, by decide⟩
  | object fields => exact ⟨0x7b, _, rfl, by decide⟩

/-! ## Arrays -/

/-- Does this reader return the value from its text, whatever ends it? -/
def ReadsBack (item : Bytes → Reading Json) (v : Json) : Prop :=
  ∀ rest, EndsNumber rest → item (v.bytes ++ rest) = .ok (v, rest)

theorem itemsBytes_cons_cons (v w : Json) (vs : List Json) :
    itemsBytes (v :: w :: vs) = v.bytes ++ 0x2c :: itemsBytes (w :: vs) := by rw [itemsBytes]

/-- **What follows the opening bracket of a full array starts a value.** -/
theorem exists_head_itemsBytes (v : Json) (vs : List Json) :
    ∃ b bs, itemsBytes (v :: vs) = b :: bs ∧ StartsValue b := by
  obtain ⟨b, bs, hv, hb⟩ := exists_head_bytes v
  cases vs with
  | nil => exact ⟨b, bs, by rw [itemsBytes, hv], hb⟩
  | cons w vs => exact ⟨b, _, by rw [itemsBytes_cons_cons, hv]; rfl, hb⟩

/-- Each item takes an octet at least, so the length of their text bounds the items. -/
theorem length_le_itemsBytes (v : Json) (vs : List Json) :
    vs.length < (itemsBytes (v :: vs)).length := by
  induction vs generalizing v with
  | nil =>
    obtain ⟨b, bs, hbs, -⟩ := exists_head_itemsBytes v []
    rw [hbs]
    exact Nat.succ_pos _
  | cons w vs ih =>
    have := ih w
    rw [itemsBytes_cons_cons, List.length_append, List.length_cons, List.length_cons]
    omega

variable {item : Bytes → Reading Json} {v w : Json} {tail : Bytes}

/-- The last item, whatever it is read as. -/
theorem items_last (hitem : item (v.bytes ++ 0x5d :: tail) = .ok (w, 0x5d :: tail)) (n : Nat)
    (before : List Json) :
    items item (n + 1) before (itemsBytes [v] ++ 0x5d :: tail) =
      .ok ((w :: before).reverse, tail) := by
  rw [itemsBytes, items, hitem]
  simp only [skipSpace_cons (b := 0x5d) (by decide), if_true]

/-- An item before others, whatever it is read as. -/
theorem items_more {u : Json} {us : List Json}
    (hitem : item (v.bytes ++ 0x2c :: (itemsBytes (u :: us) ++ 0x5d :: tail)) =
      .ok (w, 0x2c :: (itemsBytes (u :: us) ++ 0x5d :: tail))) (n : Nat) (before : List Json) :
    items item (n + 1) before (itemsBytes (v :: u :: us) ++ 0x5d :: tail) =
      items item n (w :: before) (itemsBytes (u :: us) ++ 0x5d :: tail) := by
  obtain ⟨b, bs, hbs, hspace, hbracket⟩ := exists_head_itemsBytes u us
  rw [hbs, List.cons_append] at hitem
  rw [itemsBytes_cons_cons, List.append_assoc, List.cons_append, items, hbs, List.cons_append,
    hitem]
  simp only [skipSpace_cons (b := 0x2c) (by decide), skipSpace_cons hspace, if_neg hbracket]
  rw [if_neg (by decide), if_pos trivial]

/-- Items are read from the first on. -/
theorem arrayBody_cons (vs : List Json) (tail : Bytes) :
    arrayBody item (itemsBytes (v :: vs) ++ 0x5d :: tail) =
      items item (itemsBytes (v :: vs) ++ 0x5d :: tail).length []
        (itemsBytes (v :: vs) ++ 0x5d :: tail) := by
  obtain ⟨b, bs, hbs, hspace, hbracket⟩ := exists_head_itemsBytes v vs
  rw [hbs, List.cons_append, arrayBody, skipSpace_cons hspace]
  simp only [if_neg hbracket]

theorem arrayBody_nil (tail : Bytes) :
    arrayBody item (itemsBytes [] ++ 0x5d :: tail) = .ok ([], tail) := by
  rw [itemsBytes, List.nil_append, arrayBody]
  simp only [skipSpace_cons (b := 0x5d) (by decide), if_true]

/-- **Items are read back**, each by the reader of items. -/
theorem items_itemsBytes (tail : Bytes) :
    ∀ (vs : List Json) (v : Json), (∀ w ∈ v :: vs, ReadsBack item w) →
      ∀ (n : Nat) (before : List Json), vs.length < n →
        items item n before (itemsBytes (v :: vs) ++ 0x5d :: tail) =
          .ok (before.reverse ++ v :: vs, tail)
  | [], v, h, n + 1, before, _ => by
    rw [items_last (h v List.mem_cons_self _ (endsNumber_cons (by decide) tail)), List.reverse_cons]
  | w :: vs, v, h, n + 1, before, hn => by
    rw [items_more (h v List.mem_cons_self _ (endsNumber_cons (by decide) _)),
      items_itemsBytes tail vs w (fun u hu => h u (List.mem_cons_of_mem _ hu)) n (v :: before)
        (Nat.lt_of_succ_lt_succ hn), List.reverse_cons, List.append_assoc]
    rfl

/-- **An array is read back**, its bracket having been read. -/
theorem arrayBody_itemsBytes {vs : List Json} (h : ∀ v ∈ vs, ReadsBack item v) (tail : Bytes) :
    arrayBody item (itemsBytes vs ++ 0x5d :: tail) = .ok (vs, tail) := by
  cases vs with
  | nil => exact arrayBody_nil tail
  | cons v vs =>
    have hfuel := length_le_itemsBytes v vs
    rw [arrayBody_cons, items_itemsBytes tail vs v h _ [] (by rw [List.length_append]; omega)]
    rfl

/-! ## Objects -/

theorem fieldsBytes_cons_cons (k : String) (v : Json) (f : String × Json)
    (fs : List (String × Json)) :
    fieldsBytes ((k, v) :: f :: fs) =
      stringBytes k ++ 0x3a :: (v.bytes ++ 0x2c :: fieldsBytes (f :: fs)) := by rw [fieldsBytes]

/-- Fields start with the quotation mark of their first key. -/
theorem exists_fieldsBytes (f : String × Json) (fs : List (String × Json)) :
    ∃ bs, fieldsBytes (f :: fs) = 0x22 :: bs := by
  obtain ⟨k, v⟩ := f
  cases fs with
  | nil => exact ⟨_, by rw [fieldsBytes, stringBytes]; rfl⟩
  | cons g gs => exact ⟨_, by rw [fieldsBytes_cons_cons, stringBytes]; rfl⟩

/-- Each field takes an octet at least. -/
theorem length_le_fieldsBytes (fs : List (String × Json)) :
    fs.length ≤ (fieldsBytes fs).length := by
  induction fs with
  | nil => exact Nat.zero_le _
  | cons f fs ih =>
    obtain ⟨k, v⟩ := f
    cases fs with
    | nil =>
      rw [fieldsBytes, List.length_append, List.length_cons, List.length_cons]
      exact Nat.succ_le_succ (Nat.zero_le _)
    | cons g gs =>
      rw [fieldsBytes_cons_cons, List.length_append, List.length_cons (a := 0x3a),
        List.length_append, List.length_cons (a := 0x2c), List.length_cons]
      omega

theorem colon_cons (rest : Bytes) : colon (0x3a :: rest) = .ok ((), rest) := by
  rw [colon, skipSpace_cons (by decide)]
  rfl

/-- What comes after the quotation mark of the first key. -/
theorem exists_of_fieldsBytes {k : String} {fs : List (String × Json)} {input : Bytes}
    (h : fieldsBytes ((k, v) :: fs) ++ 0x7d :: tail = 0x22 :: input) :
    input = (Bytes.ofText k).flatMap escaped ++ 0x22 :: 0x3a ::
      match fs with
      | [] => v.bytes ++ 0x7d :: tail
      | f :: fs => v.bytes ++ 0x2c :: (fieldsBytes (f :: fs) ++ 0x7d :: tail) := by
  cases fs with
  | nil =>
    rw [fieldsBytes, stringBytes, List.append_assoc, List.cons_append, List.append_assoc,
      List.cons.injEq] at h
    rw [← h.2]
    rfl
  | cons f fs =>
    rw [fieldsBytes_cons_cons, stringBytes, List.append_assoc, List.cons_append, List.append_assoc,
      List.cons.injEq] at h
    rw [← h.2, List.cons_append, List.nil_append, List.cons_append, List.append_assoc]
    rfl

/-- The last field, whatever its value is read as. -/
theorem fields_last {k : String} {input : Bytes}
    (hinput : fieldsBytes [(k, v)] ++ 0x7d :: tail = 0x22 :: input)
    (hitem : item (v.bytes ++ 0x7d :: tail) = .ok (w, 0x7d :: tail)) (n : Nat)
    (before : KeyMap Json) :
    fields item (n + 1) before input = .ok (before.insert k w, tail) := by
  rw [exists_of_fieldsBytes hinput, fields, stringBody_escaped]
  simp only [colon_cons, hitem, skipSpace_cons (b := 0x7d) (by decide), if_true]

/-- A field before others, whatever its value is read as. -/
theorem fields_more {k : String} {g : String × Json} {gs : List (String × Json)}
    {input more : Bytes}
    (hinput : fieldsBytes ((k, v) :: g :: gs) ++ 0x7d :: tail = 0x22 :: input)
    (hmore : fieldsBytes (g :: gs) ++ 0x7d :: tail = 0x22 :: more)
    (hitem : item (v.bytes ++ 0x2c :: (fieldsBytes (g :: gs) ++ 0x7d :: tail)) =
      .ok (w, 0x2c :: (fieldsBytes (g :: gs) ++ 0x7d :: tail))) (n : Nat) (before : KeyMap Json) :
    fields item (n + 1) before input = fields item n (before.insert k w) more := by
  rw [exists_of_fieldsBytes hinput, fields, stringBody_escaped]
  rw [hmore] at hitem
  simp only [hmore, colon_cons, hitem, skipSpace_cons (b := 0x2c) (by decide),
    skipSpace_cons (b := 0x22) (by decide), if_true]
  rw [if_neg (by decide)]

/-- Fields are read from the first on. -/
theorem objectBody_cons {f : String × Json} {fs : List (String × Json)} {input : Bytes}
    (hinput : fieldsBytes (f :: fs) ++ 0x7d :: tail = 0x22 :: input) :
    objectBody item (fieldsBytes (f :: fs) ++ 0x7d :: tail) =
      fields item (fieldsBytes (f :: fs) ++ 0x7d :: tail).length .empty input := by
  rw [hinput, objectBody, skipSpace_cons (by decide)]
  simp only [if_true]
  rw [if_neg (by decide)]

theorem objectBody_nil (tail : Bytes) :
    objectBody item (fieldsBytes [] ++ 0x7d :: tail) = .ok (.empty, tail) := by
  rw [fieldsBytes, List.nil_append, objectBody, skipSpace_cons (by decide)]
  simp only [if_true]

/-- **Fields are read back** onto the fields before, the mark of the first key having been read. -/
theorem fields_fieldsBytes (tail : Bytes) :
    ∀ (fs : List (String × Json)) (f : String × Json), (∀ e ∈ f :: fs, ReadsBack item e.2) →
      ∀ (n : Nat) (before : KeyMap Json) (input : Bytes), fs.length < n →
        fieldsBytes (f :: fs) ++ 0x7d :: tail = 0x22 :: input →
        fields item n before input =
          .ok ((f :: fs).foldl (fun m e => m.insert e.1 e.2) before, tail)
  | [], (k, v), h, n + 1, before, input, _, hinput =>
    fields_last hinput (h (k, v) List.mem_cons_self _ (endsNumber_cons (by decide) tail)) n before
  | g :: gs, (k, v), h, n + 1, before, input, hn, hinput => by
    obtain ⟨bs, hbs⟩ := exists_fieldsBytes g gs
    have hmore : fieldsBytes (g :: gs) ++ 0x7d :: tail = 0x22 :: (bs ++ 0x7d :: tail) := by
      rw [hbs]
      rfl
    rw [fields_more hinput hmore (h (k, v) List.mem_cons_self _ (endsNumber_cons (by decide) _)),
      fields_fieldsBytes tail gs g (fun e he => h e (List.mem_cons_of_mem _ he)) n _ _
        (Nat.lt_of_succ_lt_succ hn) hmore]
    rfl

/-- **Of fields with one key the last counts**, whatever order they come in. -/
theorem objectBody_ofList {fs : List (String × Json)} (h : ∀ e ∈ fs, ReadsBack item e.2)
    (tail : Bytes) : objectBody item (fieldsBytes fs ++ 0x7d :: tail) = .ok (.ofList fs, tail) := by
  cases fs with
  | nil =>
    rw [objectBody_nil]
    rfl
  | cons f fs =>
    obtain ⟨bs, hbs⟩ := exists_fieldsBytes f fs
    have hinput : fieldsBytes (f :: fs) ++ 0x7d :: tail = 0x22 :: (bs ++ 0x7d :: tail) := by
      rw [hbs]
      rfl
    have hlength := length_le_fieldsBytes (f :: fs)
    rw [List.length_cons] at hlength
    rw [objectBody_cons hinput, fields_fieldsBytes tail fs f h _ _ _
      (by rw [List.length_append]; omega) hinput, ← KeyMap.ofList]

/-- **An object is read back**, its brace having been read. -/
theorem objectBody_fieldsBytes (m : KeyMap Json) (h : ∀ e ∈ m.entries, ReadsBack item e.2)
    (tail : Bytes) : objectBody item (fieldsBytes m.entries ++ 0x7d :: tail) = .ok (m, tail) := by
  rw [objectBody_ofList h, KeyMap.ofList_entries]

/-! ## Values -/

variable {nested : Option (Bytes → Reading Json)}

/-- The word for null is read back. -/
theorem valueWith_null : ReadsBack (valueWith nested) null := by
  intro rest _
  rw [show null.bytes = [0x6e, 0x75, 0x6c, 0x6c] from rfl, List.cons_append, valueWith,
    skipSpace_cons (by decide)]
  simp only [if_true]
  rfl

theorem valueWith_bool (b : Bool) : ReadsBack (valueWith nested) (bool b) := by
  intro rest _
  cases b with
  | false =>
    rw [show (bool false).bytes = [0x66, 0x61, 0x6c, 0x73, 0x65] from rfl, List.cons_append,
      valueWith, skipSpace_cons (by decide)]
    dsimp only
    rw [if_neg (by decide), if_neg (by decide), if_pos rfl]
    rfl
  | true =>
    rw [show (bool true).bytes = [0x74, 0x72, 0x75, 0x65] from rfl, List.cons_append, valueWith,
      skipSpace_cons (by decide)]
    dsimp only
    rw [if_neg (by decide), if_pos rfl]
    rfl

/-- **A natural number is read back from its digits**, whatever ends them. -/
theorem valueWith_natural (n : UInt64) :
    ReadsBack (valueWith nested) (Json.number (.natural n)) := by
  intro rest hrest
  have hnumber := number_numeral n.toNat_lt hrest false
  obtain ⟨d, ds, hds, hd⟩ := exists_digit_numeral n.toNat
  rw [hds, List.cons_append, whole_toNat] at hnumber
  rw [bytes_natural, hds, List.cons_append, valueWith, skipSpace_cons (startsValue_of_isDigit hd).1]
  dsimp only
  rw [if_neg (ne_of_isDigit hd (by decide)), if_neg (ne_of_isDigit hd (by decide)),
    if_neg (ne_of_isDigit hd (by decide)), if_neg (ne_of_isDigit hd (by decide)), if_pos hd,
    hnumber]
  rfl

/-- A negative number is read back from its sign and digits. -/
theorem valueWith_negative (n : Fin 0x8000_0000_0000_0000) :
    ReadsBack (valueWith nested) (Json.number (.negative n)) := by
  intro rest hrest
  have hn : n.val + 1 < 0x1_0000_0000_0000_0000 := by
    have := n.isLt
    omega
  rw [bytes_negative, List.cons_append, valueWith, skipSpace_cons (by decide)]
  dsimp only
  rw [if_neg (by decide), if_neg (by decide), if_neg (by decide), if_pos rfl,
    number_numeral hn hrest, whole_succ]
  rfl

/-- A string is read back from its quoted text. -/
theorem valueWith_string (s : String) : ReadsBack (valueWith nested) (string s) := by
  intro rest _
  rw [bytes, stringBytes, List.cons_append, List.append_assoc, valueWith,
    skipSpace_cons (by decide)]
  dsimp only
  rw [if_neg (by decide), if_neg (by decide), if_neg (by decide), if_neg (by decide),
    if_neg (by decide), if_pos rfl, List.cons_append, List.nil_append, stringBody_escaped]
  rfl

/-- An array is read by the reader of nested values, if there is one. -/
theorem valueWith_bracket (vs : List Json) (rest : Bytes) :
    valueWith nested ((array vs).bytes ++ rest) =
      match nested with
      | none => .error (.next .tooDeep (0x5b :: (itemsBytes vs ++ 0x5d :: rest)))
      | some item => (arrayBody item (itemsBytes vs ++ 0x5d :: rest)).map fun r =>
        (array r.1, r.2) := by
  rw [bytes, List.cons_append, List.append_assoc, valueWith, skipSpace_cons (by decide)]
  dsimp only
  rw [if_neg (by decide), if_neg (by decide), if_neg (by decide), if_neg (by decide),
    if_neg (by decide), if_neg (by decide), if_pos rfl]
  rfl

/-- …and so is an object. -/
theorem valueWith_brace (fs : List (String × Json)) (rest : Bytes) :
    valueWith nested ((object fs).bytes ++ rest) =
      match nested with
      | none => .error (.next .tooDeep (0x7b :: (fieldsBytes fs ++ 0x7d :: rest)))
      | some item => (objectBody item (fieldsBytes fs ++ 0x7d :: rest)).map fun r =>
        (object r.1.entries, r.2) := by
  rw [bytes, List.cons_append, List.append_assoc, valueWith, skipSpace_cons (by decide)]
  dsimp only
  rw [if_neg (by decide), if_neg (by decide), if_neg (by decide), if_neg (by decide),
    if_neg (by decide), if_neg (by decide), if_neg (by decide), if_pos rfl]
  rfl

/-- **An array is read back if each item is.** -/
theorem valueWith_array {vs : List Json} (h : ∀ v ∈ vs, ReadsBack item v) :
    ReadsBack (valueWith (some item)) (array vs) := by
  intro rest _
  rw [valueWith_bracket]
  dsimp only
  rw [arrayBody_itemsBytes h]
  rfl

/-- **An object is read back if each value is** and its keys rise. -/
theorem valueWith_object {fs : List (String × Json)} (hrising : Rising fs)
    (h : ∀ e ∈ fs, ReadsBack item e.2) : ReadsBack (valueWith (some item)) (object fs) := by
  intro rest _
  rw [valueWith_brace]
  dsimp only
  rw [objectBody_fieldsBytes ⟨fs, hrising⟩ h]
  rfl

/-- A value without levels needs no reader of nested values. -/
theorem valueWith_scalar {v : Json} (h : v.Plain 0) : ReadsBack (valueWith nested) v := by
  cases v with
  | null => exact valueWith_null
  | bool b => exact valueWith_bool b
  | number n =>
    cases n with
    | natural n => exact valueWith_natural n
    | negative n => exact valueWith_negative n
    | real bits => exact absurd h.integral (by rw [Integral]; exact id)
  | string s => exact valueWith_string s
  | array vs => exact absurd h (not_plain_zero_array vs)
  | object fs => exact absurd h (not_plain_zero_object fs)

/-- **A plain value is read back from its text**, with what follows it, by a reader with levels
enough. -/
theorem value_bytes {levels : Nat} {v : Json} (h : v.Plain levels) :
    ReadsBack (value levels) v := by
  induction levels generalizing v with
  | zero => exact valueWith_scalar h
  | succ levels ih =>
    cases v with
    | array vs =>
      have hvs := plain_array_iff.mp h
      exact valueWith_array fun v hv => ih (hvs v hv)
    | object fs =>
      obtain ⟨hrising, hfs⟩ := plain_object_iff.mp h
      exact valueWith_object hrising fun e he => ih (hfs e he)
    | _ => exact valueWith_scalar ⟨h.integral, h.canonical, Nat.le_refl 0⟩

end Reader

/-! ## Whole texts -/

/-- **A plain value is what its text parses to.** -/
theorem parse_bytes {v : Json} (h : v.Plain Reader.maxDepth) : parse v.bytes = .ok v := by
  have hvalue := Reader.value_bytes h [] Reader.endsNumber_nil
  rw [List.append_nil] at hvalue
  rw [parse, Reader.whollyRead, hvalue]
  rfl

/-- The text of an object may give a key more than once. -/
theorem parseObject_ofList {fs : List (String × Json)}
    (h : ∀ e ∈ fs, e.2.Plain (Reader.maxDepth - 1)) :
    parseObject (object fs).bytes = .ok (.ofList fs) := by
  have hbody := Reader.objectBody_ofList (fun e he => Reader.value_bytes (h e he)) []
  rw [parseObject, Reader.whollyRead, bytes, Reader.objectOnly, Reader.skipSpace_cons (by decide)]
  dsimp only
  rw [if_pos rfl, hbody]
  rfl

/-- A map is read back from the text of its object. -/
theorem parseObject_bytes {m : KeyMap Json} (h : (object m.entries).Plain Reader.maxDepth) :
    parseObject (object m.entries).bytes = .ok m := by
  rw [parseObject_ofList (plain_object_iff.mp h).2, KeyMap.ofList_entries]

end Switchboard.Json
