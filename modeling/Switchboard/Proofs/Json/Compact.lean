import Switchboard.Proofs.Json.ReadBack

/-!
# Proofs/Json/Compact — the compact text of a value is a text

A value is written as octets, and people are shown the text of these octets.  There is one: what is
written outside of strings is ASCII, and inside of a string the octets of a character above ASCII
are left as they are (`Json.isText_escaped`).  So the compact text has just the octets of the value
(`Json.ofText_compact`), and a plain value is read back from it (`Json.parse_compact`).
-/

namespace Switchboard

namespace Bytes

/-! ## Octets of characters -/

/-- The octets are those of characters, one after another. -/
def IsText (bs : Bytes) : Prop := ∃ cs : List Char, bs = cs.flatMap String.utf8EncodeChar

variable {bs bs' : Bytes} {b : UInt8}

theorem ofText_ofList (cs : List Char) :
    ofText (String.ofList cs) = cs.flatMap String.utf8EncodeChar := by
  rw [ofText, String.toUTF8_eq_toByteArray, String.toByteArray_ofList, List.utf8Encode]
  exact List.toList_data_toByteArray

theorem ofText_eq (s : String) : ofText s = s.toList.flatMap String.utf8EncodeChar := by
  rw [← ofText_ofList, String.ofList_toList]

/-- **A text has the octets that it was made from.** -/
theorem IsText.exists_text? (h : IsText bs) : ∃ s, bs.text? = some s ∧ ofText s = bs := by
  obtain ⟨cs, rfl⟩ := h
  exact ⟨String.ofList cs, by rw [← ofText_ofList, text?_ofText], ofText_ofList cs⟩

theorem isText_nil : IsText [] := ⟨[], rfl⟩

/-- Texts may be put one behind the other. -/
theorem IsText.append (h : IsText bs) (h' : IsText bs') : IsText (bs ++ bs') := by
  obtain ⟨cs, rfl⟩ := h
  obtain ⟨cs', rfl⟩ := h'
  exact ⟨cs ++ cs', List.flatMap_append.symm⟩

theorem utf8EncodeChar_of_ascii {c : Char} (h : c.toNat < 128) :
    String.utf8EncodeChar c = [UInt8.ofNat c.toNat] :=
  if_pos (Nat.le_of_lt_succ h)

theorem toNat_ofNat_of_ascii : ∀ n < 128, (Char.ofNat n).toNat = n := by decide

theorem IsText.cons (hb : b.toNat < 128) (h : IsText bs) : IsText (b :: bs) := by
  obtain ⟨cs, rfl⟩ := h
  have hchar := toNat_ofNat_of_ascii _ hb
  refine ⟨Char.ofNat b.toNat :: cs, ?_⟩
  rw [List.flatMap_cons, utf8EncodeChar_of_ascii (hchar.symm ▸ hb), hchar, UInt8.ofNat_toNat]
  rfl

theorem isText_of_ascii (h : ∀ b ∈ bs, b.toNat < 128) : IsText bs := by
  induction bs with
  | nil => exact isText_nil
  | cons b bs ih =>
    obtain ⟨hb, hbs⟩ := List.forall_mem_cons.mp h
    exact (ih hbs).cons hb

/-- The octets of a fixed text are looked through. -/
theorem isText_of_all (h : (bs.all fun b => b.toNat < 128) = true) : IsText bs :=
  isText_of_ascii fun b hb => of_decide_eq_true (List.all_eq_true.mp h b hb)

/-- A character above ASCII has no ASCII among its octets. -/
theorem le_of_mem_utf8EncodeChar {c : Char} (h : 128 ≤ c.toNat) :
    ∀ b ∈ String.utf8EncodeChar c, 128 ≤ b.toNat := by
  have hval : c.val.toNat = c.toNat := rfl
  have hcons {n : Nat} {bs : Bytes} (hlow : 128 ≤ n) (hhigh : n < 256)
      (h : ∀ b ∈ bs, 128 ≤ b.toNat) : ∀ b ∈ UInt8.ofNat n :: bs, 128 ≤ b.toNat := by
    refine List.forall_mem_cons.mpr ⟨?_, h⟩
    rwa [UInt8.toNat_ofNat', Nat.mod_eq_of_lt hhigh]
  have hnil : ∀ b ∈ ([] : Bytes), 128 ≤ b.toNat := List.forall_mem_nil _
  simp only [String.utf8EncodeChar, hval, if_neg (Nat.not_le.mpr h)]
  -- the larger the character, the more octets it has
  split
  · exact hcons (by omega) (by omega) (hcons (by omega) (by omega) hnil)
  · split
    · exact hcons (by omega) (by omega) (hcons (by omega) (by omega) (hcons (by omega) (by omega)
        hnil))
    · exact hcons (by omega) (by omega) (hcons (by omega) (by omega) (hcons (by omega) (by omega)
        (hcons (by omega) (by omega) hnil)))

end Bytes

namespace Json

open Bytes

/-! ## Strings -/

/-- An escape is written in ASCII. -/
theorem escaped_ascii :
    ∀ n < 128, ((escaped (UInt8.ofNat n)).all fun b => b.toNat < 128) = true := by
  decide +kernel

/-- Nothing above ASCII is escaped. -/
theorem flatMap_escaped_of_high {bs : Bytes} (h : ∀ b ∈ bs, 128 ≤ b.toNat) :
    bs.flatMap escaped = bs := by
  induction bs with
  | nil => rfl
  | cons b bs ih =>
    obtain ⟨hb, hbs⟩ := List.forall_mem_cons.mp h
    have hne {x : UInt8} (hx : x.toNat < 128) : b ≠ x := by
      rintro rfl
      omega
    have hescaped : escaped b = [b] := Reader.escaped_plain (hne (by decide)) (hne (by decide))
      (UInt8.le_iff_toNat_le.mpr (Nat.le_trans (by decide) hb))
    rw [List.flatMap_cons, hescaped, ih hbs]
    rfl

/-- **Escaping leaves a text a text.** -/
theorem isText_escaped (s : String) : IsText ((ofText s).flatMap escaped) := by
  rw [ofText_eq]
  induction s.toList with
  | nil => exact isText_nil
  | cons c cs ih =>
    rw [List.flatMap_cons, List.flatMap_append]
    refine .append ?_ ih
    rcases Nat.lt_or_ge c.toNat 128 with hlt | hle
    · rw [utf8EncodeChar_of_ascii hlt, List.flatMap_singleton]
      exact isText_of_all (escaped_ascii _ hlt)
    · rw [flatMap_escaped_of_high (le_of_mem_utf8EncodeChar hle)]
      exact ⟨[c], (List.flatMap_singleton ..).symm⟩

/-- **A quoted string is a text**, whatever it quotes. -/
theorem isText_stringBytes (s : String) : IsText (stringBytes s) :=
  .cons (by decide) ((isText_escaped s).append (isText_of_all rfl))

/-! ## Values -/

theorem isText_digits {ds : Bytes} (h : ∀ d ∈ ds, Reader.isDigit d) : IsText ds :=
  isText_of_ascii fun d hd => by
    have hdigit := h d hd
    rw [Reader.isDigit, Bool.and_eq_true, decide_eq_true_eq, decide_eq_true_eq,
      UInt8.le_iff_toNat_le, UInt8.le_iff_toNat_le] at hdigit
    exact Nat.lt_of_le_of_lt hdigit.2 (by decide)

theorem isText_decimal {text : Bytes} (h : Reader.IsDecimal text) : IsText text := by
  obtain ⟨hwhole, hfraction, hexponent⟩ := h
  refine (isText_digits hwhole.isDigit).append (.append ?_ ?_)
  · cases hfraction with
    | none => exact isText_nil
    | point hds => exact .cons (by decide) (isText_digits hds.isDigit)
  · cases hexponent with
    | none => exact isText_nil
    | mark hsign hds =>
      refine .cons (by decide) (.cons ?_ (isText_digits hds.isDigit))
      rcases hsign with rfl | rfl <;> decide

/-- A number is a text. -/
theorem isText_number (n : Number) : IsText (number n).bytes := by
  cases n with
  | natural n => exact isText_digits fun d hd => Reader.isDigit_of_mem_numeral hd
  | negative n =>
    exact .cons (by decide) (isText_digits fun d hd => Reader.isDigit_of_mem_numeral hd)
  | real bits =>
    obtain ⟨text, hdecimal, htext | htext⟩ := Reader.isDecimal_realText bits
    · exact htext ▸ isText_decimal hdecimal
    · exact htext ▸ .cons (by decide) (isText_decimal hdecimal)

mutual

/-- **What is written of a value is a text.** -/
theorem isText_bytes : ∀ v : Json, IsText v.bytes
  | null => isText_of_all rfl
  | bool true => isText_of_all rfl
  | bool false => isText_of_all rfl
  | number n => isText_number n
  | string s => isText_stringBytes s
  | array items =>
    .cons (by decide) ((isText_itemsBytes items).append (isText_of_all rfl))
  | object fields =>
    .cons (by decide) ((isText_fieldsBytes fields).append (isText_of_all rfl))

theorem isText_itemsBytes : ∀ items : List Json, IsText (itemsBytes items)
  | [] => isText_nil
  | [v] => isText_bytes v
  | v :: w :: rest => (isText_bytes v).append (.cons (by decide) (isText_itemsBytes (w :: rest)))

theorem isText_fieldsBytes : ∀ fields : List (String × Json), IsText (fieldsBytes fields)
  | [] => isText_nil
  | [(k, v)] => (isText_stringBytes k).append (.cons (by decide) (isText_bytes v))
  | (k, v) :: f :: rest => (isText_stringBytes k).append
    (.cons (by decide) ((isText_bytes v).append
      (.cons (by decide) (isText_fieldsBytes (f :: rest)))))

end

/-- **The compact text of a value has the octets of the value.** -/
theorem ofText_compact (v : Json) : ofText v.compact = v.bytes := by
  obtain ⟨s, htext, hs⟩ := (isText_bytes v).exists_text?
  rw [compact, htext]
  exact hs

/-- **A plain value is read back from its compact text.** -/
theorem parse_compact {v : Json} (h : v.Plain Reader.maxDepth) :
    parse (ofText v.compact) = .ok v := by
  rw [ofText_compact, parse_bytes h]

end Json

end Switchboard
