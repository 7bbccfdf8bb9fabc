import Switchboard.Proofs.Wire.Grammar

/-!
# Proofs/Wire/Bounds — reading a block with checked indices

The readers of `Wire/Block` cut octets with `take` and `drop`, which forgive an index beyond the
end.  Here every word and every range must lie inside its octets and every sum must fit a 64-bit
index; a step that breaks this stops.  `checkedFields_eq` and `slices_eq` say that no step ever
does, whatever lengths are declared: the checks of `Block.fields` come before every use of a length.
-/

namespace Switchboard

namespace Block

/-! ## Checked steps -/

/-- A sum, if it fits an index of 64 bits. -/
def sum? (m n : Nat) : Option Nat := if m + n < 0x1_0000_0000_0000_0000 then some (m + n) else none

/-- A difference, if it is not negative. -/
def difference? (m n : Nat) : Option Nat := if n ≤ m then some (m - n) else none

/-- The octets of a range, if it lies inside. -/
def range? (input : Bytes) (start stop : Nat) : Option Bytes :=
  if start ≤ stop ∧ stop ≤ input.length then some ((input.drop start).take (stop - start)) else none

/-- The word at an index, if all of it lies inside. -/
def wordAt? (input : Bytes) (start : Nat) : Option Nat :=
  match input.drop start with
  | a :: b :: c :: d :: _ => some (word32 a b c d)
  | _ => none

/-! ## Checked readers -/

/-- `Block.length?` with checked indices. -/
def checkedLength (input : Bytes) : Option (Except Malformed Nat) := do
  if input.length < lengthSize then return .error (.noLength input.length)
  let declared ← wordAt? input 0
  return .ok declared

/-- `Block.fields` with checked indices. -/
def checkedFields (input : Bytes) : Option (Except Malformed Fields) := do
  if input.length < lengthSize + fixedSize then return .error (.noFields input.length)
  let declared ← wordAt? input 0
  let id ← wordAt? input 4
  let headerLength ← wordAt? input 8
  let bodyLength ← wordAt? input 12
  let available ← difference? input.length lengthSize
  if available < declared then return .error (.cut declared available)
  let segments ← sum? (← sum? fixedSize headerLength) bodyLength
  if segments ≠ declared then return .error (.disagree headerLength bodyLength declared)
  return .ok ⟨declared, (UInt32.ofNat id).toInt32, headerLength, bodyLength⟩

namespace Fields

/-- `Fields.headerIn` with checked indices. -/
def checkedHeader (f : Fields) (input : Bytes) : Option Bytes := do
  range? input (lengthSize + fixedSize) (← sum? (lengthSize + fixedSize) f.headerLength)

/-- `Fields.bodyIn` with checked indices. -/
def checkedBody (f : Fields) (input : Bytes) : Option Bytes := do
  let start ← sum? (lengthSize + fixedSize) f.headerLength
  range? input start (← sum? start f.bodyLength)

/-- `Fields.blockIn` with checked indices. -/
def checkedBlock (f : Fields) (input : Bytes) : Option Bytes := do
  range? input 0 (← sum? lengthSize f.declared)

end Fields

/-! ## No step stops -/

theorem sum?_eq {m n : Nat} (h : m + n < 0x1_0000_0000_0000_0000) : sum? m n = some (m + n) :=
  if_pos h

theorem difference?_eq {m n k : Nat} (h : n + k = m) : difference? m n = some k := by
  rw [difference?, if_pos (by omega), Option.some.injEq]
  omega

theorem range?_eq {input : Bytes} {start n : Nat} (h : start + n ≤ input.length) :
    range? input start (start + n) = some ((input.drop start).take n) := by
  rw [range?, if_pos ⟨Nat.le_add_right _ _, h⟩, Nat.add_sub_cancel_left]

theorem fields_eq_of_short {input : Bytes} (h : input.length < lengthSize + fixedSize) :
    fields input = .error (.noFields input.length) := by
  unfold fields
  split
  · simp only [List.length_cons, lengthSize, fixedSize] at h
    omega
  · rfl

/-- Four octets or more start with a word. -/
theorem exists_word {input : Bytes} (h : 4 ≤ input.length) :
    ∃ a b c d rest, input = a :: b :: c :: d :: rest := by
  rcases input with _ | ⟨a, _ | ⟨b, _ | ⟨c, _ | ⟨d, rest⟩⟩⟩⟩
  case cons.cons.cons.cons => exact ⟨a, b, c, d, rest, rfl⟩
  all_goals
    simp only [List.length_cons, List.length_nil] at h
    omega

/-- **The checked reader never stops, and reads the same fields.** -/
theorem checkedFields_eq (input : Bytes) : checkedFields input = some (fields input) := by
  by_cases hshort : input.length < lengthSize + fixedSize
  · rw [fields_eq_of_short hshort, checkedFields, if_pos hshort]
    rfl
  have hlong : 16 ≤ input.length := Nat.not_lt.mp hshort
  obtain ⟨a₁, a₂, a₃, a₄, rest, rfl⟩ := exists_word (show 4 ≤ input.length by omega)
  simp only [List.length_cons] at hlong
  obtain ⟨b₁, b₂, b₃, b₄, rest, rfl⟩ := exists_word (show 4 ≤ rest.length by omega)
  simp only [List.length_cons] at hlong
  obtain ⟨c₁, c₂, c₃, c₄, rest, rfl⟩ := exists_word (show 4 ≤ rest.length by omega)
  simp only [List.length_cons] at hlong
  obtain ⟨d₁, d₂, d₃, d₄, segments, rfl⟩ := exists_word (show 4 ≤ rest.length by omega)
  have hheader := word32_lt c₁ c₂ c₃ c₄
  have hbody := word32_lt d₁ d₂ d₃ d₄
  have hsum : sum? fixedSize (word32 c₁ c₂ c₃ c₄) = some (fixedSize + word32 c₁ c₂ c₃ c₄) :=
    sum?_eq (by rw [fixedSize]; omega)
  have hsum' : sum? (fixedSize + word32 c₁ c₂ c₃ c₄) (word32 d₁ d₂ d₃ d₄) =
      some (fixedSize + word32 c₁ c₂ c₃ c₄ + word32 d₁ d₂ d₃ d₄) :=
    sum?_eq (by rw [fixedSize]; omega)
  have hdifference : difference? (a₁ :: a₂ :: a₃ :: a₄ :: b₁ :: b₂ :: b₃ :: b₄ :: c₁ :: c₂ :: c₃ ::
      c₄ :: d₁ :: d₂ :: d₃ :: d₄ :: segments).length lengthSize =
        some (fixedSize + segments.length) := by
    refine difference?_eq ?_
    simp only [List.length_cons, lengthSize, fixedSize]
    omega
  rw [checkedFields, if_neg hshort]
  simp only [wordAt?, List.drop_succ_cons, List.drop_zero, Option.pure_def,
    Option.bind_eq_bind, Option.bind_some, hdifference, hsum, hsum', fields]
  split
  · rfl
  split
  · rfl
  · rfl

theorem checkedLength_eq (input : Bytes) : checkedLength input = some (length? input) := by
  by_cases hshort : input.length < lengthSize
  · rw [checkedLength, if_pos hshort]
    unfold length?
    split
    · simp only [List.length_cons, lengthSize] at hshort
      omega
    · rfl
  obtain ⟨a, b, c, d, rest, rfl⟩ := exists_word (Nat.not_lt.mp hshort)
  rw [checkedLength, if_neg hshort]
  rfl

/-- **Accepted fields point inside their octets**, and no index of theirs leaves 64 bits. -/
theorem slices_eq {input : Bytes} {f : Fields} (h : fields input = .ok f) :
    f.checkedHeader input = some (f.headerIn input) ∧
      f.checkedBody input = some (f.bodyIn input) ∧
      f.checkedBlock input = some (f.blockIn input) := by
  obtain ⟨b, rest, hb, rfl, rfl⟩ := eq_bytes_append_of_fields h
  have hlength : (b.bytes ++ rest).length = lengthSize + b.declared + rest.length := by
    rw [List.length_append, length_bytes]
  have hlt := hb.declared_lt
  simp only [declared, lengthSize, fixedSize] at hlength hlt
  have hheader : sum? (lengthSize + fixedSize) b.header.length =
      some (lengthSize + fixedSize + b.header.length) :=
    sum?_eq (by simp only [lengthSize, fixedSize]; omega)
  have hbody : sum? (lengthSize + fixedSize + b.header.length) b.body.length =
      some (lengthSize + fixedSize + b.header.length + b.body.length) :=
    sum?_eq (by simp only [lengthSize, fixedSize]; omega)
  have hblock : sum? lengthSize b.declared = some (lengthSize + b.declared) :=
    sum?_eq (by simp only [lengthSize, fixedSize, declared]; omega)
  refine ⟨?_, ?_, ?_⟩
  · simp only [Fields.checkedHeader, fieldsFor, hheader, Option.bind_eq_bind, Option.bind_some]
    rw [range?_eq (by simp only [lengthSize, fixedSize]; omega)]
    rfl
  · simp only [Fields.checkedBody, fieldsFor, hheader, hbody, Option.bind_eq_bind,
      Option.bind_some]
    rw [range?_eq (by simp only [lengthSize, fixedSize]; omega)]
    rfl
  · simp only [Fields.checkedBlock, fieldsFor, hblock, Option.bind_eq_bind, Option.bind_some]
    rw [← Nat.zero_add (lengthSize + b.declared),
      range?_eq (by simp only [lengthSize, fixedSize, declared]; omega)]
    rfl

end Block

end Switchboard
