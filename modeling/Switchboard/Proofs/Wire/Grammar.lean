import Switchboard.Wire.Block

/-!
# Proofs/Wire/Grammar — the octets that start with a block

A block has one wire form (`Block.bytes`), and `Block.fields` accepts an octet sequence exactly when
such a form stands in front of it, whatever follows.  Both directions go through the four words:
`fields_bytes_append` reads them back, `eq_bytes_append_of_fields` writes them again.  The fields
then point at the segments they were written for (`read_bytes_append`), so no two blocks stand in
front of the same octets (`bytes_append_inj`).
-/

namespace Switchboard

namespace Block

/-! ## Message ids as words -/

theorem idWord_lt (id : Int32) : idWord id < 0x1_0000_0000 := id.toUInt32.toNat_lt

/-- A message id is the signed reading of its word. -/
theorem toInt32_idWord (id : Int32) : (UInt32.ofNat (idWord id)).toInt32 = id := by
  rw [idWord, UInt32.ofNat_toNat]
  exact Int32.toInt32_toUInt32 id

/-- …and a word is the word of its signed reading. -/
theorem idWord_toInt32 {n : Nat} (h : n < 0x1_0000_0000) : idWord (UInt32.ofNat n).toInt32 = n := by
  rw [idWord, Int32.toUInt32, UInt32.toInt32]
  exact UInt32.toNat_ofNat_of_lt' h

/-! ## The fields of a wire form -/

variable {b : Block}

/-- The length of a header fits its field. -/
theorem Fits.header_lt (h : b.Fits) : b.header.length < 0x1_0000_0000 := by
  unfold Fits declared fixedSize maxDeclared at h
  omega

/-- The length of a body fits its field. -/
theorem Fits.body_lt (h : b.Fits) : b.body.length < 0x1_0000_0000 := by
  unfold Fits declared fixedSize maxDeclared at h
  omega

theorem Fits.declared_lt (h : b.Fits) : b.declared < 0x1_0000_0000 := by
  unfold Fits maxDeclared at h
  omega

/-- The words in front of the wire form of a block. -/
def fieldsFor (b : Block) : Fields := ⟨b.declared, b.id, b.header.length, b.body.length⟩

/-- **The words of a wire form are read back**, whatever follows it. -/
theorem fields_bytes_append (h : b.Fits) (rest : Bytes) :
    fields (b.bytes ++ rest) = .ok b.fieldsFor := by
  have hlen : ¬fixedSize + (b.header ++ (b.body ++ rest)).length < b.declared := by
    simp only [List.length_append, declared]
    omega
  have hsum : ¬fixedSize + b.header.length + b.body.length ≠ b.declared := fun hne => hne rfl
  simp only [bytes, be32, List.append_assoc, List.cons_append, List.nil_append, fields,
    word32_be32 h.declared_lt, word32_be32 (idWord_lt b.id), word32_be32 h.header_lt,
    word32_be32 h.body_lt, if_neg hlen, if_neg hsum, toInt32_idWord, fieldsFor]

/-- **Octets with fields in front start with the wire form of a block**: the one cut out of them. -/
theorem eq_bytes_append_of_fields {input : Bytes} {f : Fields} (h : fields input = .ok f) :
    ∃ (b : Block) (rest : Bytes), b.Fits ∧ input = b.bytes ++ rest ∧ f = b.fieldsFor := by
  unfold fields at h
  split at h
  case h_2 => cases h
  case h_1 a₁ a₂ a₃ a₄ b₁ b₂ b₃ b₄ c₁ c₂ c₃ c₄ d₁ d₂ d₃ d₄ segments =>
    have hdeclared := word32_lt a₁ a₂ a₃ a₄
    have hid := word32_lt b₁ b₂ b₃ b₄
    dsimp only at h
    split at h
    · cases h
    split at h
    · cases h
    rename_i hcut hsum
    injection h with h
    have hsum' := Decidable.not_not.mp hsum
    let header := segments.take (word32 c₁ c₂ c₃ c₄)
    let after := segments.drop (word32 c₁ c₂ c₃ c₄)
    let body := after.take (word32 d₁ d₂ d₃ d₄)
    -- the segments are as long as they declare, since together they fit into what is there
    have hheader : header.length = word32 c₁ c₂ c₃ c₄ := by
      simp only [header, List.length_take]
      omega
    have hbody : body.length = word32 d₁ d₂ d₃ d₄ := by
      simp only [body, after, List.length_take, List.length_drop]
      omega
    let front : Block := ⟨(UInt32.ofNat (word32 b₁ b₂ b₃ b₄)).toInt32, header, body⟩
    have hfront : front.declared = word32 a₁ a₂ a₃ a₄ := by
      rw [← hsum', ← hheader, ← hbody]
      rfl
    refine ⟨front, after.drop (word32 d₁ d₂ d₃ d₄), ?_, ?_, ?_⟩
    · rw [Fits, hfront, maxDeclared]
      omega
    · have hsegments : header ++ (body ++ after.drop (word32 d₁ d₂ d₃ d₄)) = segments := by
        simp only [header, body, after, List.take_append_drop]
      rw [bytes, hfront, show front.header = header from rfl, show front.body = body from rfl,
        hheader, hbody, idWord_toInt32 hid, be32_word32, be32_word32, be32_word32, be32_word32,
        List.append_assoc, List.append_assoc _ header, hsegments]
      rfl
    · rw [← h, fieldsFor, hfront, show front.header = header from rfl,
        show front.body = body from rfl, hheader, hbody]

/-! ## The octets the fields point at -/

/-- The four words and the two segments, apart. -/
theorem bytes_append_eq (b : Block) (rest : Bytes) :
    b.bytes ++ rest = (be32 b.declared ++ be32 (idWord b.id) ++ be32 b.header.length ++
      be32 b.body.length) ++ (b.header ++ (b.body ++ rest)) := by
  simp only [bytes, List.append_assoc]

/-- A block is as long as it declares, and the field that declares it. -/
theorem length_bytes (b : Block) : b.bytes.length = lengthSize + b.declared := by
  simp only [bytes, List.length_append, length_be32, lengthSize, declared, fixedSize]
  omega

theorem headerIn_bytes_append (b : Block) (rest : Bytes) :
    b.fieldsFor.headerIn (b.bytes ++ rest) = b.header := by
  rw [Fields.headerIn, bytes_append_eq, List.drop_left' (by rfl), fieldsFor, List.take_left]

theorem bodyIn_bytes_append (b : Block) (rest : Bytes) :
    b.fieldsFor.bodyIn (b.bytes ++ rest) = b.body := by
  have hdrop : (b.bytes ++ rest).drop b.fieldsFor.headerEnd = b.body ++ rest := by
    rw [bytes_append_eq, ← List.append_assoc, List.drop_left']
    rw [List.length_append, Fields.headerEnd, fieldsFor]
    rfl
  rw [Fields.bodyIn, hdrop, fieldsFor, List.take_left]

theorem blockIn_bytes_append (b : Block) (rest : Bytes) :
    b.fieldsFor.blockIn (b.bytes ++ rest) = b.bytes := by
  rw [Fields.blockIn, fieldsFor, List.take_left' (length_bytes b)]

/-! ## Answers about a block in front -/

/-- **The fields are read off the front of what was received**, whatever follows the block. -/
theorem fieldsOf_bytes_append (h : b.Fits) (rest : Bytes) :
    fieldsOf (b.bytes ++ rest) = .ok b.fieldsFor := by
  rw [fieldsOf, fields_bytes_append h]
  rfl

/-- **A block is read back from its wire form**, whatever follows it. -/
theorem read_bytes_append (h : b.Fits) (rest : Bytes) : read (b.bytes ++ rest) = .ok b := by
  rw [read, fieldsOf_bytes_append h, Except.map, headerIn_bytes_append, bodyIn_bytes_append]
  rfl

/-- What follows a block is cut off. -/
theorem trim_bytes_append (h : b.Fits) (rest : Bytes) : trim (b.bytes ++ rest) = .ok b.bytes := by
  rw [trim, fieldsOf_bytes_append h, Except.map, blockIn_bytes_append]

theorem headerBytesOf_bytes_append (h : b.Fits) (rest : Bytes) :
    headerBytesOf (b.bytes ++ rest) = .ok b.header := by
  rw [headerBytesOf, fieldsOf_bytes_append h, Except.map, headerIn_bytes_append]

theorem bodyBytesOf_bytes_append (h : b.Fits) (rest : Bytes) :
    bodyBytesOf (b.bytes ++ rest) = .ok b.body := by
  rw [bodyBytesOf, fieldsOf_bytes_append h, Except.map, bodyIn_bytes_append]

/-- The header of a block is read as if nothing followed. -/
theorem headerOf_bytes_append (h : b.Fits) (rest : Bytes) :
    headerOf (b.bytes ++ rest) = Header.decode b.header := by
  rw [headerOf, headerBytesOf_bytes_append h]
  rfl

/-- The length a block declares is read as if nothing followed. -/
theorem length?_bytes_append (h : b.Fits) (rest : Bytes) :
    length? (b.bytes ++ rest) = .ok b.declared := by
  rw [bytes_append_eq]
  simp only [be32, List.cons_append, List.nil_append, length?, word32_be32 h.declared_lt]

/-- Octets can start with one block only. -/
theorem bytes_append_inj {c : Block} (hb : b.Fits) (hc : c.Fits) {r s : Bytes}
    (h : b.bytes ++ r = c.bytes ++ s) : b = c ∧ r = s := by
  have hbc : b = c := by
    have hread := read_bytes_append hb r
    rw [h, read_bytes_append hc] at hread
    injection hread with hread
    exact hread.symm
  subst hbc
  exact ⟨rfl, List.append_cancel_left h⟩

end Block

end Switchboard
