import Switchboard.Proofs.Json.ReadBack
import Switchboard.Proofs.Wire.Answers

/-!
# Proofs/Wire/RoundTrip — a message is read back from its block

A message is packed in three steps, header and body to octets and both into a block, and each step
has its reader: `Header.decode_bytes`, `Marshaller.decode_bytes` and `Block.read_bytes_append`.
What holds them together are the empty segments.  A header takes no octet when it has no field, and
a body only when there is none, as every JSON text has an octet (`Json.bytes_ne_nil`).
-/

namespace Switchboard

/-! ## Headers and bodies -/

/-- How deep a header may be for its text to name it; the header itself is one level. -/
def Header.Plain (h : Header) : Prop := (Json.object h.entries).Plain Json.Reader.maxDepth

theorem Header.decode_bytes {h : Header} (hplain : h.Plain) : Header.decode h.bytes = .ok h := by
  rw [Header.bytes]
  split
  · -- the header without fields is the empty one
    rename_i hempty
    have hentries : h.entries = [] := List.isEmpty_iff.mp hempty
    rw [Header.decode, if_pos rfl, ← KeyMap.ofList_entries h, hentries]
    rfl
  · rw [Header.decode, if_neg (by rw [Json.bytes]; exact List.cons_ne_nil _ _),
      Json.parseObject_bytes hplain]

theorem Marshaller.decode_bytes {v : Json} (h : v.Plain Json.Reader.maxDepth) :
    Marshaller.decode .json .value v.bytes = .ok v := by
  rw [Marshaller.decode, if_pos (by rfl), Marshaller.parseBody, Json.parse_bytes h]

theorem Json.bytes_ne_nil (v : Json) : v.bytes ≠ [] := by
  obtain ⟨b, bs, hv, -⟩ := Json.Reader.exists_head_bytes v
  rw [hv]
  exact List.cons_ne_nil b bs

/-- The octets of a body; an absent one has none. -/
def Message.bodyBytes (body : Option Json) : Bytes := body.elim [] Json.bytes

/-- With bodies in JSON a message is packed like a block whose body comes encoded. -/
theorem Message.pack_json (m : Message) :
    Message.pack .json m = Block.pack m.id (bodyBytes m.body) m.header := by
  obtain ⟨id, header, body⟩ := m
  cases body <;> rfl

/-! ## Packing -/

namespace Block

/-- What comes of packing the block `b`: its wire form, whole and with every length as it is,
unless the length does not fit its word. -/
structure PackedAs (packing : Except WireError Bytes) (b : Block) : Prop where
  length (packed : Bytes) (h : packing = .ok packed) :
    ∃ n, length? packed = .ok n ∧ packed.length = 4 + n
  answers (packed : Bytes) (h : packing = .ok packed) (rest : Bytes) : Answers (packed ++ rest) b
  tooLarge_iff : (∃ size max, packing = .error (.tooLarge size max)) ↔
    0xFFFF_FFFF < 12 + b.header.length + b.body.length
  exists_packed (h : 12 + b.header.length + b.body.length ≤ 0xFFFF_FFFF) :
    ∃ packed, packing = .ok packed

variable {id : Int32} {body packed : Bytes} {header : Header}

/-- What was packed is the wire form of a block that fits. -/
theorem eq_bytes_of_pack (h : pack id body header = .ok packed) :
    Fits ⟨id, header.bytes, body⟩ ∧ packed = bytes ⟨id, header.bytes, body⟩ := by
  unfold pack at h
  dsimp only at h
  split at h
  · cases h
  · rename_i hfits
    injection h with h
    exact ⟨Nat.not_lt.mp hfits, h.symm⟩

/-- **Packing writes every block whose length fits, and no other.** -/
theorem packedAs_pack (id : Int32) (body : Bytes) (header : Header) :
    PackedAs (pack id body header) ⟨id, header.bytes, body⟩ where
  length packed h := by
    obtain ⟨hfits, rfl⟩ := eq_bytes_of_pack h
    have hlength := length?_bytes_append hfits []
    rw [List.append_nil] at hlength
    exact ⟨_, hlength, length_bytes _⟩
  answers packed h rest := by
    obtain ⟨hfits, rfl⟩ := eq_bytes_of_pack h
    exact answers_bytes_append hfits rest
  tooLarge_iff := by
    change _ ↔ maxDeclared < declared ⟨id, header.bytes, body⟩
    constructor
    · rintro ⟨size, max, h⟩
      unfold pack at h
      dsimp only at h
      split at h
      · assumption
      · cases h
    · exact fun h => ⟨_, _, if_pos h⟩
  exists_packed h := ⟨_, if_neg (Nat.not_lt.mpr h)⟩

end Block

/-! ## The round trip -/

namespace Message

/-- The block a message is packed as. -/
def block (m : Message) : Block := ⟨m.id, m.header.bytes, bodyBytes m.body⟩

/-- Do the texts of header and body name them? -/
structure Plain (m : Message) : Prop where
  header : m.header.Plain
  body : ∀ v ∈ m.body, v.Plain Json.Reader.maxDepth

theorem unpack_bytes_append {m : Message} (h : m.Plain) (hfits : m.block.Fits) (rest : Bytes) :
    unpack .json .value (m.block.bytes ++ rest) = .ok m := by
  rw [unpack, Block.read_bytes_append hfits]
  change (Header.decode m.header.bytes >>= _) = _
  rw [Header.decode_bytes h.header]
  obtain ⟨id, header, body⟩ := m
  cases body with
  | none => rfl
  | some v =>
    have hv := h.body v rfl
    change (if v.bytes = [] then _ else _) = _
    rw [if_neg (Json.bytes_ne_nil v)]
    change (Marshaller.decode .json .value v.bytes >>= _) = _
    rw [Marshaller.decode_bytes hv]
    rfl

/-- **A message of plain values is read back from its block**, whatever follows it, an absent body
as absent and the body `null` as `null`; of a block whose body comes encoded the header is read
back, and the body to the octet. -/
theorem unpack_pack (m : Message) (h : m.Plain) :
    Block.PackedAs (Message.pack .json m) ⟨m.id, m.header.bytes, bodyBytes m.body⟩ ∧
      (∀ packed, Message.pack .json m = .ok packed →
        ∀ rest, Message.unpack .json .value (packed ++ rest) = .ok m) ∧
      ∀ raw : Bytes, Block.PackedAs (Block.pack m.id raw m.header) ⟨m.id, m.header.bytes, raw⟩ ∧
        ∀ packed, Block.pack m.id raw m.header = .ok packed → ∀ rest,
          Block.headerOf (packed ++ rest) = .ok m.header ∧
            Block.bodyBytesOf (packed ++ rest) = .ok raw := by
  rw [pack_json]
  refine ⟨Block.packedAs_pack _ _ _, fun packed hpacked rest => ?_,
    fun raw => ⟨Block.packedAs_pack _ raw _, fun packed hpacked rest => ?_⟩⟩
  · obtain ⟨hfits, rfl⟩ := Block.eq_bytes_of_pack hpacked
    exact unpack_bytes_append h hfits rest
  · obtain ⟨hfits, rfl⟩ := Block.eq_bytes_of_pack hpacked
    exact ⟨(Block.headerOf_bytes_append hfits rest).trans (Header.decode_bytes h.header),
      Block.bodyBytesOf_bytes_append hfits rest⟩

/-- A text with escapes in the header, and a body that nests. -/
theorem unpack_pack_nested :
    Message.Plain ⟨-7, .ofList [("k", .string "\"é\n")], some (.array [.object [("", .null)]])⟩ ∧
      ∃ packed, Message.pack .json
        ⟨-7, .ofList [("k", .string "\"é\n")], some (.array [.object [("", .null)]])⟩ = .ok packed ∧
        Message.unpack .json .value (packed ++ [0]) =
          .ok ⟨-7, .ofList [("k", .string "\"é\n")], some (.array [.object [("", .null)]])⟩ := by
  have hheader : Header.Plain (.ofList [("k", .string "\"é\n")]) :=
    Json.plain_object_iff.mpr ⟨KeyMap.rising _, fun e he => by
      obtain rfl : e = ("k", .string "\"é\n") := List.mem_singleton.mp he
      exact ⟨trivial, trivial, Nat.zero_le _⟩⟩
  have hbody : Json.Plain Json.Reader.maxDepth (.array [.object [("", .null)]]) :=
    ⟨⟨⟨trivial, trivial⟩, trivial⟩, ⟨⟨by decide, trivial, trivial⟩, trivial⟩, by decide⟩
  have hplain : Message.Plain
      ⟨-7, .ofList [("k", .string "\"é\n")], some (.array [.object [("", .null)]])⟩ :=
    ⟨hheader, fun v hv => Option.some.inj hv ▸ hbody⟩
  obtain ⟨hpacked, hunpack, -⟩ := unpack_pack _ hplain
  obtain ⟨packed, h⟩ := hpacked.exists_packed (by decide +kernel)
  exact ⟨hplain, packed, h, hunpack packed h [0]⟩

end Message

end Switchboard
