import Switchboard.Proofs.Wire.Bounds
import Switchboard.Wire.Message

/-!
# Proofs/Wire/Answers — what is answered about packed octets

Eleven questions can be asked of packed octets: the lengths, the id, the segments, the header with
its route and pattern, the block alone, and the whole message.  They agree on what they are asked
about.  Where a block stands in front, they answer for it, as if nothing followed; everywhere else
all but the one for the length fail with one error (`trim_eq_ok_iff_begins`).
-/

namespace Switchboard

namespace Block

variable {b : Block}

/-! ## The grammar -/

/-- The octets are the wire form of `b` with `rest` after it. -/
def Begins (input : Bytes) (b : Block) (rest : Bytes) : Prop :=
  12 + b.header.length + b.body.length < 0x1_0000_0000 ∧
    input = be32 (12 + b.header.length + b.body.length) ++ be32 (idWord b.id) ++
      be32 b.header.length ++ be32 b.body.length ++ b.header ++ b.body ++ rest

theorem begins_iff {input rest : Bytes} :
    Begins input b rest ↔ b.Fits ∧ input = b.bytes ++ rest := by
  have hfits : 12 + b.header.length + b.body.length < 0x1_0000_0000 ↔ b.Fits := by
    simp only [Fits, declared, fixedSize, maxDeclared]
    omega
  exact and_congr hfits Iff.rfl

/-! ## Everything that is asked of packed octets -/

/-- What is answered where the block `b` stands in front. -/
structure Answers (input : Bytes) (b : Block) : Prop where
  length : length? input = .ok (12 + b.header.length + b.body.length)
  id : idOf input = .ok b.id
  headerLength : headerLengthOf input = .ok b.header.length
  bodyLength : bodyLengthOf input = .ok b.body.length
  headerBytes : headerBytesOf input = .ok b.header
  bodyBytes : bodyBytesOf input = .ok b.body

/-- Two octet sequences about which every question has the same answer. -/
structure SameAnswers (input front : Bytes) : Prop where
  length : length? input = length? front
  id : idOf input = idOf front
  headerLength : headerLengthOf input = headerLengthOf front
  bodyLength : bodyLengthOf input = bodyLengthOf front
  headerBytes : headerBytesOf input = headerBytesOf front
  bodyBytes : bodyBytesOf input = bodyBytesOf front
  header : headerOf input = headerOf front
  route : routeOf input = routeOf front
  pattern : patternOf input = patternOf front
  block : trim input = trim front
  message (m : Marshaller) (kind : BodyKind) :
    Message.unpack m kind input = Message.unpack m kind front

/-- Octets about which every question but the one for the length has the same error. -/
structure Refused (input : Bytes) (e : WireError) : Prop where
  id : idOf input = .error e
  headerLength : headerLengthOf input = .error e
  bodyLength : bodyLengthOf input = .error e
  headerBytes : headerBytesOf input = .error e
  bodyBytes : bodyBytesOf input = .error e
  header : headerOf input = .error e
  route : routeOf input = .error e
  pattern : patternOf input = .error e
  block : trim input = .error e
  message (m : Marshaller) (kind : BodyKind) : Message.unpack m kind input = .error e

theorem answers_bytes_append (h : b.Fits) (rest : Bytes) : Answers (b.bytes ++ rest) b where
  length := length?_bytes_append h rest
  id := by rw [idOf, fieldsOf_bytes_append h]; rfl
  headerLength := by rw [headerLengthOf, fieldsOf_bytes_append h]; rfl
  bodyLength := by rw [bodyLengthOf, fieldsOf_bytes_append h]; rfl
  headerBytes := headerBytesOf_bytes_append h rest
  bodyBytes := bodyBytesOf_bytes_append h rest

/-- **What follows a block changes no answer.** -/
theorem sameAnswers_bytes_append (h : b.Fits) (rest : Bytes) :
    SameAnswers (b.bytes ++ rest) b.bytes := by
  have ha := answers_bytes_append h rest
  have hb := answers_bytes_append h []
  have hheader := (headerOf_bytes_append h rest).trans (headerOf_bytes_append h []).symm
  have hread := (read_bytes_append h rest).trans (read_bytes_append h []).symm
  have htrim := (trim_bytes_append h rest).trans (trim_bytes_append h []).symm
  rw [List.append_nil] at hb hheader hread htrim
  have hroute : routeOf (b.bytes ++ rest) = routeOf b.bytes := by rw [routeOf, hheader]; rfl
  exact
    { length := ha.length.trans hb.length.symm
      id := ha.id.trans hb.id.symm
      headerLength := ha.headerLength.trans hb.headerLength.symm
      bodyLength := ha.bodyLength.trans hb.bodyLength.symm
      headerBytes := ha.headerBytes.trans hb.headerBytes.symm
      bodyBytes := ha.bodyBytes.trans hb.bodyBytes.symm
      header := hheader
      route := hroute
      pattern := by rw [patternOf, hroute]; rfl
      block := htrim
      message := fun m kind => by rw [Message.unpack, hread]; rfl }

/-- **Octets without fields in front are refused by everything**, for the same reason. -/
theorem refused_of_fields {input : Bytes} {why : Malformed} (h : fields input = .error why) :
    Refused input (.malformed why) := by
  have hf : fieldsOf input = .error (.malformed why) := by rw [fieldsOf, h]; rfl
  have hheader : headerOf input = .error (.malformed why) := by
    rw [headerOf, headerBytesOf, hf]
    rfl
  have hroute : routeOf input = .error (.malformed why) := by rw [routeOf, hheader]; rfl
  exact
    { id := by rw [idOf, hf]; rfl
      headerLength := by rw [headerLengthOf, hf]; rfl
      bodyLength := by rw [bodyLengthOf, hf]; rfl
      headerBytes := by rw [headerBytesOf, hf]; rfl
      bodyBytes := by rw [bodyBytesOf, hf]; rfl
      header := hheader
      route := hroute
      pattern := by rw [patternOf, hroute]; rfl
      block := by rw [trim, hf]; rfl
      message := fun m kind => by rw [Message.unpack, read, hf]; rfl }

/-! ## All questions at once -/

theorem fields_eq_error_of_not_begins {input : Bytes} (h : ¬∃ b rest, Begins input b rest) :
    ∃ why, fields input = .error why := by
  cases hf : fields input with
  | error why => exact ⟨why, rfl⟩
  | ok f =>
    obtain ⟨b, rest, hb, hinput, -⟩ := eq_bytes_append_of_fields hf
    exact absurd ⟨b, rest, begins_iff.mpr ⟨hb, hinput⟩⟩ h

/-- Octets that are trimmed have a wire form in front, and what is left is that form. -/
theorem trim_eq_ok_iff {input front : Bytes} :
    trim input = .ok front ↔ ∃ b rest, Begins input b rest ∧ input = front ++ rest := by
  constructor
  · intro h
    -- octets that are trimmed have fields, hence a form in front
    cases hf : fields input with
    | error why =>
      rw [(refused_of_fields hf).block] at h
      cases h
    | ok f =>
      obtain ⟨b, rest, hb, rfl, -⟩ := eq_bytes_append_of_fields hf
      rw [trim_bytes_append hb] at h
      injection h with h
      exact ⟨b, rest, begins_iff.mpr ⟨hb, rfl⟩, h ▸ rfl⟩
  · rintro ⟨b, rest, h, hfront⟩
    obtain ⟨hb, hinput⟩ := begins_iff.mp h
    rw [hinput, trim_bytes_append hb, List.append_cancel_right (hinput.symm.trans hfront)]

/-- **A block is accepted exactly where its wire form stands in front**, and that form is unique.
All questions are then answered for it, on the octets before the rest as on the whole; where no
form stands in front, all but the length are refused for one reason.  No index leaves the octets or
its 64 bits on the way, whatever lengths are declared. -/
theorem trim_eq_ok_iff_begins (input : Bytes) :
    (∀ front, trim input = .ok front ↔ ∃ b rest, Begins input b rest ∧ input = front ++ rest) ∧
      (∀ b rest, Begins input b rest →
        (∀ c s, Begins input c s → c = b ∧ s = rest) ∧ Answers input b ∧
          ∀ front, input = front ++ rest → SameAnswers input front) ∧
      ((¬∃ b rest, Begins input b rest) → ∃ why, Refused input (.malformed why)) ∧
      checkedLength input = some (length? input) ∧
      checkedFields input = some (fields input) ∧
      ∀ f, fields input = .ok f →
        f.checkedHeader input = some (f.headerIn input) ∧
          f.checkedBody input = some (f.bodyIn input) ∧
          f.checkedBlock input = some (f.blockIn input) := by
  refine ⟨fun front => trim_eq_ok_iff, fun b rest h => ?_, fun h => ?_,
    checkedLength_eq input, checkedFields_eq input, fun f hf => slices_eq hf⟩
  · obtain ⟨hb, rfl⟩ := begins_iff.mp h
    refine ⟨fun c s hc => ?_, answers_bytes_append hb rest, fun front hfront => ?_⟩
    · obtain ⟨hc, hinput⟩ := begins_iff.mp hc
      obtain ⟨hbc, hrest⟩ := bytes_append_inj hb hc hinput
      exact ⟨hbc.symm, hrest.symm⟩
    · rw [← List.append_cancel_right hfront]
      exact sameAnswers_bytes_append hb rest
  · obtain ⟨why, hwhy⟩ := fields_eq_error_of_not_begins h
    exact ⟨why, refused_of_fields hwhy⟩

end Block

end Switchboard
