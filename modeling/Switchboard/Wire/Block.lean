import Switchboard.Wire.Header

/-!
# Wire/Block — the wire form of a block

A block is a message id, a header and a body.  On the wire (`Block.bytes`) it is four big-endian
words and two segments: the number of octets after the first word, the message id, the two segment
lengths, the header, the body.  `Block.fields` reads the words in front of an octet sequence and
checks them against each other and against the octets there are; every other way to look at packed
octets goes through it, and ignores what follows the block.
-/

namespace Switchboard

/-- A block with its header and body still encoded. -/
structure Block where
  /-- The message id. -/
  id : Int32
  /-- The encoded header. -/
  header : Bytes
  /-- The encoded body. -/
  body : Bytes
deriving Repr, DecidableEq

namespace Block

/-! ## Sizes -/

/-- The octets of the length in front. -/
def lengthSize : Nat := 4

/-- The octets of the message id and the two segment lengths. -/
def fixedSize : Nat := 12

/-- The largest length one word can declare. -/
def maxDeclared : Nat := 0xFFFF_FFFF

/-- The limit on declared lengths unless another one is configured: 16 MiB. -/
def defaultMax : Nat := 16777216

/-- The length a block declares: all its octets but the length itself. -/
def declared (b : Block) : Nat := fixedSize + b.header.length + b.body.length

/-- Does the length fit its word?  Then the lengths of the segments fit theirs. -/
def Fits (b : Block) : Prop := b.declared ≤ maxDeclared

instance (b : Block) : Decidable b.Fits := inferInstanceAs (Decidable (_ ≤ _))

/-! ## Writing -/

/-- The word of a message id. -/
def idWord (id : Int32) : Nat := id.toUInt32.toNat

/-- **The wire form of a block.** -/
def bytes (b : Block) : Bytes :=
  be32 b.declared ++ be32 (idWord b.id) ++ be32 b.header.length ++ be32 b.body.length ++
    b.header ++ b.body

/-- The wire form of a block whose body comes encoded, unless a length would not fit its word. -/
def pack (id : Int32) (body : Bytes) (header : Header) : Except WireError Bytes :=
  let b : Block := ⟨id, header.bytes, body⟩
  if maxDeclared < b.declared then .error (.tooLarge b.declared maxDeclared) else .ok b.bytes

/-! ## Reading -/

/-- The declared length in front of an octet sequence. -/
def length? : Bytes → Except Malformed Nat
  | a :: b :: c :: d :: _ => .ok (word32 a b c d)
  | short => .error (.noLength short.length)

/-- The words in front of a block. -/
structure Fields where
  /-- The declared length. -/
  declared : Nat
  /-- The message id. -/
  id : Int32
  /-- The length of the header. -/
  headerLength : Nat
  /-- The length of the body. -/
  bodyLength : Nat
deriving Repr, DecidableEq

/-- **The words in front of an octet sequence.**  As many octets as they declare must follow, and
the two segments must fill them. -/
def fields (input : Bytes) : Except Malformed Fields :=
  match input with
  | a₁ :: a₂ :: a₃ :: a₄ :: b₁ :: b₂ :: b₃ :: b₄ :: c₁ :: c₂ :: c₃ :: c₄ :: d₁ :: d₂ :: d₃ :: d₄ ::
      segments =>
    let declared := word32 a₁ a₂ a₃ a₄
    let headerLength := word32 c₁ c₂ c₃ c₄
    let bodyLength := word32 d₁ d₂ d₃ d₄
    let available := fixedSize + segments.length
    if available < declared then .error (.cut declared available)
    else if fixedSize + headerLength + bodyLength ≠ declared then
      .error (.disagree headerLength bodyLength declared)
    else
      .ok ⟨declared, (UInt32.ofNat (word32 b₁ b₂ b₃ b₄)).toInt32, headerLength, bodyLength⟩
  | short => .error (.noFields short.length)

namespace Fields

/-- Where the header ends. -/
def headerEnd (f : Fields) : Nat := lengthSize + fixedSize + f.headerLength

/-- The octets of the header. -/
def headerIn (f : Fields) (input : Bytes) : Bytes :=
  (input.drop (lengthSize + fixedSize)).take f.headerLength

/-- The octets of the body. -/
def bodyIn (f : Fields) (input : Bytes) : Bytes := (input.drop f.headerEnd).take f.bodyLength

/-- The octets of the whole block. -/
def blockIn (f : Fields) (input : Bytes) : Bytes := input.take (lengthSize + f.declared)

end Fields

/-- The words of the block in front of an octet sequence. -/
def fieldsOf (input : Bytes) : Except WireError Fields := (fields input).mapError .malformed

/-- **The block in front of an octet sequence.** -/
def read (input : Bytes) : Except WireError Block :=
  (fieldsOf input).map fun f => ⟨f.id, f.headerIn input, f.bodyIn input⟩

/-- The octets of the block in front of an octet sequence. -/
def trim (input : Bytes) : Except WireError Bytes := (fieldsOf input).map fun f => f.blockIn input

/-! ## Parts of the block in front -/

/-- The message id. -/
def idOf (input : Bytes) : Except WireError Int32 := (fieldsOf input).map Fields.id

/-- The length of the header. -/
def headerLengthOf (input : Bytes) : Except WireError Nat :=
  (fieldsOf input).map Fields.headerLength

/-- The length of the body. -/
def bodyLengthOf (input : Bytes) : Except WireError Nat := (fieldsOf input).map Fields.bodyLength

/-- The encoded header. -/
def headerBytesOf (input : Bytes) : Except WireError Bytes :=
  (fieldsOf input).map fun f => f.headerIn input

/-- The encoded body. -/
def bodyBytesOf (input : Bytes) : Except WireError Bytes :=
  (fieldsOf input).map fun f => f.bodyIn input

/-- The header. -/
def headerOf (input : Bytes) : Except WireError Header := (headerBytesOf input).bind Header.decode

/-- The route. -/
def routeOf (input : Bytes) : Except WireError Route :=
  (headerOf input).map Header.route

/-- The URL pattern, if the block is routed by one. -/
def patternOf (input : Bytes) : Except WireError (Option String) :=
  (routeOf input).map fun
    | .urlPattern pattern => some pattern
    | .messageId => none

/-! ## Limits -/

/-- Refuses a declared length above the limit, and one too small for the fixed fields. -/
def checkLength (declared max : Nat) : Except WireError Unit :=
  if max < declared then .error (.tooLarge declared max)
  else if declared < fixedSize then .error (.malformed (.tooSmall declared))
  else .ok ()

end Block

end Switchboard
