import Switchboard.Wire.Block

/-!
# Wire/Message — messages and the encoding of their bodies

A message is a block with its header and body decoded.  An absent body and the body `null` are
different: the first takes no octet.
-/

namespace Switchboard

namespace Marshaller

/-- The encoding a name stands for.  `tml` and `yml` are short names; Protocol Buffers are known but
have no encoding here. -/
def ofName (name : String) : Except WireError Marshaller :=
  match name with
  | "json" => .ok json
  | "toml" | "tml" => .ok toml
  | "xml" => .ok xml
  | "yaml" | "yml" => .ok yaml
  | "protobuf" | "proto" => .error (.externalMarshaller "protobuf")
  | other => .error (.unknownMarshaller other)

/-- The octets of a body value. -/
def encode (m : Marshaller) (v : Json) : Except WireError Bytes :=
  if m.isEnabled then .ok v.bytes else .error (.body m .disabled)

end Marshaller

/-- What a body must be to be decoded. -/
inductive BodyKind where
  /-- Any value. -/
  | value
  /-- A string. -/
  | text
deriving Repr, DecidableEq

namespace Marshaller

/-- Reads a body text of the kind asked for. -/
def parseBody (kind : BodyKind) (bs : Bytes) : Except Json.Error Json :=
  match kind with
  | .value => Json.parse bs
  | .text => (Json.parseString bs).map Json.string

/-- The body value that octets write. -/
def decode (m : Marshaller) (kind : BodyKind) (bs : Bytes) : Except WireError Json :=
  if m.isEnabled then
    match parseBody kind bs with
    | .ok v => .ok v
    | .error e => .error (.body m (.json e))
  else .error (.body m .disabled)

end Marshaller

/-- A request or a reply. -/
structure Message where
  /-- The message id. -/
  id : Int32
  /-- The header. -/
  header : Header
  /-- The body, if there is one. -/
  body : Option Json
deriving Inhabited

namespace Message

/-- A message with an empty header and a body. -/
def ofBody (id : Int32) (body : Json) : Message := ⟨id, .empty, some body⟩

/-- A message with neither header nor body. -/
def bare (id : Int32) : Message := ⟨id, .empty, none⟩

/-- The message with one more header field. -/
def withField (m : Message) (key : String) (v : Json) : Message :=
  { m with header := m.header.insert key v }

/-- The value of a header field. -/
def field? (m : Message) (key : String) : Option Json := m.header.get? key

/-- The route the header asks for. -/
def route (m : Message) : Route := Header.route m.header

/-- **The wire form of a message.**  The body is encoded before the lengths are checked; an absent
one is not encoded at all. -/
def pack (marshaller : Marshaller) (m : Message) : Except WireError Bytes :=
  match m.body with
  | none => Block.pack m.id [] m.header
  | some v => (marshaller.encode v).bind fun body => Block.pack m.id body m.header

/-- **The message that a block writes.**  Faults are looked for in the lengths, then in the header,
then in the body. -/
def unpack (marshaller : Marshaller) (kind : BodyKind) (input : Bytes) :
    Except WireError Message := do
  let b ← Block.read input
  let header ← Header.decode b.header
  if b.body = [] then return ⟨b.id, header, none⟩
  return ⟨b.id, header, some (← marshaller.decode kind b.body)⟩

end Message

end Switchboard
