import Switchboard.Wire.Message

/-!
# Wire/Packer — packing what users send

Users give a list of headers, which are merged with later ones winning, and may not set a reserved
key.  Only `packUrl` sets a route and only `packPipeline` announces followers, after the check.
-/

namespace Switchboard

/-- Packs and unpacks blocks with one encoding of bodies. -/
structure Packer where
  /-- The encoding of bodies. -/
  marshaller : Marshaller
deriving Repr, DecidableEq, Inhabited

namespace Packer

/-- The merged header of a user, if it sets no reserved key. -/
def userHeader (headers : List Header) : Except WireError Header :=
  let merged := Header.mergeAll headers
  (Header.check merged).map fun _ => merged

/-- A block with a body value. -/
def pack (p : Packer) (id : Int32) (body : Json) (headers : List Header) :
    Except WireError Bytes :=
  (userHeader headers).bind fun h => Message.pack p.marshaller ⟨id, h, some body⟩

/-- A block without a body. -/
def packEmpty (_ : Packer) (id : Int32) (headers : List Header) : Except WireError Bytes :=
  (userHeader headers).bind fun h => Block.pack id [] h

/-- A block whose body comes encoded. -/
def packRaw (_ : Packer) (id : Int32) (body : Bytes) (headers : List Header) :
    Except WireError Bytes :=
  (userHeader headers).bind fun h => Block.pack id body h

/-- A block that is routed by a URL pattern; its message id is `0`. -/
def packUrl (p : Packer) (pattern : String) (body : Json) (headers : List Header) :
    Except WireError Bytes :=
  (userHeader headers).bind fun h =>
    Message.pack p.marshaller ⟨0, h.withPattern pattern, some body⟩

/-- A block of a message whose header is the user's. -/
def packMessage (p : Packer) (m : Message) : Except WireError Bytes :=
  (Header.check m.header).bind fun _ => m.pack p.marshaller

/-- The blocks of further messages of a pipeline, one after the other. -/
def packRest (p : Packer) : List Message → Except WireError Bytes
  | [] => .ok []
  | m :: rest => do
    let block ← p.packMessage m
    let blocks ← packRest p rest
    return block ++ blocks

/-- **A pipeline**: the blocks of all messages, the first announcing how many follow it.  A single
message announces nothing. -/
def packPipeline (p : Packer) : List Message → Except WireError Bytes
  | [] => .error (.malformed .emptyPipeline)
  | head :: rest => do
    let _ ← Header.check head.header
    let header := if rest.isEmpty then head.header else head.header.withFollowers rest.length
    let block ← Message.pack p.marshaller { head with header := header }
    let blocks ← p.packRest rest
    return block ++ blocks

/-- The message that a block writes. -/
def unpack (p : Packer) (kind : BodyKind) (input : Bytes) : Except WireError Message :=
  Message.unpack p.marshaller kind input

end Packer

end Switchboard
