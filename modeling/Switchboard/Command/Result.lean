import Switchboard.Command.Arguments
import Switchboard.Command.Entry
import Switchboard.Text.Table
import Switchboard.Wire.Packer

/-!
# Command/Result — packing what was typed and printing what came back

A body is sent exactly as it was typed; one given as JSON must be JSON.  A reply is printed as a
JSON object, as a table, as one line or as the bare octets of its body.
-/

namespace Switchboard

/-- The octets a body is sent as. -/
def Content.body (c : Content) : Except Failure Bytes :=
  match c.json, c.data with
  | some text, _ =>
    match Json.parse (Bytes.ofText text) with
    | .ok _ => .ok (Bytes.ofText text)
    | .error e => .error (.ofUsage ("--json is not valid JSON: " ++ e.message))
  | none, some text => .ok (Bytes.ofText text)
  | none, none => .ok []

/-- **The block of what was typed.**  The body is looked at first, then the entries, then the
reserved keys. -/
def Content.pack (c : Content) : Except Failure Bytes := do
  let body ← c.body
  let header ← Entries.header c.entries
  match Header.check header with
  | .error e => .error (.ofWire "invalid header" e)
  | .ok () =>
    let header := match c.url with
      | some pattern => Header.withPattern header pattern
      | none => header
    match Block.pack c.id body header with
    | .ok block => .ok block
    | .error e => .error (.ofWire "pack failed" e)

/-- A line of text, as octets. -/
def line (s : String) : Bytes := Bytes.ofText (s ++ "\n")

/-- A natural number as JSON. -/
def natJson (n : Nat) : Json := .number (.natural (UInt64.ofNat n))

/-- A message id as JSON. -/
def idJson (id : Int32) : Json :=
  .number (Json.Reader.whole (decide (id.toInt < 0)) id.toInt.natAbs)

/-- Prints a packed block. -/
def printPacked (c : Content) (block : Bytes) : Format → Bytes
  | .raw => block
  | .table | .pretty => line block.hex
  | .json =>
    line (Json.object [("block", .string block.hex), ("length", natJson block.length),
      ("message_id", idJson c.id)]).compact

/-- A reply, ready to print. -/
structure ReplyView where
  /-- The message id. -/
  id : Int32
  /-- The header. -/
  header : Header
  /-- The body as it came. -/
  body : Bytes

namespace ReplyView

/-- The reply that octets write. -/
def ofBlock (input : Bytes) : Except Failure ReplyView :=
  match Block.read input, Block.headerOf input with
  | .ok b, .ok h => .ok ⟨b.id, h, b.body⟩
  | .error e, _ | _, .error e => .error (.ofWire "malformed reply" e)

/-- The body as a text; one that is no text is told by its size. -/
def preview (v : ReplyView) : String :=
  (Bytes.text? v.body).getD ("<binary " ++ toString v.body.length ++ " bytes>")

/-- The body as a JSON value: what it writes, or else its text. -/
def bodyJson (v : ReplyView) : Json :=
  match Json.parse v.body with
  | .ok j => j
  | .error _ => .string v.preview

/-- **Prints a reply.** -/
def print (v : ReplyView) (peer : String) : Format → Bytes
  | .json =>
    line (Json.object [("body", v.bodyJson), ("body_size", natJson v.body.length),
      ("header", .object v.header.entries), ("message_id", idJson v.id),
      ("peer", .string peer)]).compact
  | .table =>
    line (Text.table ["ID", "HEADER", "SIZE", "PEER", "BODY"]
      [[toString v.id.toInt, Header.compact v.header, toString v.body.length, peer, v.preview]])
  | .pretty =>
    line ("id=" ++ toString v.id.toInt ++ " header=" ++ Header.compact v.header ++ " size=" ++
      toString v.body.length ++ " peer=" ++ peer ++ " body=" ++ v.preview)
  | .raw => v.body

end ReplyView

end Switchboard
