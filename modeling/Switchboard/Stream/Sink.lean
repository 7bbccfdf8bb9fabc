import Switchboard.Wire.Packer

/-!
# Stream/Sink — writing blocks to a stream

A `Sink` lists how the coming writes and flushes of a stream end, and keeps what was written.  A
write takes some of the octets offered, or fails; `put` goes on until all octets are written,
repeating interrupted writes, and `writeBlock` adds the limit on lengths and the flush.
-/

namespace Switchboard

/-- How one write ends. -/
inductive Acceptance where
  /-- At most so many octets are taken. -/
  | upTo (n : Nat)
  /-- The write fails. -/
  | fault (f : IoFault)
deriving Repr, DecidableEq

/-- A stream that is written to. -/
structure Sink where
  /-- How the coming writes end; later ones take everything. -/
  writes : List Acceptance
  /-- How the coming flushes end; later ones succeed. -/
  flushes : List (Option IoFault)
  /-- Everything written so far. -/
  written : Bytes
deriving Repr, DecidableEq, Inhabited

namespace Sink

/-- What a series of writes came to. -/
structure Progress where
  /-- The octets taken. -/
  taken : Bytes
  /-- The fault that stopped the series, if one did. -/
  fault : Option IoFault
  /-- How the writes after it end. -/
  rest : List Acceptance
deriving Repr, DecidableEq

/-- Writes octets until all are taken or a write fails; one that takes nothing is a failure. -/
def put (bs : Bytes) : List Acceptance → Progress
  | [] => ⟨bs, none, []⟩
  | w :: rest =>
    if bs = [] then ⟨[], none, w :: rest⟩
    else match w with
      | .upTo 0 => ⟨[], some .writeZero, rest⟩
      | .upTo (n + 1) =>
        let r := put (bs.drop (n + 1)) rest
        ⟨bs.take (n + 1) ++ r.taken, r.fault, r.rest⟩
      | .fault f => if f = .interrupted then put bs rest else ⟨[], some f, rest⟩

/-- Flushes, repeating interrupted flushes. -/
def settle : List (Option IoFault) → Option IoFault × List (Option IoFault)
  | [] => (none, [])
  | none :: rest => (none, rest)
  | some f :: rest => if f = .interrupted then settle rest else (some f, rest)

/-- Flushes the stream. -/
def flush (s : Sink) : Except WireError Unit × Sink :=
  let (fault, rest) := settle s.flushes
  let s := { s with flushes := rest }
  match fault with
  | some f => (.error (.io f), s)
  | none => (.ok (), s)

/-- The length that a block's octets declare, however few they are. -/
def lengthOf (block : Bytes) : Nat := block.length - Block.lengthSize

/-- **Writes one block and flushes.**  A block above the limit is refused before anything is
written. -/
def writeBlock (max : Nat) (block : Bytes) (s : Sink) : Except WireError Unit × Sink :=
  if max < lengthOf block then (.error (.tooLarge (lengthOf block) max), s)
  else
    let r := put block s.writes
    let s := { s with writes := r.rest, written := s.written ++ r.taken }
    match r.fault with
    | some f => (.error (.io f), s)
    | none => s.flush

/-- Packs a body and writes the block. -/
def send (p : Packer) (max : Nat) (id : Int32) (body : Json) (headers : List Header) (s : Sink) :
    Except WireError Unit × Sink :=
  match p.pack id body headers with
  | .error e => (.error e, s)
  | .ok block => s.writeBlock max block

end Sink

end Switchboard
