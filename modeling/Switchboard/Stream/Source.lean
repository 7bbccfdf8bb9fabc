import Switchboard.Wire.Block

/-!
# Stream/Source — reading blocks from a stream

A `Source` lists what successive reads of a stream will meet: octets, of which a read takes what it
has room for, the end of input, or a fault.  `fill` reads until it has as many octets as wanted,
through short reads and interruptions, and `readBlock` reads exactly one block and never an octet
past it.
-/

namespace Switchboard

/-- What one or more reads of a stream meet. -/
inductive Arrival where
  /-- Octets; a read takes at most what it has room for and leaves the rest. -/
  | octets (bs : Bytes)
  /-- One read finds the end of input. -/
  | ended
  /-- One read fails. -/
  | fault (f : IoFault)
deriving Repr, DecidableEq

/-- What the coming reads of a stream meet; at the end of the list input has ended. -/
abbrev Source := List Arrival

namespace Source

/-- The octets still to come. -/
def pending (s : Source) : Bytes :=
  s.flatMap fun
    | .octets bs => bs
    | _ => []

/-- What a series of reads came to. -/
structure Filled where
  /-- The octets read. -/
  got : Bytes
  /-- The fault that stopped the series, if one did. -/
  fault : Option IoFault
  /-- The stream after it. -/
  rest : Source
deriving Repr, DecidableEq

/-- **Reads until `want` octets are there**, the input ends or a read fails.  Interrupted reads are
repeated. -/
def fill : Nat → Source → Filled
  | 0, s => ⟨[], none, s⟩
  | _ + 1, [] => ⟨[], none, []⟩
  | want + 1, .octets bs :: rest =>
    if want + 1 ≤ bs.length then
      ⟨bs.take (want + 1), none, .octets (bs.drop (want + 1)) :: rest⟩
    else
      let r := fill (want + 1 - bs.length) rest
      ⟨bs ++ r.got, r.fault, r.rest⟩
  | _ + 1, .ended :: rest => ⟨[], none, rest⟩
  | want + 1, .fault f :: rest =>
    if f = .interrupted then fill (want + 1) rest else ⟨[], some f, rest⟩

/-- **Reads one block.**  The end of input in front of it is no block.  The declared length is
checked before anything after it is read. -/
def readBlock (max : Nat) (s : Source) : Except WireError (Option Bytes) × Source :=
  let start := fill Block.lengthSize s
  match start.fault with
  | some f => (.error (.io f), start.rest)
  | none =>
    match start.got with
    | [] => (.ok none, start.rest)
    | [a, b, c, d] =>
      let declared := word32 a b c d
      match Block.checkLength declared max with
      | .error e => (.error e, start.rest)
      | .ok () =>
        let body := fill declared start.rest
        match body.fault with
        | some f => (.error (.io f), body.rest)
        | none =>
          let block := start.got ++ body.got
          if body.got.length < declared then
            (.error (.truncated (Block.lengthSize + declared) block.length), body.rest)
          else (.ok (some block), body.rest)
    | short => (.error (.truncated Block.lengthSize short.length), start.rest)

end Source

end Switchboard
