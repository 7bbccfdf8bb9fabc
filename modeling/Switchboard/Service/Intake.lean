import Switchboard.Stream.Splitter

/-!
# Service/Intake — which blocks of a stream are dispatched, and when

The octets of a peer are cut into blocks (`Splitter`).  A block whose header announces followers is
the head of a pipeline: it is held back, with the blocks after it, until the last follower is
there, and then all of them are dispatched in the order they arrived.  Every other block is
dispatched at once.  Whatever goes wrong ends the intake, and so does the end of input; of the
block or the pipeline it falls in nothing is dispatched.
-/

namespace Switchboard

/-- A pipeline that has not arrived as a whole. -/
structure Batch where
  /-- The blocks that are there, the head first. -/
  blocks : List Bytes
  /-- How many followers are missing. -/
  missing : Nat
deriving Repr, DecidableEq

/-- What arrived from a peer and was not dispatched. -/
structure Intake where
  /-- How many followers a head may announce. -/
  maxFollowers : Nat
  /-- The octets that are in no block yet. -/
  splitter : Splitter
  /-- The pipeline that is arriving, if one is. -/
  batch : Option Batch
deriving Repr, DecidableEq

namespace Intake

/-- An intake to which nothing has arrived. -/
def start (maxFrame maxFollowers : Nat) : Intake := ⟨maxFollowers, .ofMax maxFrame, none⟩

/-- How many followers a block announces; a header that cannot be read announces none. -/
def followersOf (block : Bytes) : Option Nat :=
  match Block.headerOf block with
  | .ok h => Header.followers? h
  | .error _ => none

/-- One more block of the pipeline that is arriving. -/
def join (i : Intake) (b : Batch) (block : Bytes) : List Bytes × Intake :=
  if b.missing ≤ 1 then (b.blocks ++ [block], { i with batch := none })
  else ([], { i with batch := some ⟨b.blocks ++ [block], b.missing - 1⟩ })

/-- A block outside any pipeline, or the head of one. -/
def lead (i : Intake) (block : Bytes) : Except WireError (List Bytes × Intake) :=
  match followersOf block with
  | none => .ok ([block], i)
  | some n =>
    if i.maxFollowers < n then .error (.pipelineTooLong n i.maxFollowers)
    else .ok ([], { i with batch := some ⟨[block], n⟩ })

/-- **Accepts one block** and returns what is to be dispatched now.  The segments of the block must
agree with its length. -/
def accept (i : Intake) (block : Bytes) : Except WireError (List Bytes × Intake) :=
  match Block.trim block with
  | .error e => .error e
  | .ok _ =>
    match i.batch with
    | some b => .ok (i.join b block)
    | none => i.lead block

/-- Accepts blocks one after another, up to the first fault. -/
def acceptAll (i : Intake) : List Bytes → List Bytes × Except WireError Intake
  | [] => ([], .ok i)
  | block :: rest =>
    match i.accept block with
    | .error e => ([], .error e)
    | .ok (now, i) =>
      let r := i.acceptAll rest
      (now ++ r.1, r.2)

/-- **Takes octets in** and returns what is to be dispatched now, with the intake after it or why
there is none. -/
def feed (i : Intake) (bs : Bytes) : List Bytes × Except WireError Intake :=
  let (blocks, fault, splitter) := (i.splitter.feed bs).drain
  let (now, next) := i.acceptAll blocks
  (now,
    match next, fault with
    | .error e, _ => .error e
    | .ok _, some e => .error e
    | .ok i, none => .ok { i with splitter := splitter })

/-- Why the intake ends at the end of input, if it does not end in order. -/
def fault? (i : Intake) : Option WireError :=
  match i.splitter.last.1 with
  | .error e => some e
  | .ok _ => none

end Intake

end Switchboard
