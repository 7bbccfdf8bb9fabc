import Switchboard.Stream.Sink

/-!
# Stream/Splitter — cutting arriving octets into blocks

Octets arrive in pieces of any size and are kept in a buffer; `next` takes one whole block off its
front as soon as it is there, and `drain` takes all there are.  At the end of input `last` takes
what blocks are left and then reports an incomplete one, once.
-/

namespace Switchboard

/-- Octets that arrived and are in no block yet. -/
structure Splitter where
  /-- The limit on declared lengths. -/
  max : Nat
  /-- The octets, oldest first. -/
  buffer : Bytes
deriving Repr, DecidableEq

namespace Splitter

/-- A splitter to which nothing has arrived. -/
def ofMax (max : Nat) : Splitter := ⟨max, []⟩

/-- The splitter after more octets arrived. -/
def feed (s : Splitter) (bs : Bytes) : Splitter := { s with buffer := s.buffer ++ bs }

/-- **Takes one block off the front**, if a whole one has arrived.  The declared length is checked
as soon as it is there. -/
def next (s : Splitter) : Except WireError (Option Bytes) × Splitter :=
  match s.buffer with
  | a :: b :: c :: d :: rest =>
    let declared := word32 a b c d
    match Block.checkLength declared s.max with
    | .error e => (.error e, s)
    | .ok () =>
      if rest.length < declared then (.ok none, s)
      else
        let total := Block.lengthSize + declared
        (.ok (some (s.buffer.take total)), { s with buffer := s.buffer.drop total })
  | _ => (.ok none, s)

/-- A block taken off the front leaves less in the buffer. -/
theorem length_lt_of_next {s s' : Splitter} {block : Bytes}
    (h : s.next = (.ok (some block), s')) : s'.buffer.length < s.buffer.length := by
  unfold next at h
  split at h
  · rename_i a b c d rest hb
    have hpos : 0 < s.buffer.length := by simp [hb]
    generalize word32 a b c d = declared at h
    dsimp only at h
    split at h
    · cases h
    · split at h
      · cases h
      · injection h with _ h
        rw [← h]
        simp only [List.length_drop, Block.lengthSize]
        omega
  · cases h

/-- **Takes every whole block off the front**, up to the first fault. -/
def drain (s : Splitter) : List Bytes × Option WireError × Splitter :=
  match h : s.next with
  | (.ok (some block), s') =>
    have := length_lt_of_next h
    let r := drain s'
    (block :: r.1, r.2)
  | (.ok none, s') => ([], none, s')
  | (.error e, s') => ([], some e, s')
termination_by s.buffer.length

/-- How many octets the block in front of the buffer should have, as far as that is known. -/
def expected (buffer : Bytes) : Nat :=
  match buffer with
  | a :: b :: c :: d :: _ => Block.lengthSize + word32 a b c d
  | _ => Block.lengthSize

/-- **Takes one block at the end of input.**  What is left of an incomplete block is reported and
thrown away. -/
def last (s : Splitter) : Except WireError (Option Bytes) × Splitter :=
  match s.next with
  | (.ok none, s) =>
    if s.buffer = [] then (.ok none, s)
    else (.error (.truncated (expected s.buffer) s.buffer.length), { s with buffer := [] })
  | r => r

/-- Appends a block to what will be sent, within the same limit. -/
def append (s : Splitter) (block : Bytes) : Except WireError Unit × Splitter :=
  if s.max < Sink.lengthOf block then (.error (.tooLarge (Sink.lengthOf block) s.max), s)
  else (.ok (), s.feed block)

end Splitter

end Switchboard
