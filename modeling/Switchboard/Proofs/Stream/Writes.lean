import Switchboard.Proofs.Stream.Reads
import Switchboard.Proofs.Stream.Segments
import Switchboard.Proofs.Wire.RoundTrip

/-!
# Proofs/Stream/Writes — what is written is what is read

Writing a block comes to one of four things (`Sink.Wrote`): the block is above the limit and the
stream is left as it is, all its octets are put on the stream and flushed, a fault stops it after
some of them, or the flush fails.  However the stream takes octets, short or interrupted, decides
only among the last three.

Writer, reader and splitter each count a block's octets for themselves.  For a packed block they
come to the same number, so one limit refuses it everywhere or nowhere (`Sink.Agrees`), and blocks
that were all written are read back one by one (`readTimes_writeTimes`).
-/

namespace Switchboard

namespace Sink

/-! ## Writing octets -/

/-- **A series of writes puts a beginning of the octets there**, and all of them just if no fault
stops it. -/
theorem exists_left_put (bs : Bytes) (script : List Acceptance) :
    ∃ left, bs = (put bs script).taken ++ left ∧ ((put bs script).fault = none ↔ left = []) := by
  fun_induction put bs script with
  | case1 bs => exact ⟨[], (List.append_nil _).symm, iff_of_true rfl rfl⟩
  | case2 => exact ⟨[], rfl, iff_of_true rfl rfl⟩
  | case3 bs rest hne => exact ⟨bs, rfl, iff_of_false nofun hne⟩
  | case4 bs rest hne n r ih =>
    obtain ⟨left, hleft, hdone⟩ := ih
    refine ⟨left, ?_, hdone⟩
    rw [List.append_assoc, ← hleft, List.take_append_drop]
  | case5 bs rest hne ih => exact ih
  | case6 bs rest hne f hf => exact ⟨bs, rfl, iff_of_false nofun hne⟩

/-- **What flushing comes to**, of the coming flushes: those in front were interrupted, and the
first other one decides. -/
inductive Settles (script : List (Option IoFault)) :
    Option IoFault × List (Option IoFault) → Prop where
  /-- All that were to come were interrupted; later ones succeed. -/
  | later (k : Nat) (hscript : script = List.replicate k (some .interrupted)) :
      Settles script (none, [])
  /-- One was not interrupted. -/
  | ends (k : Nat) {last : Option IoFault} {rest : List (Option IoFault)}
      (hlast : last ≠ some .interrupted)
      (hscript : script = List.replicate k (some .interrupted) ++ last :: rest) :
      Settles script (last, rest)

theorem Settles.again {script : List (Option IoFault)} {r : Option IoFault × List (Option IoFault)}
    (h : Settles script r) : Settles (some .interrupted :: script) r := by
  cases h with
  | later k hscript => exact .later (k + 1) (congrArg _ hscript)
  | ends k hlast hscript => exact .ends (k + 1) hlast (congrArg _ hscript)

theorem settles_settle (script : List (Option IoFault)) : Settles script (settle script) := by
  fun_induction settle script with
  | case1 => exact .later 0 rfl
  | case2 rest => exact .ends 0 nofun rfl
  | case3 rest ih => exact ih.again
  | case4 f rest hf => exact .ends 0 (fun heq => hf (Option.some.inj heq)) rfl

/-- Flushing writes nothing, and its answer is how the flushes settle. -/
theorem flush_cases (s : Sink) :
    s.flush.2.written = s.written ∧
      (s.flush.1 = .ok () ∧ Settles s.flushes (none, s.flush.2.flushes) ∨
        ∃ f, s.flush.1 = .error (.io f) ∧ Settles s.flushes (some f, s.flush.2.flushes)) := by
  have hsettles := settles_settle s.flushes
  unfold flush
  generalize settle s.flushes = r at hsettles
  obtain ⟨fault, rest⟩ := r
  cases fault with
  | none => exact ⟨rfl, .inl ⟨rfl, hsettles⟩⟩
  | some f => exact ⟨rfl, .inr ⟨f, rfl, hsettles⟩⟩

/-! ## Writing a block -/

/-- **What writing a block comes to.** -/
inductive Wrote (max : Nat) (block : Bytes) (s : Sink) : Except WireError Unit × Sink → Prop where
  /-- The block is above the limit; nothing is tried. -/
  | refused (habove : max < lengthOf block) :
      Wrote max block s (.error (.tooLarge (lengthOf block) max), s)
  /-- The whole block was put there, and flushed. -/
  | whole {s' : Sink} (hfits : lengthOf block ≤ max) (hwritten : s'.written = s.written ++ block)
      (hflush : Settles s.flushes (none, s'.flushes)) : Wrote max block s (.ok (), s')
  /-- A fault stopped the writes; nothing is flushed. -/
  | part {s' : Sink} {f : IoFault} {begun left : Bytes} (hfits : lengthOf block ≤ max)
      (hleft : left ≠ []) (hblock : block = begun ++ left)
      (hwritten : s'.written = s.written ++ begun) (hflush : s'.flushes = s.flushes) :
      Wrote max block s (.error (.io f), s')
  /-- The whole block was put there, and the flush failed. -/
  | unflushed {s' : Sink} {f : IoFault} (hfits : lengthOf block ≤ max)
      (hwritten : s'.written = s.written ++ block)
      (hflush : Settles s.flushes (some f, s'.flushes)) : Wrote max block s (.error (.io f), s')

theorem wrote_writeBlock (max : Nat) (block : Bytes) (s : Sink) :
    Wrote max block s (s.writeBlock max block) := by
  unfold writeBlock
  split
  · exact .refused ‹_›
  rename_i hfits
  have hfits := Nat.not_lt.mp hfits
  obtain ⟨left, hblock, hdone⟩ := exists_left_put block s.writes
  dsimp only
  split
  · rename_i hfault
    refine .part hfits (fun hnil => ?_) hblock rfl rfl
    exact nomatch hfault.symm.trans (hdone.mpr hnil)
  · rename_i hnone
    rw [hdone.mp hnone, List.append_nil] at hblock
    generalize hs : ({ s with
      writes := (put block s.writes).rest
      written := s.written ++ (put block s.writes).taken } : Sink) = t
    have ht : t.written = s.written ++ block := by rw [← hs, ← hblock]
    have hflushes : t.flushes = s.flushes := by rw [← hs]
    obtain ⟨hwritten, hflush⟩ := t.flush_cases
    rw [hflushes] at hflush
    generalize t.flush = r at hwritten hflush
    obtain ⟨answer, s'⟩ := r
    rcases hflush with ⟨rfl, hsettles⟩ | ⟨f, rfl, hsettles⟩
    · exact .whole hfits (hwritten.trans ht) hsettles
    · exact .unflushed hfits (hwritten.trans ht) hsettles

/-- A block is refused for its length, and for nothing else. -/
theorem writeBlock_eq_tooLarge_iff {max n limit : Nat} {block : Bytes} {s : Sink} :
    (s.writeBlock max block).1 = .error (.tooLarge n limit) ↔
      max < lengthOf block ∧ n = lengthOf block ∧ limit = max := by
  have h := s.wrote_writeBlock max block
  generalize s.writeBlock max block = r at h
  cases h with
  | refused habove => simp [habove, eq_comm]
  | whole hfits | part hfits | unflushed hfits => simp [Nat.not_lt.mpr hfits]

/-! ## Packed blocks -/

/-- The octets come from packing a header and an encoded body. -/
def Packed (block : Bytes) : Prop :=
  ∃ id body header, Block.pack id body header = .ok block

section

variable {max : Nat} {block : Bytes}

/-- **A packed block declares just the length it has.** -/
theorem Packed.length?_eq (h : Packed block) :
    Block.length? block = .ok (lengthOf block) ∧ Block.fixedSize ≤ lengthOf block ∧
      block.length = Block.lengthSize + lengthOf block := by
  obtain ⟨id, body, header, hpack⟩ := h
  obtain ⟨hfits, rfl⟩ := Block.eq_bytes_of_pack hpack
  obtain ⟨n, hn, hlow, -, hsize⟩ := isFrame_bytes hfits (Nat.le_refl _)
  have hlength : lengthOf (Block.bytes ⟨id, header.bytes, body⟩) = n := by
    rw [lengthOf, hsize, Nat.add_sub_cancel_left]
  exact ⟨hlength ▸ hn, hlength ▸ hlow, hlength ▸ hsize⟩

theorem Packed.isFrame (h : Packed block) (hfits : lengthOf block ≤ max) : IsFrame max block := by
  obtain ⟨hn, hlow, hsize⟩ := h.length?_eq
  exact ⟨_, hn, hlow, hfits, hsize⟩

/-- A packed block above the limit is refused by its length, wherever it is read. -/
theorem Packed.refusal? (h : Packed block) (habove : max < lengthOf block) (w : Bytes) :
    refusal? max (block ++ w) = some (.tooLarge (lengthOf block) max) :=
  refusal?_eq_some_iff.mpr ⟨_, Block.length?_append h.length?_eq.1 w, if_pos habove⟩

end

/-! ## One limit -/

/-- **Writer, appender, reader and splitter agree about a block**: those that have the same limit
refuse it with the same words, or none of them does. -/
structure Agrees (max : Nat) (block : Bytes) (answer : Except WireError Unit) : Prop where
  /-- So does who appends it to what will be sent, -/
  append : ∀ buffer n limit, answer = .error (.tooLarge n limit) ↔
    ((⟨max, buffer⟩ : Splitter).append block).1 = .error (.tooLarge n limit)
  /-- who reads it, whatever comes after it and however it arrives, -/
  read : ∀ (src : Source) w rest, src.Delivers (block ++ w) rest → ∀ e,
    (src.readBlock max).1 = .error e ↔ answer = .error e ∧ ∃ n limit, e = .tooLarge n limit
  /-- and who splits it off. -/
  next : ∀ w e, (⟨max, block ++ w⟩ : Splitter).next.1 = .error e ↔
    answer = .error e ∧ ∃ n limit, e = .tooLarge n limit

variable {max : Nat} {block : Bytes} {s : Sink}

theorem append_eq_tooLarge_iff {n limit : Nat} (buffer : Bytes) :
    ((⟨max, buffer⟩ : Splitter).append block).1 = .error (.tooLarge n limit) ↔
      max < lengthOf block ∧ n = lengthOf block ∧ limit = max := by
  unfold Splitter.append
  split
  · rename_i habove
    simp [habove, eq_comm]
  · rename_i hfits
    simp [hfits]

/-- What is answered for a block that has arrived as a whole. -/
def receipt (max : Nat) (block : Bytes) : Except WireError (Option Bytes) :=
  if max < lengthOf block then .error (.tooLarge (lengthOf block) max) else .ok (some block)

theorem Packed.readBlock (h : Packed block) {src rest : Source} {w : Bytes}
    (hsrc : src.Delivers (block ++ w) rest) : (src.readBlock max).1 = receipt max block := by
  unfold receipt
  split
  · rename_i habove
    obtain ⟨n, hn, hc⟩ := refusal?_eq_some_iff.mp (h.refusal? habove w)
    obtain ⟨_, hread, -⟩ := Source.readBlock_bad hsrc hn hc
    rw [hread]
  · rename_i hfits
    obtain ⟨_, hread, -⟩ := Source.readBlock_frame (h.isFrame (Nat.not_lt.mp hfits)) hsrc
    rw [hread]

theorem Packed.next (h : Packed block) (w : Bytes) :
    (⟨max, block ++ w⟩ : Splitter).next.1 = receipt max block := by
  unfold receipt
  split
  · rename_i habove
    rw [Splitter.next_bad (s := ⟨max, block ++ w⟩) (h.refusal? habove w)]
  · rename_i hfits
    rw [Splitter.next_frame (s := ⟨max, block ++ w⟩) (h.isFrame (Nat.not_lt.mp hfits)) rfl]

/-- The receiver refuses what the writer refuses. -/
theorem receipt_eq_error_iff {e : WireError} :
    receipt max block = .error e ↔
      (s.writeBlock max block).1 = .error e ∧ ∃ n limit, e = .tooLarge n limit := by
  have h := s.wrote_writeBlock max block
  generalize s.writeBlock max block = r at h
  unfold receipt
  cases h with
  | refused habove =>
    rw [if_pos habove]
    constructor
    · intro he
      obtain rfl := Except.error.inj he
      exact ⟨rfl, _, _, rfl⟩
    · rintro ⟨he, -⟩
      rw [Except.error.inj he]
  | whole hfits =>
    rw [if_neg (Nat.not_lt.mpr hfits)]
    exact ⟨nofun, nofun⟩
  | part hfits | unflushed hfits =>
    rw [if_neg (Nat.not_lt.mpr hfits)]
    exact ⟨nofun, by rintro ⟨he, n, limit, rfl⟩; cases he⟩

theorem Packed.agrees (h : Packed block) (s : Sink) :
    Agrees max block (s.writeBlock max block).1 where
  append buffer _ _ := writeBlock_eq_tooLarge_iff.trans (append_eq_tooLarge_iff buffer).symm
  read src w rest hsrc e := by rw [h.readBlock hsrc, receipt_eq_error_iff]
  next w e := by rw [h.next w, receipt_eq_error_iff]

/-! ## From writer to reader -/

/-- **What writing a block does to the stream.** -/
structure Leaves (block : Bytes) (s : Sink) (r : Except WireError Unit × Sink) : Prop where
  /-- A success put the octets of the block there, once and in order, -/
  whole : r.1 = .ok () → r.2.written = s.written ++ block
  /-- and a flush that was not interrupted succeeded after that. -/
  flushed : r.1 = .ok () → Settles s.flushes (none, r.2.flushes)
  /-- A failure put a beginning of them there. -/
  part : ∀ e, r.1 = .error e → ∃ begun, begun <+: block ∧ r.2.written = s.written ++ begun
  /-- If it put all of them there, it is the fault of the first flush that was not interrupted. -/
  unflushed : ∀ e, r.1 = .error e → r.2.written = s.written ++ block →
    ∃ f, e = .io f ∧ Settles s.flushes (some f, r.2.flushes)
  /-- A block that is too large leaves the stream as it is. -/
  untouched : ∀ n limit, r.1 = .error (.tooLarge n limit) → r.2 = s

theorem leaves_writeBlock (max : Nat) (block : Bytes) (s : Sink) :
    Leaves block s (s.writeBlock max block) := by
  have h := s.wrote_writeBlock max block
  generalize s.writeBlock max block = r at h
  cases h with
  | refused habove =>
    refine ⟨nofun, nofun, fun _ _ => ⟨[], List.nil_prefix, (List.append_nil _).symm⟩,
      fun _ _ hall => ?_, fun _ _ _ => rfl⟩
    -- A block of no octets is not above any limit.
    rw [List.self_eq_append_right.mp hall] at habove
    exact absurd habove (Nat.not_lt_zero max)
  | whole hfits hwritten hflush => exact ⟨fun _ => hwritten, fun _ => hflush, nofun, nofun, nofun⟩
  | part hfits hleft hblock hwritten =>
    refine ⟨nofun, nofun, fun _ _ => ⟨_, ⟨_, hblock.symm⟩, hwritten⟩, fun _ _ hall => ?_, nofun⟩
    have hsame := List.append_cancel_left (hwritten.symm.trans hall)
    exact absurd (List.self_eq_append_right.mp (hsame.trans hblock)) hleft
  | unflushed hfits hwritten hflush =>
    refine ⟨nofun, nofun, fun _ _ => ⟨block, List.prefix_rfl, hwritten⟩, fun _ he _ => ?_, nofun⟩
    exact ⟨_, (Except.error.inj he).symm, hflush⟩

/-- Writes blocks one after another, whatever comes of each. -/
def writeTimes (max : Nat) : List Bytes → Sink → List (Except WireError Unit) × Sink
  | [], s => ([], s)
  | block :: more, s =>
    let r := s.writeBlock max block
    let later := writeTimes max more r.2
    (r.1 :: later.1, later.2)

/-- **Blocks that were all written** fit the limit, and their octets are on the stream. -/
theorem written_writeTimes {blocks : List Bytes}
    (h : ∀ answer ∈ (writeTimes max blocks s).1, answer = .ok ()) :
    (∀ block ∈ blocks, lengthOf block ≤ max) ∧
      (writeTimes max blocks s).2.written = s.written ++ blocks.flatten := by
  induction blocks generalizing s with
  | nil => exact ⟨nofun, (List.append_nil _).symm⟩
  | cons block more ih =>
    obtain ⟨hfirst, hlater⟩ := List.forall_mem_cons.mp h
    obtain ⟨hfit, hwritten⟩ := ih hlater
    have hwrote := s.wrote_writeBlock max block
    rw [writeTimes]
    dsimp only at hfirst hwritten ⊢
    generalize s.writeBlock max block = r at hwrote hfirst hwritten
    cases hwrote with
    | refused => cases hfirst
    | whole hfits hblock _ =>
      rw [hwritten, hblock, List.flatten_cons, List.append_assoc]
      exact ⟨List.forall_mem_cons.mpr ⟨hfits, hfit⟩, rfl⟩
    | part | unflushed => cases hfirst

end Sink

/-- Frames and nothing after them are read one by one, and then the end is found. -/
theorem Source.readTimes_ends {max : Nat} {frames : List Bytes} {src rest after : Source}
    (hframes : ∀ f ∈ frames, IsFrame max f) (h : src.Delivers frames.flatten rest)
    (hends : Ends rest after) :
    src.readTimes max (frames.length + 1) =
      (frames.map (fun f => .ok (some f)) ++ [.ok none], after) := by
  induction frames generalizing src with
  | nil =>
    have hend : src.readBlock max = (.ok none, after) :=
      readBlock_incomplete h (.inl (by decide)) fun k hk => fill_of_ends hends hk
    rw [List.length_nil, readTimes, hend]
    rfl
  | cons f more ih =>
    obtain ⟨hf, hmore⟩ := List.forall_mem_cons.mp hframes
    obtain ⟨t, hread, ht⟩ := readBlock_frame hf h
    rw [List.length_cons, readTimes, hread]
    dsimp only
    rw [ih hmore ht, List.map_cons, List.cons_append]

open Sink in
/-- **What is written is what is read.**  Of packed blocks, each call puts on the stream just what
its answer says, and refuses just the blocks that an appender, a reader or a splitter with the same
limit refuses.  If all blocks were written, a reader returns them one by one and then finds the end,
however the octets reach it. -/
theorem readTimes_writeTimes (max : Nat) (blocks : List Bytes)
    (hpacked : ∀ block ∈ blocks, Packed block) (writes : List Acceptance)
    (flushes : List (Option IoFault)) :
    (∀ block ∈ blocks, ∀ s : Sink, Leaves block s (s.writeBlock max block) ∧
      Agrees max block (s.writeBlock max block).1) ∧
    ((∀ answer ∈ (writeTimes max blocks ⟨writes, flushes, []⟩).1, answer = .ok ()) →
      ∀ (src rest after : Source),
        src.Delivers (writeTimes max blocks ⟨writes, flushes, []⟩).2.written rest →
        Source.Ends rest after →
          src.readTimes max (blocks.length + 1) =
            (blocks.map (fun block => .ok (some block)) ++ [.ok none], after)) := by
  refine ⟨fun block hblock s => ⟨leaves_writeBlock max block s, (hpacked block hblock).agrees s⟩,
    fun hwritten src rest after hsrc hends => ?_⟩
  obtain ⟨hfit, hall⟩ := written_writeTimes hwritten
  rw [hall, List.nil_append] at hsrc
  exact Source.readTimes_ends
    (fun block hblock => (hpacked block hblock).isFrame (hfit block hblock)) hsrc hends

/-- Two blocks over a stream that takes few octets at a time and is interrupted while it is written,
flushed and read. -/
theorem readTimes_writeTimes_torn :
    let first : Bytes := [0, 0, 0, 12, 0, 0, 0, 1, 0, 0, 0, 0, 0, 0, 0, 0]
    let second : Bytes := [0, 0, 0, 13, 0, 0, 0, 2, 0, 0, 0, 0, 0, 0, 0, 1, 48]
    let s : Sink := ⟨[.upTo 3, .fault .interrupted, .upTo 20, .upTo 16], [some .interrupted], []⟩
    let src : Source := [.octets [0, 0], .fault .interrupted,
      .octets [0, 12, 0, 0, 0, 1, 0, 0, 0, 0, 0, 0, 0, 0, 0, 0, 0, 13, 0, 0],
      .octets [0, 2, 0, 0, 0, 0, 0, 0, 0, 1, 48], .ended]
    (∀ block ∈ [first, second], Sink.Packed block) ∧
      (∀ answer ∈ (Sink.writeTimes 13 [first, second] s).1, answer = .ok ()) ∧
      src.Delivers (Sink.writeTimes 13 [first, second] s).2.written [.ended] ∧
      src.readTimes 13 3 = ([.ok (some first), .ok (some second), .ok none], []) := by
  intro first second s src
  have hpacked : ∀ block ∈ [first, second], Sink.Packed block :=
    List.forall_mem_cons.mpr ⟨⟨1, [], .empty, rfl⟩,
      List.forall_mem_singleton.mpr ⟨2, [48], .empty, rfl⟩⟩
  have hwritten : ∀ answer ∈ (Sink.writeTimes 13 [first, second] s).1, answer = .ok () :=
    List.forall_mem_cons.mpr ⟨rfl, List.forall_mem_singleton.mpr rfl⟩
  have hsrc : src.Delivers (Sink.writeTimes 13 [first, second] s).2.written [.ended] :=
    .octets _ (.interrupted (.octets _ (.octets _ .nil)))
  exact ⟨hpacked, hwritten, hsrc,
    (readTimes_writeTimes 13 _ hpacked _ _).2 hwritten src [.ended] [] hsrc .ended⟩

end Switchboard
