import Switchboard.Proofs.Stream.Delivery

/-!
# Proofs/Stream/Reads — successive calls of the reader

`Source.readTimes` makes a number of calls one after another.  From a source that delivers frames
and a tail in which no frame is left, the calls return the frames one by one, each taking its own
octets (`readTimes_frames`), and the next call answers what the tail and the octets missing from it
say (`Source.TailAnswers`).  That holds under every script of reads (`readTimes_of_delivers`).
-/

namespace Switchboard

namespace Source

/-- The answers of so many calls, and what is left to read. -/
def readTimes (max : Nat) : Nat → Source → List (Except WireError (Option Bytes)) × Source
  | 0, s => ([], s)
  | n + 1, s =>
    let r := readBlock max s
    let more := readTimes max n r.2
    (r.1 :: more.1, more.2)

variable {s s' rest : Source} {frames : List Bytes} {tail : Bytes} {max : Nat}

/-- The scripts decide no answer of any number of calls. -/
theorem readTimes_alike (h : Alike s s') (max n : Nat) :
    (readTimes max n s).1 = (readTimes max n s').1 := by
  induction n generalizing s s' with
  | zero => rfl
  | succ n ih =>
    obtain ⟨hanswer, hleft⟩ := readBlock_alike h max
    rw [readTimes, readTimes, hanswer, ih hleft]

/-- **Frames are returned one by one**, and each call takes the octets of its frame and no others.
-/
theorem readTimes_frames (hframes : ∀ f ∈ frames, IsFrame max f)
    (h : Delivers s (frames.flatten ++ tail) rest) {k : Nat} (hk : k ≤ frames.length) :
    ∃ s', readTimes max k s = ((frames.take k).map fun f => .ok (some f), s') ∧
      Delivers s' ((frames.drop k).flatten ++ tail) rest := by
  induction frames generalizing s k with
  | nil =>
    obtain rfl : k = 0 := Nat.le_zero.mp hk
    exact ⟨s, rfl, h⟩
  | cons f more ih =>
    cases k with
    | zero => exact ⟨s, rfl, h⟩
    | succ k =>
      obtain ⟨hf, hmore⟩ := List.forall_mem_cons.mp hframes
      rw [List.flatten_cons, List.append_assoc] at h
      obtain ⟨t, hread, ht⟩ := readBlock_frame hf h
      obtain ⟨s', htimes, hs'⟩ := ih hmore ht (Nat.le_of_succ_le_succ hk)
      refine ⟨s', ?_, hs'⟩
      rw [readTimes, hread]
      dsimp only
      rw [htimes, List.take_succ_cons, List.map_cons]

/-- **What a call answers where no whole frame is left**: the source delivers `tail` and then what
`rest` says. -/
structure TailAnswers (max : Nat) (tail : Bytes) (rest s : Source) : Prop where
  /-- The input ends in front of a frame. -/
  clean : ∀ after, Ends rest after → tail = [] → readBlock max s = (.ok none, after)
  /-- The input ends inside the length. -/
  inLength : ∀ after, Ends rest after → 0 < tail.length → tail.length < 4 →
    readBlock max s = (.error (.truncated 4 tail.length), after)
  /-- The input ends inside the frame. -/
  inFrame : ∀ after, Ends rest after → ∀ n, Block.length? tail = .ok n → 12 ≤ n → n ≤ max →
    tail.length < 4 + n → readBlock max s = (.error (.truncated (4 + n) tail.length), after)
  /-- The length is above the limit. -/
  tooLarge : ∀ n, Block.length? tail = .ok n → max < n →
    ∃ s', readBlock max s = (.error (.tooLarge n max), s') ∧ Delivers s' (tail.drop 4) rest
  /-- The length cannot hold the fixed fields. -/
  tooSmall : ∀ n, Block.length? tail = .ok n → n ≤ max → n < 12 →
    ∃ s', readBlock max s = (.error (.malformed (.tooSmall n)), s') ∧
      Delivers s' (tail.drop 4) rest
  /-- A read fails before the frame is there. -/
  fault : ∀ f after, f ≠ .interrupted → rest = .fault f :: after → Incomplete max tail →
    readBlock max s = (.error (.io f), after)

theorem tailAnswers_of_delivers (max : Nat) (h : Delivers s tail rest) :
    TailAnswers max tail rest s where
  clean after hends htail := by
    have hincomplete : Incomplete max tail := .inl (by rw [htail]; decide)
    rw [readBlock_incomplete h hincomplete fun k hk => fill_of_ends hends hk, cutShort,
      if_pos htail]
  inLength after hends hpos hlt := by
    rw [readBlock_incomplete h (.inl hlt) fun k hk => fill_of_ends hends hk, cutShort,
      if_neg (List.length_pos_iff.mp hpos), expected_of_short hlt]
    rfl
  inFrame after hends n hn hlow hhigh hlt := by
    have hpos : 0 < tail.length := Nat.lt_of_lt_of_le (by decide) (length?_take hn).2.2
    rw [readBlock_incomplete h (.inr ⟨n, hn, hlow, hhigh, hlt⟩) fun k hk => fill_of_ends hends hk,
      cutShort, if_neg (List.length_pos_iff.mp hpos), expected_of_length hn]
    rfl
  tooLarge n hn hhigh := readBlock_bad h hn (by rw [Block.checkLength, if_pos hhigh])
  tooSmall n hn hhigh hlow := readBlock_bad h hn (by
    rw [Block.checkLength, if_neg (Nat.not_lt.mpr hhigh)]
    exact if_pos hlow)
  fault f after hf hrest hincomplete := by
    rw [readBlock_incomplete h hincomplete fun k hk => by rw [hrest, fill_of_fault hf hk], cutShort]

/-- **Reading is right over any source.**  However the reads cut the octets and wherever they are
interrupted, successive calls return the frames in front as they are; so many calls take the octets
of so many frames and no others; the call after them answers for the tail; and no answer of any
number of calls depends on the script. -/
theorem readTimes_of_delivers (max : Nat) (frames : List Bytes) (tail : Bytes) (s rest : Source)
    (hframes : ∀ f ∈ frames, IsFrame max f) (h : Delivers s (frames.flatten ++ tail) rest) :
    (∀ k ≤ frames.length, ∃ s',
      readTimes max k s = ((frames.take k).map fun f => .ok (some f), s') ∧
        Delivers s' ((frames.drop k).flatten ++ tail) rest) ∧
    (∃ s', readTimes max frames.length s = (frames.map fun f => .ok (some f), s') ∧
      Delivers s' tail rest ∧ TailAnswers max tail rest s') ∧
    ∀ s', Delivers s' (frames.flatten ++ tail) rest →
      ∀ n, (readTimes max n s').1 = (readTimes max n s).1 := by
  refine ⟨fun k hk => readTimes_frames hframes h hk, ?_,
    fun s' h' n => readTimes_alike ⟨_, _, h', h⟩ max n⟩
  obtain ⟨s', hread, hs'⟩ := readTimes_frames hframes h (Nat.le_refl _)
  rw [List.take_length] at hread
  rw [List.drop_length, List.flatten_nil, List.nil_append] at hs'
  exact ⟨s', hread, hs', tailAnswers_of_delivers max hs'⟩

/-- Two frames and three octets of a third, with chunks that end inside a length and across frames
and with interruptions inside both frames. -/
theorem readTimes_of_delivers_torn :
    let first : Bytes := [0, 0, 0, 12, 0, 0, 0, 1, 0, 0, 0, 0, 0, 0, 0, 0]
    let second : Bytes := [0, 0, 0, 13, 0, 0, 0, 2, 0, 0, 0, 0, 0, 0, 0, 1, 48]
    let s : Source := [.octets [0, 0], .fault .interrupted,
      .octets [0, 12, 0, 0, 0, 1, 0, 0, 0, 0, 0, 0, 0, 0, 0, 0, 0, 13, 0, 0],
      .fault .interrupted, .octets [], .octets [0, 2, 0, 0, 0, 0, 0, 0, 0, 1, 48, 0, 0, 0], .ended]
    (∀ f ∈ [first, second], IsFrame 13 f) ∧
      Delivers s ([first, second].flatten ++ [0, 0, 0]) [.ended] ∧
      ∃ s', readTimes 13 2 s = ([.ok (some first), .ok (some second)], s') ∧
        readBlock 13 s' = (.error (.truncated 4 3), []) := by
  intro first second s
  have hfirst : IsFrame 13 first := ⟨12, rfl, by decide, by decide, rfl⟩
  have hsecond : IsFrame 13 second := ⟨13, rfl, by decide, by decide, rfl⟩
  have hframes : ∀ f ∈ [first, second], IsFrame 13 f :=
    List.forall_mem_cons.mpr ⟨hfirst, List.forall_mem_singleton.mpr hsecond⟩
  have h : Delivers s ([first, second].flatten ++ [0, 0, 0]) [.ended] :=
    .octets _ (.interrupted (.octets _ (.interrupted (.octets _ (.octets _ .nil)))))
  obtain ⟨s', hread, -, htail⟩ := (readTimes_of_delivers 13 _ _ s _ hframes h).2.1
  exact ⟨hframes, h, s', hread, htail.inLength [] .ended (by decide) (by decide)⟩

end Source

end Switchboard
