import Switchboard.Proofs.Stream.Delivery

/-!
# Proofs/Stream/Segments — pulling blocks and pushing octets split a stream alike

A reader pulls blocks until the input ends or something is wrong (`Source.readAll`); a splitter is
fed pieces, gives its blocks after each and ends when there are no more (`Splitter.splitAll`).  Both
make the one cut of the octets into frames and say of the rest what `endOf` says, however each of
them meets the octets in pieces (`readAll_eq_splitAll`).  Whatever a splitter is asked to do in
between, it loses no octet and makes none up (`Splitter.flatten_append_of_meetAll`).
-/

namespace Switchboard

/-! ## What the octets after the last frame say -/

/-- Why the length in front is refused, if it is. -/
def refusal? (max : Nat) (left : Bytes) : Option WireError :=
  match Block.length? left with
  | .ok n =>
    match Block.checkLength n max with
    | .ok () => none
    | .error e => some e
  | .error _ => none

/-- **How the input ends**, by the octets that are in no frame: in order if there are none. -/
def endOf (max : Nat) (left : Bytes) : Option WireError :=
  (refusal? max left).or
    (if left = [] then none else some (.truncated (Splitter.expected left) left.length))

section

variable {max : Nat} {left : Bytes} {e : WireError}

theorem refusal?_eq_some_iff :
    refusal? max left = some e ↔
      ∃ n, Block.length? left = .ok n ∧ Block.checkLength n max = .error e := by
  unfold refusal?
  cases hn : Block.length? left with
  | error why => simp
  | ok n => cases hc : Block.checkLength n max <;> simp [hc]

theorem badLength_of_refusal? (h : refusal? max left = some e) : BadLength max left := by
  obtain ⟨n, hn, hc⟩ := refusal?_eq_some_iff.mp h
  exact ⟨n, hn, Block.bad_of_checkLength hc⟩

/-- A refusal stays, whatever arrives after it. -/
theorem refusal?_append (h : refusal? max left = some e) (s : Bytes) :
    refusal? max (left ++ s) = some e := by
  obtain ⟨n, hn, hc⟩ := refusal?_eq_some_iff.mp h
  exact refusal?_eq_some_iff.mpr ⟨n, Block.length?_append hn s, hc⟩

theorem endOf_of_refusal? (h : refusal? max left = some e) : endOf max left = some e := by
  rw [endOf, h, Option.some_or]

/-- Octets that no frame starts and whose length is not refused start a frame. -/
theorem incomplete_of_refusal? (hmaximal : ∀ f t, IsFrame max f → left ≠ f ++ t)
    (h : refusal? max left = none) : Source.Incomplete max left := by
  rcases Nat.lt_or_ge left.length Block.lengthSize with hlt | hle
  · exact .inl hlt
  cases hn : Block.length? left with
  | error why =>
    unfold Block.length? at hn
    split at hn
    · cases hn
    · rename_i hshort
      match left, hle with
      | a :: b :: c :: d :: rest, _ => exact absurd rfl (hshort a b c d rest)
  | ok n =>
    have hcheck : Block.checkLength n max = .ok () := by
      cases hc : Block.checkLength n max with
      | ok u => rfl
      | error e => exact nomatch h.symm.trans (refusal?_eq_some_iff.mpr ⟨n, hn, hc⟩)
    obtain ⟨hlow, hhigh⟩ := Block.checkLength_eq_ok_iff.mp hcheck
    refine .inr ⟨n, hn, hlow, hhigh, Nat.lt_of_not_le fun hwhole => ?_⟩
    -- with so many octets the frame would be whole
    have hlength := (Source.length?_take hn).1
    refine hmaximal (left.take (Block.lengthSize + n)) _ ⟨n, ?_, hlow, hhigh, ?_⟩
      (List.take_append_drop _ _).symm
    · have htake : (left.take (Block.lengthSize + n)).take Block.lengthSize =
          left.take Block.lengthSize := by
        rw [List.take_take, Nat.min_eq_left (Nat.le_add_right _ _)]
      rw [← List.take_append_drop Block.lengthSize (left.take (Block.lengthSize + n)), htake]
      exact Block.length?_append hlength _
    · rw [List.length_take, Nat.min_eq_left hwhole]

end

/-! ## Pulling -/

namespace Source

variable {s s' rest after : Source} {w left : Bytes} {max : Nat} {parts : List Bytes}

/-- Every octet is read or still to come. -/
theorem pending_fill (want : Nat) (s : Source) :
    s.pending = (fill want s).got ++ (fill want s).rest.pending := by
  fun_induction fill want s with
  | case1 => rfl
  | case2 => rfl
  | case3 want bs rest hfits =>
    rw [pending, List.flatMap_cons, pending, List.flatMap_cons, ← List.append_assoc,
      List.take_append_drop]
  | case4 want bs rest hshort r ih =>
    rw [pending, List.flatMap_cons, List.append_assoc]
    exact congrArg (bs ++ ·) ih
  | case5 => rfl
  | case6 want rest ih => exact ih
  | case7 => rfl

/-- A block returned is in front of what is still to come. -/
theorem pending_readBlock {f : Bytes} (h : readBlock max s = (.ok (some f), s')) :
    s.pending = f ++ s'.pending ∧ f ≠ [] := by
  unfold readBlock at h
  dsimp only at h
  split at h
  · cases h
  · split at h
    · cases h
    · split at h
      · cases h
      · split at h
        · cases h
        · split at h
          · cases h
          · rename_i hgot _ _ _ _ _
            injection h with hf hs
            injection hf with hf
            injection hf with hf
            subst hf hs
            rw [List.append_assoc, ← pending_fill, ← pending_fill, hgot]
            exact ⟨rfl, nofun⟩
    · cases h

/-- **Reads blocks until the input ends or something is wrong.** -/
def readAll (max : Nat) (s : Source) : List Bytes × Option WireError :=
  match h : readBlock max s with
  | (.ok (some f), s') =>
    have : s'.pending.length < s.pending.length := by
      obtain ⟨hpending, hne⟩ := pending_readBlock h
      have hpos := List.length_pos_iff.mpr hne
      rw [hpending, List.length_append]
      omega
    let r := readAll max s'
    (f :: r.1, r.2)
  | (.ok none, _) => ([], none)
  | (.error e, _) => ([], some e)
termination_by s.pending.length

/-- One call, and all calls after it. -/
theorem readAll_eq (max : Nat) (s : Source) :
    readAll max s =
      match readBlock max s with
      | (.ok (some f), s') => (f :: (readAll max s').1, (readAll max s').2)
      | (.ok none, _) => ([], none)
      | (.error e, _) => ([], some e) := by
  rw [readAll]
  split <;> rename_i h <;> simp only [h]

/-- **A reader cuts the octets into frames**, however it meets them. -/
theorem readAll_of_cut (h : Delivers s w rest) (hends : Ends rest after)
    (hcut : Cut (IsFrame max) w parts left) : readAll max s = (parts, endOf max left) := by
  induction parts generalizing s w with
  | nil =>
    obtain rfl : w = left := hcut.eq
    cases hr : refusal? max w with
    | some e =>
      obtain ⟨n, hn, hc⟩ := refusal?_eq_some_iff.mp hr
      obtain ⟨s', hread, -⟩ := readBlock_bad h hn hc
      rw [readAll_eq, hread, endOf_of_refusal? hr]
    | none =>
      have hread := readBlock_incomplete h (incomplete_of_refusal? hcut.maximal hr)
        fun k hk => fill_of_ends hends hk
      rw [readAll_eq, hread, endOf, hr, Option.none_or, cutShort]
      by_cases hw : w = []
      · rw [if_pos hw, if_pos hw]
      · rw [if_neg hw, if_neg hw]
  | cons f parts ih =>
    obtain ⟨hf, hw, htail⟩ := hcut.uncons
    rw [hw] at h
    obtain ⟨s', hread, hs'⟩ := readBlock_frame hf h
    rw [readAll_eq, hread]
    dsimp only
    rw [ih hs' htail]

end Source

/-! ## Pushing -/

namespace Splitter

variable {s s' : Splitter} {feeds parts : List Bytes} {left : Bytes}

/-! A step of the splitter answers for its buffer what a call of the reader answers for the octets
that it meets: a frame is taken off, a bad length is refused, an incomplete frame is waited for. -/

theorem next_frame {f t : Bytes} (hf : IsFrame s.max f) (hb : s.buffer = f ++ t) :
    s.next = (.ok (some f), ⟨s.max, t⟩) := by
  have htaken := s.taken_next
  generalize s.next = r at htaken
  cases htaken with
  | @frame g s' hg hmax hbuffer =>
    have heq := hbuffer.symm.trans hb
    obtain rfl := hg.prefix_free hf heq
    rw [← hmax, ← List.append_cancel_left heq]
  | more hmore => exact absurd hb (hmore f t hf)
  | bad hbad => exact absurd hb (hbad.not_frame hf)

theorem next_bad {e : WireError} (h : refusal? s.max s.buffer = some e) :
    s.next = (.error e, s) := by
  obtain ⟨n, hn, hc⟩ := refusal?_eq_some_iff.mp h
  unfold Block.length? at hn
  split at hn
  · rename_i a b c d rest hb
    injection hn with hn
    rw [next, hb]
    dsimp only
    rw [hn, hc]
  · cases hn

theorem next_incomplete (h : Source.Incomplete s.max s.buffer) : s.next = (.ok none, s) := by
  have htaken := s.taken_next
  generalize s.next = r at htaken
  cases htaken with
  | @frame g s' hg hmax hbuffer =>
    obtain ⟨n, hn, -, -, hsize⟩ := hg
    have hlength := Block.length?_append hn s'.buffer
    have hle : Block.lengthSize + n ≤ s.buffer.length := by
      rw [hbuffer, List.length_append, hsize]
      exact Nat.le_add_right _ _
    rcases h with hlt | ⟨m, hm, -, -, hlt⟩
    · omega
    · rw [hbuffer, hlength] at hm
      injection hm with hm
      omega
  | more => rfl
  | bad hbad =>
    obtain ⟨n, hn, hout⟩ := hbad
    rcases h with hlt | ⟨m, hm, hlow, hhigh, -⟩
    · exact absurd (Source.length?_take hn).2.2 (Nat.not_le.mpr hlt)
    · rw [hn] at hm
      injection hm with hm
      omega

/-- One block, and all blocks after it. -/
theorem drain_eq (s : Splitter) :
    s.drain =
      match s.next with
      | (.ok (some f), s') => (f :: s'.drain.1, s'.drain.2)
      | (.ok none, s') => ([], none, s')
      | (.error e, s') => ([], some e, s') := by
  rw [drain]
  split <;> rename_i h <;> simp only [h]

/-- **Taking every block makes the cut of the buffer.** -/
theorem drain_of_cut (h : Cut (IsFrame s.max) s.buffer parts left) :
    s.drain = (parts, refusal? s.max left, ⟨s.max, left⟩) := by
  induction parts generalizing s with
  | nil =>
    obtain rfl : s.buffer = left := h.eq
    cases hr : refusal? s.max s.buffer with
    | some e => rw [drain_eq, next_bad hr]
    | none => rw [drain_eq, next_incomplete (incomplete_of_refusal? h.maximal hr)]
  | cons f parts ih =>
    obtain ⟨hf, hbuffer, htail⟩ := h.uncons
    rw [drain_eq, next_frame hf hbuffer]
    dsimp only
    rw [ih (s := ⟨s.max, _⟩) htail]

/-- A block taken at the end of the input leaves less in the buffer. -/
theorem length_lt_of_last {f : Bytes} (h : s.last = (.ok (some f), s')) :
    s'.buffer.length < s.buffer.length := by
  unfold last at h
  split at h
  · split at h <;> cases h
  · exact length_lt_of_next h

/-- **Takes the blocks that are left at the end of the input.** -/
def finish (s : Splitter) : List Bytes × Option WireError :=
  match h : s.last with
  | (.ok (some f), s') =>
    have := length_lt_of_last h
    let r := finish s'
    (f :: r.1, r.2)
  | (.ok none, _) => ([], none)
  | (.error e, _) => ([], some e)
termination_by s.buffer.length

/-- One block, and all blocks after it. -/
theorem finish_eq (s : Splitter) :
    s.finish =
      match s.last with
      | (.ok (some f), s') => (f :: s'.finish.1, s'.finish.2)
      | (.ok none, _) => ([], none)
      | (.error e, _) => ([], some e) := by
  rw [finish]
  split <;> rename_i h <;> simp only [h]

/-- **Takes in pieces** and every block after each of them, then the end of the input. -/
def splitAll (s : Splitter) : List Bytes → List Bytes × Option WireError
  | [] => s.finish
  | bs :: more =>
    match (s.feed bs).drain with
    | (blocks, some e, _) => (blocks, some e)
    | (blocks, none, s') =>
      let r := s'.splitAll more
      (blocks ++ r.1, r.2)

theorem finish_of_cut (h : Cut (IsFrame s.max) s.buffer parts left) :
    s.finish = (parts, endOf s.max left) := by
  induction parts generalizing s with
  | nil =>
    obtain rfl : s.buffer = left := h.eq
    cases hr : refusal? s.max s.buffer with
    | some e => rw [finish_eq, last, next_bad hr, endOf_of_refusal? hr]
    | none =>
      rw [finish_eq, last, next_incomplete (incomplete_of_refusal? h.maximal hr), endOf, hr,
        Option.none_or]
      dsimp only
      by_cases hb : s.buffer = []
      · rw [if_pos hb, if_pos hb]
      · rw [if_neg hb, if_neg hb]
  | cons f parts ih =>
    obtain ⟨hf, hbuffer, htail⟩ := h.uncons
    rw [finish_eq, last, next_frame hf hbuffer]
    dsimp only
    rw [ih (s := ⟨s.max, _⟩) htail]

/-- **A splitter cuts the octets into frames**, however they arrive. -/
theorem splitAll_of_cut (h : Cut (IsFrame s.max) (s.buffer ++ feeds.flatten) parts left) :
    s.splitAll feeds = (parts, endOf s.max left) := by
  induction feeds generalizing s parts left with
  | nil =>
    rw [List.flatten_nil, List.append_nil] at h
    exact finish_of_cut h
  | cons bs more ih =>
    obtain ⟨first, held, hfirst⟩ :=
      Cut.exists_cut (fun _ => IsFrame.ne_nil) (P := IsFrame s.max) (s.buffer ++ bs)
    have hdrain : (s.feed bs).drain = (first, refusal? s.max held, ⟨s.max, held⟩) :=
      drain_of_cut hfirst
    rw [List.flatten_cons, ← List.append_assoc] at h
    rw [splitAll, hdrain]
    cases hr : refusal? s.max held with
    | some e =>
      -- the refused length stays in front of everything that arrives later
      have hstuck : Cut (IsFrame s.max) (held ++ more.flatten) [] (held ++ more.flatten) :=
        .nil fun f t hf => ((badLength_of_refusal? hr).append _).not_frame hf
      obtain ⟨hparts, hleft⟩ :=
        h.unique (fun _ _ _ _ => IsFrame.prefix_free) (hfirst.append hstuck)
      rw [hparts, hleft, List.append_nil, endOf_of_refusal? (refusal?_append hr _)]
    | none =>
      obtain ⟨later, left', hlater⟩ :=
        Cut.exists_cut (fun _ => IsFrame.ne_nil) (P := IsFrame s.max) (held ++ more.flatten)
      obtain ⟨hparts, hleft⟩ :=
        h.unique (fun _ _ _ _ => IsFrame.prefix_free) (hfirst.append hlater)
      dsimp only
      have hrest : splitAll ⟨s.max, held⟩ more = (later, endOf s.max left') := ih hlater
      rw [hrest, hparts, hleft]

/-! ## No octet is lost or made up -/

/-- What a splitter is asked to do. -/
inductive Request where
  /-- To take octets in. -/
  | feed (bs : Bytes)
  /-- To take a block off the front. -/
  | next
  /-- To take a block off the front at the end of the input. -/
  | last
deriving Repr, DecidableEq

/-- What comes of a request. -/
def meet (s : Splitter) : Request → Except WireError (Option Bytes) × Splitter
  | .feed bs => (.ok none, s.feed bs)
  | .next => s.next
  | .last => s.last

/-- The blocks that come of requests, and the splitter after them, unless there is a fault. -/
def meetAll (s : Splitter) : List Request → Option (List Bytes × Splitter)
  | [] => some ([], s)
  | r :: more =>
    match s.meet r with
    | (.ok block, s') => (s'.meetAll more).map fun (blocks, s) => (block.toList ++ blocks, s)
    | (.error _, _) => none

/-- The octets that are fed. -/
def fed (requests : List Request) : Bytes :=
  requests.flatMap fun
    | .feed bs => bs
    | _ => []

/-- What a step takes off the front and what it leaves are what was there. -/
theorem append_of_next {block : Option Bytes} (h : s.next = (.ok block, s')) :
    block.toList.flatten ++ s'.buffer = s.buffer := by
  have htaken := s.taken_next
  rw [h] at htaken
  cases htaken with
  | @frame f s' hframe hmax hbuffer =>
    show (f ++ []) ++ s'.buffer = _
    rw [List.append_nil, hbuffer]
  | more => rfl

theorem append_of_last {block : Option Bytes} (h : s.last = (.ok block, s')) :
    block.toList.flatten ++ s'.buffer = s.buffer := by
  unfold last at h
  split at h
  · rename_i t hnext
    split at h
    · injection h with hblock hs
      injection hblock with hblock
      subst hblock hs
      exact append_of_next hnext
    · cases h
  · exact append_of_next h

theorem append_of_meet {block : Option Bytes} {r : Request} (h : s.meet r = (.ok block, s')) :
    block.toList.flatten ++ s'.buffer = s.buffer ++ fed [r] := by
  cases r with
  | feed bs =>
    injection h with hblock hs
    injection hblock with hblock
    subst hblock hs
    show s.buffer ++ bs = s.buffer ++ (bs ++ [])
    rw [List.append_nil]
  | next => exact (append_of_next h).trans (List.append_nil _).symm
  | last => exact (append_of_last h).trans (List.append_nil _).symm

/-- **No octet is lost or made up**: as long as there is no fault, the blocks given and what the
splitter keeps are the octets it had and was fed, in order. -/
theorem flatten_append_of_meetAll {requests : List Request} {blocks : List Bytes}
    (h : s.meetAll requests = some (blocks, s')) :
    blocks.flatten ++ s'.buffer = s.buffer ++ fed requests := by
  induction requests generalizing s blocks with
  | nil =>
    injection h with h
    injection h with hblocks hs
    subst hblocks hs
    exact (List.append_nil _).symm
  | cons r more ih =>
    rw [meetAll] at h
    split at h
    · rename_i block t hmeet
      obtain ⟨⟨later, u⟩, hlater, heq⟩ := Option.map_eq_some_iff.mp h
      injection heq with hblocks hs
      subst hblocks hs
      rw [List.flatten_append, List.append_assoc, ih hlater, ← List.append_assoc,
        append_of_meet hmeet, List.append_assoc, fed, fed, fed, List.flatMap_singleton,
        List.flatMap_cons]
    · cases h

end Splitter

/-- **Pulling and pushing split a stream alike.**  However the octets are cut into chunks for a
reader and into pieces for a splitter, both give the same blocks and end the same way: the blocks
are the frames of the one cut of the octets, and the end is told by what is left of them.  Whatever
a splitter is asked to do in between, the blocks it gave and the octets it keeps are those it was
fed, until there is a fault. -/
theorem readAll_eq_splitAll (max : Nat) (chunks feeds : List Bytes)
    (h : chunks.flatten = feeds.flatten) :
    Source.readAll max (chunks.map .octets) = (Splitter.ofMax max).splitAll feeds ∧
    (∃ frames left, Cut (IsFrame max) feeds.flatten frames left ∧
      (Splitter.ofMax max).splitAll feeds = (frames, endOf max left)) ∧
    ∀ requests blocks s, (Splitter.ofMax max).meetAll requests = some (blocks, s) →
      blocks.flatten ++ s.buffer = Splitter.fed requests := by
  obtain ⟨frames, left, hcut⟩ :=
    Cut.exists_cut (fun _ => IsFrame.ne_nil) (P := IsFrame max) feeds.flatten
  have hsplit : (Splitter.ofMax max).splitAll feeds = (frames, endOf max left) :=
    Splitter.splitAll_of_cut hcut
  have hread := Source.readAll_of_cut (Source.delivers_map_octets chunks) .nil (h ▸ hcut)
  exact ⟨hread.trans hsplit.symm, ⟨frames, left, hcut, hsplit⟩,
    fun requests blocks s hs => Splitter.flatten_append_of_meetAll hs⟩

/-- A frame and two octets of another, cut inside the length and across the frames. -/
theorem readAll_eq_splitAll_torn :
    let chunks : List Bytes := [[0, 0, 0], [12, 0, 0, 0, 1, 0, 0, 0, 0, 0, 0, 0, 0, 0], [0]]
    let feeds : List Bytes := [[0, 0, 0, 12, 0, 0, 0, 1], [0, 0, 0, 0, 0, 0, 0, 0, 0], [], [0]]
    chunks.flatten = feeds.flatten ∧
      Source.readAll 12 (chunks.map .octets) = (Splitter.ofMax 12).splitAll feeds ∧
      Source.readAll 12 (chunks.map .octets) =
        ([[0, 0, 0, 12, 0, 0, 0, 1, 0, 0, 0, 0, 0, 0, 0, 0]], some (.truncated 4 2)) := by
  intro chunks feeds
  have h : chunks.flatten = feeds.flatten := rfl
  have hframe : IsFrame 12 [0, 0, 0, 12, 0, 0, 0, 1, 0, 0, 0, 0, 0, 0, 0, 0] :=
    ⟨12, rfl, by decide, by decide, rfl⟩
  have hleft : ∀ f t, IsFrame 12 f → ([0, 0] : Bytes) ≠ f ++ t := by
    rintro f t ⟨n, -, hlow, -, hsize⟩ heq
    have hlength : 2 = (f ++ t).length := congrArg List.length heq
    rw [List.length_append, hsize, Block.lengthSize] at hlength
    omega
  have hcut : Cut (IsFrame 12) chunks.flatten
      [[0, 0, 0, 12, 0, 0, 0, 1, 0, 0, 0, 0, 0, 0, 0, 0]] [0, 0] := (Cut.nil hleft).cons hframe
  exact ⟨h, (readAll_eq_splitAll 12 chunks feeds h).1,
    Source.readAll_of_cut (Source.delivers_map_octets chunks) .nil hcut⟩

end Switchboard
