import Switchboard.Proofs.Stream.Cut
import Switchboard.Stream.Source

/-!
# Proofs/Stream/Delivery — reading blocks under any script of reads

`Source.Delivers s w rest` says that the coming reads of `s` meet just the octets `w`, in chunks of
any sizes and with interruptions anywhere, and then what `rest` says.  `fill` takes octets off the
front of `w` as long as there are enough (`fill_of_delivers`) and meets `rest` otherwise
(`fill_of_short`), so neither the chunks nor the interruptions decide anything: sources that deliver
the same octets are `Alike`, and reading a block keeps them so (`readBlock_alike`).

What a call answers follows from the octets alone: a whole frame is returned and taken off, whatever
comes after it (`readBlock_frame`); a bad length is refused after its four octets
(`readBlock_bad`); an incomplete frame meets the end of the input or a fault
(`readBlock_incomplete`).
-/

namespace Switchboard

namespace Source

/-! ## Scripts of reads -/

/-- **The coming reads meet these octets, and then `rest`.** -/
inductive Delivers : Source → Bytes → Source → Prop where
  /-- No octet is left. -/
  | nil {rest : Source} : Delivers rest [] rest
  /-- A chunk of any size. -/
  | octets (bs : Bytes) {s rest : Source} {w : Bytes} (h : Delivers s w rest) :
      Delivers (.octets bs :: s) (bs ++ w) rest
  /-- An interrupted read. -/
  | interrupted {s rest : Source} {w : Bytes} (h : Delivers s w rest) :
      Delivers (.fault .interrupted :: s) w rest

/-- The next read finds the end of the input, and `after` is left to read. -/
inductive Ends : Source → Source → Prop where
  /-- The script is over. -/
  | nil : Ends [] []
  /-- The end of the input is in the script. -/
  | ended {after : Source} : Ends (.ended :: after) after

/-- The scripts differ in chunks and interruptions at most. -/
def Alike (s s' : Source) : Prop := ∃ w rest, Delivers s w rest ∧ Delivers s' w rest

variable {s s' rest after : Source} {w : Bytes} {max want n : Nat}

theorem Alike.refl (s : Source) : Alike s s := ⟨[], s, .nil, .nil⟩

/-- Octets cut into chunks are delivered, and then the input ends. -/
theorem delivers_map_octets (chunks : List Bytes) :
    Delivers (chunks.map .octets) chunks.flatten [] := by
  induction chunks with
  | nil => exact .nil
  | cons bs rest ih => exact ih.octets bs

/-- What the reads meet is still to come. -/
theorem pending_of_delivers (h : Delivers s w rest) : s.pending = w ++ rest.pending := by
  induction h with
  | nil => rfl
  | octets bs h ih =>
    rw [List.append_assoc, ← ih]
    rfl
  | interrupted h ih => exact ih

/-! ## Reading a number of octets -/

theorem fill_zero (s : Source) : fill 0 s = ⟨[], none, s⟩ := by
  cases s <;> rfl

/-- **Octets that are there are read**, and those behind them are left. -/
theorem fill_of_delivers (h : Delivers s w rest) (hle : want ≤ w.length) :
    ∃ s', fill want s = ⟨w.take want, none, s'⟩ ∧ Delivers s' (w.drop want) rest := by
  induction h generalizing want with
  | nil =>
    obtain rfl : want = 0 := Nat.le_zero.mp hle
    exact ⟨_, fill_zero _, .nil⟩
  | @octets bs s rest w h ih =>
    rw [List.length_append] at hle
    cases want with
    | zero => exact ⟨_, rfl, h.octets bs⟩
    | succ k =>
      rw [fill, List.take_append, List.drop_append]
      split
      · -- the chunk is long enough, and what is left of it stays in front
        rename_i hfits
        rw [Nat.sub_eq_zero_of_le hfits, List.take_zero, List.append_nil, List.drop_zero]
        exact ⟨_, rfl, h.octets _⟩
      · rename_i hshort
        have hle' : bs.length ≤ k + 1 := by omega
        have hmore : k + 1 - bs.length ≤ w.length := by omega
        obtain ⟨s', hfill, hs'⟩ := ih hmore
        rw [hfill, List.take_of_length_le hle', List.drop_of_length_le hle']
        exact ⟨s', rfl, hs'⟩
  | interrupted h ih =>
    cases want with
    | zero => exact ⟨_, rfl, h.interrupted⟩
    | succ k => exact ih hle

/-- **Too few octets are all read**, and what comes after them decides. -/
theorem fill_of_short (h : Delivers s w rest) (hlt : w.length < want) :
    fill want s =
      ⟨w ++ (fill (want - w.length) rest).got, (fill (want - w.length) rest).fault,
        (fill (want - w.length) rest).rest⟩ := by
  induction h generalizing want with
  | nil => rfl
  | @octets bs s rest w h ih =>
    rw [List.length_append] at hlt
    obtain ⟨k, rfl⟩ : ∃ k, want = k + 1 := ⟨want - 1, by omega⟩
    rw [fill, if_neg (by omega), ih (by omega), List.length_append, Nat.sub_sub, List.append_assoc]
  | interrupted h ih =>
    obtain ⟨k, rfl⟩ : ∃ k, want = k + 1 := ⟨want - 1, by omega⟩
    exact ih hlt

/-- The end of the input. -/
theorem fill_of_ends (h : Ends rest after) (hpos : 0 < want) :
    fill want rest = ⟨[], none, after⟩ := by
  obtain ⟨k, rfl⟩ : ∃ k, want = k + 1 := ⟨want - 1, by omega⟩
  cases h <;> rfl

/-- A fault that is no interruption. -/
theorem fill_of_fault {f : IoFault} (hf : f ≠ .interrupted) (hpos : 0 < want) (after : Source) :
    fill want (.fault f :: after) = ⟨[], some f, after⟩ := by
  obtain ⟨k, rfl⟩ : ∃ k, want = k + 1 := ⟨want - 1, by omega⟩
  rw [fill, if_neg hf]

/-- Chunks and interruptions do not decide what is read. -/
theorem fill_alike (h : Alike s s') (want : Nat) :
    (fill want s).got = (fill want s').got ∧ (fill want s).fault = (fill want s').fault ∧
      Alike (fill want s).rest (fill want s').rest := by
  obtain ⟨w, rest, hs, hs'⟩ := h
  rcases Nat.lt_or_ge w.length want with hlt | hle
  · rw [fill_of_short hs hlt, fill_of_short hs' hlt]
    exact ⟨rfl, rfl, .refl _⟩
  · obtain ⟨t, hfill, ht⟩ := fill_of_delivers hs hle
    obtain ⟨t', hfill', ht'⟩ := fill_of_delivers hs' hle
    rw [hfill, hfill']
    exact ⟨rfl, rfl, _, _, ht, ht'⟩

/-! ## Reading a block

`readBlock` is opened once for each thing that the first four octets can be: fewer than four, and a
length. -/

/-- Fewer octets than a length has, before the input ends. -/
theorem readBlock_of_short {p : Bytes} (h : fill Block.lengthSize s = ⟨p, none, s'⟩)
    (hlt : p.length < Block.lengthSize) :
    readBlock max s =
      (if p = [] then .ok none else .error (.truncated Block.lengthSize p.length), s') := by
  rw [readBlock, h]
  match p, hlt with
  | [], _ => rfl
  | [_], _ => rfl
  | [_, _], _ => rfl
  | [_, _, _], _ => rfl

/-- A length. -/
theorem readBlock_of_length {p : Bytes} (h : fill Block.lengthSize s = ⟨p, none, s'⟩)
    (hsize : p.length = Block.lengthSize) (hn : Block.length? p = .ok n) :
    readBlock max s =
      match Block.checkLength n max with
      | .error e => (.error e, s')
      | .ok () =>
        match (fill n s').fault with
        | some f => (.error (.io f), (fill n s').rest)
        | none =>
          if (fill n s').got.length < n then
            (.error (.truncated (Block.lengthSize + n) (p ++ (fill n s').got).length),
              (fill n s').rest)
          else (.ok (some (p ++ (fill n s').got)), (fill n s').rest) := by
  rw [readBlock, h]
  match p, hsize, hn with
  | [_, _, _, _], _, hn =>
    injection hn with hn
    subst hn
    rfl

/-- **Chunks and interruptions do not decide what a call answers**, nor what is left. -/
theorem readBlock_alike (h : Alike s s') (max : Nat) :
    (readBlock max s).1 = (readBlock max s').1 ∧
      Alike (readBlock max s).2 (readBlock max s').2 := by
  obtain ⟨hgot, hfault, hrest⟩ := fill_alike h Block.lengthSize
  simp only [readBlock, hgot, hfault]
  split
  · exact ⟨rfl, hrest⟩
  · split
    · exact ⟨rfl, hrest⟩
    · rename_i a b c d _
      obtain ⟨hgot', hfault', hrest'⟩ := fill_alike hrest (word32 a b c d)
      simp only [hgot', hfault']
      split
      · exact ⟨rfl, hrest⟩
      · split
        · exact ⟨rfl, hrest'⟩
        · split <;> exact ⟨rfl, hrest'⟩
    · exact ⟨rfl, hrest⟩

/-! ## What a call answers -/

/-- The octets start a frame that is not there as a whole. -/
def Incomplete (max : Nat) (w : Bytes) : Prop :=
  w.length < Block.lengthSize ∨
    ∃ n, Block.length? w = .ok n ∧ Block.fixedSize ≤ n ∧ n ≤ max ∧ w.length < Block.lengthSize + n

/-- A length stands in the first four octets. -/
theorem length?_take (hn : Block.length? w = .ok n) :
    Block.length? (w.take Block.lengthSize) = .ok n ∧
      (w.take Block.lengthSize).length = Block.lengthSize ∧ Block.lengthSize ≤ w.length := by
  unfold Block.length? at hn
  split at hn
  · exact ⟨hn, rfl, by simp only [Block.lengthSize, List.length_cons]; omega⟩
  · cases hn

theorem expected_of_length (hn : Block.length? w = .ok n) :
    Splitter.expected w = Block.lengthSize + n := by
  unfold Block.length? at hn
  split at hn
  · injection hn with hn
    rw [← hn]
    rfl
  · cases hn

theorem expected_of_short (hlt : w.length < Block.lengthSize) :
    Splitter.expected w = Block.lengthSize := by
  unfold Splitter.expected
  split
  · simp only [Block.lengthSize, List.length_cons] at hlt
    omega
  · rfl

/-- **A frame is returned**, and its octets and no others are taken. -/
theorem readBlock_frame {f : Bytes} (hf : IsFrame max f) (h : Delivers s (f ++ w) rest) :
    ∃ s', readBlock max s = (.ok (some f), s') ∧ Delivers s' w rest := by
  obtain ⟨n, hn, hlow, hhigh, hsize⟩ := hf
  obtain ⟨htake, hlength, hle⟩ := length?_take (Block.length?_append hn w)
  obtain ⟨t, hfill, ht⟩ := fill_of_delivers h hle
  have hdrop : ((f ++ w).drop Block.lengthSize).take n = f.drop Block.lengthSize := by
    rw [List.drop_append_of_le_length (by omega),
      List.take_append_of_le_length (by rw [List.length_drop]; omega)]
    exact List.take_of_length_le (by rw [List.length_drop]; omega)
  have hbody : n ≤ ((f ++ w).drop Block.lengthSize).length := by
    rw [List.length_drop, List.length_append]
    omega
  obtain ⟨s', hfill', hs'⟩ := fill_of_delivers ht hbody
  have hblock : (f ++ w).take Block.lengthSize ++ f.drop Block.lengthSize = f := by
    rw [List.take_append_of_le_length (by omega), List.take_append_drop]
  rw [List.drop_drop, ← hsize, List.drop_left] at hs'
  rw [readBlock_of_length hfill hlength htake, Block.checkLength_eq_ok_iff.mpr ⟨hlow, hhigh⟩,
    hfill', hdrop]
  dsimp only
  rw [hblock, if_neg (by rw [List.length_drop]; omega)]
  exact ⟨s', rfl, hs'⟩

/-- **A bad length is refused** once its four octets are taken. -/
theorem readBlock_bad {e : WireError} (h : Delivers s w rest) (hn : Block.length? w = .ok n)
    (he : Block.checkLength n max = .error e) :
    ∃ s', readBlock max s = (.error e, s') ∧ Delivers s' (w.drop Block.lengthSize) rest := by
  obtain ⟨htake, hlength, hle⟩ := length?_take hn
  obtain ⟨s', hfill, hs'⟩ := fill_of_delivers h hle
  rw [readBlock_of_length hfill hlength htake, he]
  exact ⟨s', rfl, hs'⟩

/-- What is answered instead of an incomplete frame, by the fault that is met, if it is a fault: the
end of the input is reported too, unless it comes in front of the frame. -/
def cutShort (w : Bytes) : Option IoFault → Except WireError (Option Bytes)
  | some f => .error (.io f)
  | none => if w = [] then .ok none else .error (.truncated (Splitter.expected w) w.length)

/-- **An incomplete frame meets what comes after it.** -/
theorem readBlock_incomplete {fault : Option IoFault} (h : Delivers s w rest)
    (hw : Incomplete max w) (hrest : ∀ k, 0 < k → fill k rest = ⟨[], fault, after⟩) :
    readBlock max s = (cutShort w fault, after) := by
  rcases hw with hlt | ⟨n, hn, hlow, hhigh, hlt⟩
  · have hfill := fill_of_short h hlt
    rw [hrest _ (by omega), List.append_nil] at hfill
    cases fault with
    | some f =>
      rw [readBlock, hfill]
      rfl
    | none => rw [readBlock_of_short hfill hlt, cutShort, expected_of_short hlt]
  · obtain ⟨htake, hlength, hle⟩ := length?_take hn
    obtain ⟨t, hfill, ht⟩ := fill_of_delivers h hle
    have hbody : (w.drop Block.lengthSize).length < n := by
      rw [List.length_drop]
      omega
    have hfill' := fill_of_short ht hbody
    rw [hrest _ (Nat.sub_pos_of_lt hbody), List.append_nil] at hfill'
    rw [readBlock_of_length hfill hlength htake, Block.checkLength_eq_ok_iff.mpr ⟨hlow, hhigh⟩,
      hfill']
    cases fault with
    | some f => rfl
    | none =>
      have hne : w ≠ [] := fun hw => by
        rw [hw] at hle
        cases hle
      dsimp only
      rw [if_pos hbody, List.take_append_drop, cutShort, if_neg hne,
        expected_of_length hn]

end Source

end Switchboard
