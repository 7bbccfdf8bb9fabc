import Switchboard.Proofs.Wire.Grammar
import Switchboard.Stream.Splitter

/-!
# Proofs/Stream/Cut — whole parts of a sequence, and what is left

`Cut P xs parts rest` says that `xs` is whole parts and then a rest that no part starts.  A part is
recognised by `P`; as long as no part starts another, there is exactly one cut (`Cut.exists_cut`,
`Cut.unique`), and it can be made piece by piece: what is left of one piece is put in front of the
next (`Cut.append`).

The splitter makes such a cut of its buffer, with frames for parts (`Splitter.cut_drain`).
-/

namespace Switchboard

/-- `xs` is the parts one after another and a rest that no part starts. -/
structure Cut {α : Type} (P : List α → Prop) (xs : List α) (parts : List (List α))
    (rest : List α) : Prop where
  eq : xs = parts.flatten ++ rest
  whole : ∀ p ∈ parts, P p
  maximal : ∀ p s, P p → rest ≠ p ++ s

namespace Cut

variable {α : Type} {P : List α → Prop} {xs ys rest rest' : List α} {parts parts' : List (List α)}

/-- Nothing is cut off where no part starts. -/
theorem nil (h : ∀ p s, P p → rest ≠ p ++ s) : Cut P rest [] rest :=
  ⟨rfl, fun _ hp => absurd hp (List.not_mem_nil), h⟩

/-- One part in front. -/
theorem cons {p : List α} (hp : P p) (h : Cut P xs parts rest) :
    Cut P (p ++ xs) (p :: parts) rest where
  eq := by rw [h.eq, List.flatten_cons, List.append_assoc]
  whole := List.forall_mem_cons.mpr ⟨hp, h.whole⟩
  maximal := h.maximal

/-- Parts that are not empty are cut apart where they were put together. -/
theorem flatten (hne : ∀ p, P p → p ≠ []) (hparts : ∀ p ∈ parts, P p) :
    Cut P parts.flatten parts [] where
  eq := (List.append_nil _).symm
  whole := hparts
  maximal p _ hp h := hne p hp (List.append_eq_nil_iff.mp h.symm).1

/-- The first part, and the cut of what comes after it. -/
theorem uncons {p : List α} (h : Cut P xs (p :: parts) rest) :
    P p ∧ xs = p ++ (parts.flatten ++ rest) ∧ Cut P (parts.flatten ++ rest) parts rest := by
  refine ⟨h.whole p List.mem_cons_self, ?_, rfl,
    fun q hq => h.whole q (List.mem_cons_of_mem _ hq), h.maximal⟩
  rw [h.eq, List.flatten_cons, List.append_assoc]

/-- **Cutting piece by piece**: what is left of the first piece goes in front of the second. -/
theorem append (h : Cut P xs parts rest) (h' : Cut P (rest ++ ys) parts' rest') :
    Cut P (xs ++ ys) (parts ++ parts') rest' where
  eq := by
    rw [h.eq, List.append_assoc, h'.eq, List.flatten_append, List.append_assoc]
  whole := fun p hp => (List.mem_append.mp hp).elim (h.whole p) (h'.whole p)
  maximal := h'.maximal

/-- **Every sequence can be cut**, if parts are not empty. -/
theorem exists_cut (hne : ∀ p, P p → p ≠ []) (xs : List α) : ∃ parts rest, Cut P xs parts rest := by
  induction hn : xs.length using Nat.strongRecOn generalizing xs with
  | ind n ih =>
    by_cases h : ∃ p s, P p ∧ xs = p ++ s
    · obtain ⟨p, s, hp, rfl⟩ := h
      have hlt : s.length < n := by
        rw [← hn, List.length_append]
        have := List.length_pos_iff.mpr (hne p hp)
        omega
      obtain ⟨parts, rest, hcut⟩ := ih s.length hlt s rfl
      exact ⟨p :: parts, rest, hcut.cons hp⟩
    · exact ⟨[], xs, nil fun p s hp hxs => h ⟨p, s, hp, hxs⟩⟩

/-- **There is one cut**, if no part starts another. -/
theorem unique (hpre : ∀ p q s t, P p → P q → p ++ s = q ++ t → p = q)
    (h : Cut P xs parts rest) (h' : Cut P xs parts' rest') : parts = parts' ∧ rest = rest' := by
  induction parts generalizing xs parts' with
  | nil =>
    cases parts' with
    | nil => exact ⟨rfl, h.eq.symm.trans h'.eq⟩
    | cons q qs =>
      obtain ⟨hq, heq, -⟩ := h'.uncons
      exact absurd (h.eq.symm.trans heq) (h.maximal q _ hq)
  | cons p ps ih =>
    obtain ⟨hp, heq, htail⟩ := h.uncons
    cases parts' with
    | nil => exact absurd (h'.eq.symm.trans heq) (h'.maximal p _ hp)
    | cons q qs =>
      obtain ⟨hq, heq', htail'⟩ := h'.uncons
      have hsame := heq.symm.trans heq'
      obtain rfl := hpre p q _ _ hp hq hsame
      rw [← List.append_cancel_left hsame] at htail'
      obtain ⟨rfl, hrest⟩ := ih htail htail'
      exact ⟨rfl, hrest⟩

end Cut

/-! ## Frames -/

/-- A frame: a length between that of the fixed fields and the limit, and as many octets. -/
def IsFrame (max : Nat) (frame : Bytes) : Prop :=
  ∃ n, Block.length? frame = .ok n ∧ Block.fixedSize ≤ n ∧ n ≤ max ∧
    frame.length = Block.lengthSize + n

/-- The octets start with a length that no frame has. -/
def BadLength (max : Nat) (bs : Bytes) : Prop :=
  ∃ n, Block.length? bs = .ok n ∧ (n < Block.fixedSize ∨ max < n)

namespace Block

/-- The declared length is that of the octets in front. -/
theorem length?_append {bs : Bytes} {n : Nat} (h : length? bs = .ok n) (s : Bytes) :
    length? (bs ++ s) = .ok n := by
  unfold length? at h
  split at h
  · exact h
  · cases h

end Block

section

variable {max : Nat} {frame frame' bs s t : Bytes}

/-- The wire form of a block within the limit is a frame. -/
theorem isFrame_bytes {b : Block} (h : b.Fits) (hmax : b.declared ≤ max) :
    IsFrame max b.bytes := by
  have hlength := Block.length?_bytes_append h []
  rw [List.append_nil] at hlength
  refine ⟨b.declared, hlength, ?_, hmax, Block.length_bytes b⟩
  unfold Block.declared
  omega

theorem IsFrame.ne_nil (h : IsFrame max frame) : frame ≠ [] := by
  rintro rfl
  obtain ⟨n, hn, -⟩ := h
  cases hn

/-- No frame starts another. -/
theorem IsFrame.prefix_free (h : IsFrame max frame) (h' : IsFrame max frame')
    (heq : frame ++ s = frame' ++ t) : frame = frame' := by
  obtain ⟨n, hn, -, -, hlen⟩ := h
  obtain ⟨n', hn', -, -, hlen'⟩ := h'
  have hsame : n = n' := by
    have := Block.length?_append hn s
    rw [heq, Block.length?_append hn' t] at this
    injection this with this
    exact this.symm
  exact List.append_inj_left heq (by rw [hlen, hlen', hsame])

/-- No frame starts octets with a bad length. -/
theorem BadLength.not_frame (h : BadLength max bs) (hf : IsFrame max frame) : bs ≠ frame ++ s := by
  rintro rfl
  obtain ⟨n, hn, hbad⟩ := h
  obtain ⟨n', hn', hlow, hhigh, -⟩ := hf
  rw [Block.length?_append hn'] at hn
  injection hn with hn
  omega

/-- A bad length stays bad, whatever arrives after it. -/
theorem BadLength.append (h : BadLength max bs) (s : Bytes) : BadLength max (bs ++ s) := by
  obtain ⟨n, hn, hbad⟩ := h
  exact ⟨n, Block.length?_append hn s, hbad⟩

end

/-! ## What the splitter cuts -/

namespace Block

theorem checkLength_eq_ok_iff {declared max : Nat} :
    checkLength declared max = .ok () ↔ fixedSize ≤ declared ∧ declared ≤ max := by
  unfold checkLength
  split
  · simp only [reduceCtorEq, false_iff]
    omega
  · split
    · simp only [reduceCtorEq, false_iff]
      omega
    · simp only [true_iff]
      omega

theorem bad_of_checkLength {declared max : Nat} {e : WireError}
    (h : checkLength declared max = .error e) : declared < fixedSize ∨ max < declared := by
  refine Decidable.byContradiction fun hfits => ?_
  rw [checkLength_eq_ok_iff.mpr (by omega)] at h
  cases h

end Block

namespace Splitter

/-- What a step of the splitter says about the buffer. -/
inductive Taken (s : Splitter) : Except WireError (Option Bytes) × Splitter → Prop where
  /-- A frame stood in front and was taken. -/
  | frame {f : Bytes} {s' : Splitter} (hframe : IsFrame s.max f) (hmax : s'.max = s.max)
      (hbuffer : s.buffer = f ++ s'.buffer) : Taken s (.ok (some f), s')
  /-- No frame stands in front yet. -/
  | more (hmore : ∀ f t, IsFrame s.max f → s.buffer ≠ f ++ t) (hgood : ¬BadLength s.max s.buffer) :
      Taken s (.ok none, s)
  /-- No frame will ever stand in front. -/
  | bad {e : WireError} (hbad : BadLength s.max s.buffer) : Taken s (.error e, s)

/-- **A step takes exactly the frame in front.** -/
theorem taken_next (s : Splitter) : s.Taken s.next := by
  unfold next
  split
  case h_1 a b c d rest hb =>
    have hlength : Block.length? s.buffer = .ok (word32 a b c d) := by rw [hb]; rfl
    have hsize : s.buffer.length = 4 + rest.length := by
      rw [hb]
      simp only [List.length_cons]
      omega
    generalize word32 a b c d = declared at hlength ⊢
    dsimp only
    cases hcheck : Block.checkLength declared s.max with
    | error e => exact .bad ⟨declared, hlength, Block.bad_of_checkLength hcheck⟩
    | ok u =>
      obtain ⟨hlow, hhigh⟩ := Block.checkLength_eq_ok_iff.mp hcheck
      dsimp only
      split
      · -- a frame would have to be as long as it declares
        rename_i hshort
        refine .more (fun f t ⟨n, hn, _, _, hf⟩ hbuffer => ?_) fun ⟨n, hn, hbad⟩ => ?_
        · rw [hbuffer, Block.length?_append hn] at hlength
          injection hlength with hlength
          rw [hbuffer, List.length_append, hf, Block.lengthSize] at hsize
          omega
        · rw [hlength] at hn
          injection hn with hn
          omega
      · rename_i hlong
        have htake : (s.buffer.take (Block.lengthSize + declared)).length =
            Block.lengthSize + declared := by
          rw [List.length_take, hsize, Block.lengthSize]
          omega
        have hfront : Block.length? (s.buffer.take (Block.lengthSize + declared)) =
            .ok declared := by
          rw [hb] at hlength ⊢
          rw [Block.lengthSize, Nat.add_comm]
          exact hlength
        exact .frame ⟨declared, hfront, hlow, hhigh, htake⟩ rfl (List.take_append_drop _ _).symm
  case h_2 hshort =>
    have hlength : ∀ n, Block.length? s.buffer ≠ .ok n := by
      intro n hn
      unfold Block.length? at hn
      split at hn
      · rename_i a b c d rest hb
        exact hshort a b c d rest hb
      · cases hn
    refine .more (fun f t ⟨n, hn, _⟩ hbuffer => ?_) fun ⟨n, hn, _⟩ => hlength n hn
    exact hlength n (hbuffer ▸ Block.length?_append hn t)

/-- **The splitter cuts its buffer into frames**, and reports a fault exactly where a bad length
follows them. -/
theorem cut_drain (s : Splitter) :
    Cut (IsFrame s.max) s.buffer s.drain.1 s.drain.2.2.buffer ∧ s.drain.2.2.max = s.max ∧
      (s.drain.2.1 = none ↔ ¬BadLength s.max s.drain.2.2.buffer) := by
  fun_induction drain s with
  | case1 s f s' h hlt r ih =>
    have htaken := s.taken_next
    rw [h] at htaken
    cases htaken with
    | frame hframe hmax hbuffer =>
      rw [hmax] at ih
      obtain ⟨hcut, hlimit, hfault⟩ := ih
      exact ⟨hbuffer ▸ hcut.cons hframe, hlimit, hfault⟩
  | case2 s s' h =>
    have htaken := s.taken_next
    rw [h] at htaken
    cases htaken with
    | more hmore hgood => exact ⟨.nil hmore, rfl, iff_of_true rfl hgood⟩
  | case3 s e s' h =>
    have htaken := s.taken_next
    rw [h] at htaken
    cases htaken with
    | bad hbad =>
      exact ⟨.nil fun f t hf => hbad.not_frame hf, rfl, by simp [hbad]⟩

end Splitter

end Switchboard
