import Switchboard.Proofs.Stream.Reads
import Switchboard.Proofs.Stream.Segments

/-!
# Proofs/Stream/Stalls — reading on after a stall

    ── whole frames ── │ ── whole frames, front │ back of the frame, … ──
                     stall                    stall

A read that would block, or in which nothing arrives in time, fails the call, and a patient caller
makes the call again.  But nothing is kept from a failed call: the octets that it took are gone, and
the next one takes what comes after the stall for the start of a frame.  Between frames nothing is
lost (`Source.returns_groups`), inside a frame its front is (`Source.Tear.returns`), and as no
octet is returned twice, reading resumes only if no stall tears a frame (`Source.resumes_iff`).
-/

namespace Switchboard

/-- Did the operation come to nothing for now, so that it may be tried again later? -/
def IoFault.isStall : IoFault → Bool
  | wouldBlock | timedOut | tryAgain => true
  | _ => false

theorem IoFault.ne_interrupted_of_isStall {f : IoFault} (h : f.isStall = true) :
    f ≠ .interrupted := by
  rintro rfl
  cases h

namespace Source

/-- The answers of calls of the reader. -/
abbrev Answers := List (Except WireError (Option Bytes))

/-! ## Scripts with stalls -/

/-- **The coming reads meet the pieces one after another**, in chunks of any sizes and with
interruptions anywhere, a stall between any two of them, and then what `rest` says. -/
inductive Stalls : Source → List Bytes → Source → Prop where
  /-- No stall is left. -/
  | last {s rest : Source} {w : Bytes} (h : Delivers s w rest) : Stalls s [w] rest
  /-- A stall behind the first piece. -/
  | stall {s s' rest : Source} {w : Bytes} {pieces : List Bytes} {f : IoFault}
      (h : Delivers s w (.fault f :: s')) (hf : f.isStall = true) (hmore : Stalls s' pieces rest) :
      Stalls s (w :: pieces) rest

/-- Is the answer a stall? -/
def stalled : Except WireError (Option Bytes) → Bool
  | .error (.io f) => f.isStall
  | _ => false

/-- The answers that are no stalls. -/
def settled (answers : Answers) : Answers := answers.filter fun a => !stalled a

/-- **So many calls return just these frames**, stalls aside, and lead to `s'`. -/
structure Returns (max n : Nat) (s : Source) (frames : List Bytes) (s' : Source) : Prop where
  settled_eq : settled (readTimes max n s).1 = frames.map fun f => .ok (some f)
  left_eq : (readTimes max n s).2 = s'

/-- **Reading resumes after stalls**: as many calls as there are frames and stalls return the frames
in order, stalls aside, so that none of them returns anything else. -/
def Resumes (max : Nat) (frames : List Bytes) (stalls : Nat) (s : Source) : Prop :=
  ∃ s', Returns max (frames.length + stalls) s frames s'

/-! ## Where stalls fall -/

/-- **Every stall falls between frames**: each piece is a group of whole frames. -/
def Grouped (frames pieces : List Bytes) : Prop :=
  ∃ groups : List (List Bytes), frames = groups.flatten ∧ pieces = groups.map List.flatten

/-- **A stall falls inside a frame**, the first one to do so. -/
structure Tear (frames pieces : List Bytes) where
  /-- The groups of frames in front of earlier stalls. -/
  groups : List (List Bytes)
  /-- The frames behind those stalls that are whole. -/
  whole : List Bytes
  /-- What comes of the torn frame before the stall. -/
  front : Bytes
  /-- What comes of it after the stall. -/
  back : Bytes
  /-- The frames behind it. -/
  after : List Bytes
  /-- The pieces after the stall. -/
  more : List Bytes
  frames_eq : frames = groups.flatten ++ whole ++ (front ++ back) :: after
  pieces_eq : pieces = groups.map List.flatten ++ (whole.flatten ++ front) :: more
  more_eq : more.flatten = back ++ after.flatten
  front_ne : front ≠ []
  back_ne : back ≠ []

variable {s s' rest : Source} {frames whole pieces : List Bytes} {front w : Bytes} {max : Nat}

/-- The frames in front of the torn one. -/
def Tear.before (t : Tear frames pieces) : List Bytes := t.groups.flatten ++ t.whole

/-- The calls up to the stall inside the frame, including the one that meets it. -/
def Tear.calls (t : Tear frames pieces) : Nat := t.before.length + t.groups.length + 1

theorem Tear.more_ne (t : Tear frames pieces) : t.more ≠ [] := by
  intro hmore
  have hnil := t.more_eq
  rw [hmore] at hnil
  exact t.back_ne (List.append_eq_nil_iff.mp hnil.symm).1

/-- As many calls as there are frames and stalls go on behind the torn frame. -/
theorem Tear.length_eq (t : Tear frames pieces) :
    frames.length + (pieces.length - 1) = t.calls + (t.after.length + t.more.length) := by
  have hframes := congrArg List.length t.frames_eq
  have hpieces := congrArg List.length t.pieces_eq
  simp only [List.length_append, List.length_cons, List.length_map] at hframes hpieces
  rw [calls, before, List.length_append]
  omega

/-- One more group of frames in front. -/
def Tear.cons (t : Tear frames pieces) (group : List Bytes) :
    Tear (group ++ frames) (group.flatten :: pieces) :=
  { t with
    groups := group :: t.groups
    frames_eq := by
      rw [List.flatten_cons, List.append_assoc, List.append_assoc]
      exact congrArg (group ++ ·) (t.frames_eq.trans (List.append_assoc ..))
    pieces_eq := by rw [List.map_cons, List.cons_append, ← t.pieces_eq] }

theorem Grouped.cons (h : Grouped frames pieces) (group : List Bytes) :
    Grouped (group ++ frames) (group.flatten :: pieces) := by
  obtain ⟨groups, rfl, rfl⟩ := h
  exact ⟨group :: groups, rfl, rfl⟩

/-- What stands in front of the octets of frames ends between two frames or inside one. -/
theorem flatten_cases {t : Bytes} (h : frames.flatten = w ++ t) :
    (∃ whole left, frames = whole ++ left ∧ w = whole.flatten ∧ left.flatten = t) ∨
      ∃ whole front back after, frames = whole ++ (front ++ back) :: after ∧
        w = whole.flatten ++ front ∧ t = back ++ after.flatten ∧ front ≠ [] ∧ back ≠ [] := by
  obtain ⟨whole, left, rfl, rfl, rfl⟩ | ⟨whole, front, b, back, after, rfl, rfl, rfl⟩ :=
    List.flatten_eq_append_iff.mp h
  · exact .inl ⟨whole, left, rfl, rfl, rfl⟩
  · by_cases hfront : front = []
    · subst hfront
      exact .inl ⟨whole, _, rfl, List.append_nil _, rfl⟩
    · exact .inr ⟨whole, front, b :: back, after, rfl, rfl, rfl, hfront, List.cons_ne_nil _ _⟩

/-- **The stalls fall between frames, or the first one that does not tears a frame.** -/
theorem grouped_or_tear (hne : pieces ≠ []) (h : frames.flatten = pieces.flatten) :
    Grouped frames pieces ∨ Nonempty (Tear frames pieces) := by
  induction pieces generalizing frames with
  | nil => exact absurd rfl hne
  | cons w pieces ih =>
    by_cases hpieces : pieces = []
    · -- the last piece takes all frames that are left
      subst hpieces
      rw [List.flatten_cons, List.flatten_nil, List.append_nil] at h
      exact .inl ⟨[frames], (List.append_nil _).symm, congrArg ([·]) h.symm⟩
    · rw [List.flatten_cons] at h
      obtain ⟨whole, left, rfl, rfl, hleft⟩ |
        ⟨whole, front, back, after, rfl, rfl, hmore, hfront, hback⟩ := flatten_cases h
      · rcases ih hpieces hleft with hgrouped | ⟨⟨t⟩⟩
        · exact .inl (hgrouped.cons whole)
        · exact .inr ⟨t.cons whole⟩
      · exact .inr ⟨⟨[], whole, front, back, after, pieces, rfl, rfl, hmore, hfront, hback⟩⟩

/-! ## Calls up to a stall -/

theorem readTimes_add (max m n : Nat) (s : Source) :
    readTimes max (m + n) s =
      ((readTimes max m s).1 ++ (readTimes max n (readTimes max m s).2).1,
        (readTimes max n (readTimes max m s).2).2) := by
  induction m generalizing s with
  | zero => rw [Nat.zero_add]; rfl
  | succ m ih => rw [Nat.succ_add, readTimes, readTimes, ih]; rfl

theorem settled_append (answers answers' : Answers) :
    settled (answers ++ answers') = settled answers ++ settled answers' := List.filter_append ..

theorem settled_frames (frames : List Bytes) :
    settled (frames.map fun f => .ok (some f)) = frames.map fun f => .ok (some f) :=
  List.filter_eq_self.mpr fun a ha => by
    obtain ⟨f, -, rfl⟩ := List.mem_map.mp ha
    rfl

/-- What is left of the answers, given what earlier calls returned. -/
theorem Returns.settled_add {m : Nat} (h : Returns max m s frames s') (n : Nat) :
    settled (readTimes max (m + n) s).1 =
      (frames.map fun f => .ok (some f)) ++ settled (readTimes max n s').1 := by
  rw [readTimes_add, settled_append, h.settled_eq, h.left_eq]

theorem Returns.trans {m n : Nat} {more : List Bytes} {s₁ s₂ : Source}
    (h : Returns max m s frames s₁) (h' : Returns max n s₁ more s₂) :
    Returns max (m + n) s (frames ++ more) s₂ where
  settled_eq := by rw [h.settled_add, h'.settled_eq, List.map_append]
  left_eq := by rw [readTimes_add, h.left_eq, h'.left_eq]

theorem returns_frames (hframes : ∀ f ∈ frames, IsFrame max f)
    (h : Delivers s (frames.flatten ++ w) rest) :
    ∃ s', Returns max frames.length s frames s' ∧ Delivers s' w rest := by
  obtain ⟨s', hread, hs'⟩ := readTimes_frames hframes h (Nat.le_refl _)
  rw [List.take_length] at hread
  rw [List.drop_length, List.flatten_nil, List.nil_append] at hs'
  exact ⟨s', ⟨by rw [hread, settled_frames], by rw [hread]⟩, hs'⟩

theorem returns_stall {f : IoFault} (hf : f.isStall = true)
    (h : readBlock max s = (.error (.io f), s')) : Returns max 1 s [] s' where
  settled_eq := by
    rw [readTimes, h]
    exact List.filter_cons_of_neg (by simp [stalled, hf])
  left_eq := by rw [readTimes, h]; rfl

/-- The front of a frame is not there as a whole. -/
theorem incomplete_of_isFrame {back : Bytes} (h : IsFrame max (front ++ back)) (hback : back ≠ []) :
    Incomplete max front := by
  obtain ⟨n, hn, hlow, hhigh, hlength⟩ := h
  rcases Nat.lt_or_ge front.length Block.lengthSize with hlt | hle
  · exact .inl hlt
  · have htake := (length?_take hn).1
    rw [List.take_append_of_le_length hle] at htake
    have hfront := Block.length?_append htake (front.drop Block.lengthSize)
    rw [List.take_append_drop] at hfront
    have hpos := List.length_pos_iff.mpr hback
    rw [List.length_append] at hlength
    exact .inr ⟨n, hfront, hlow, hhigh, by omega⟩

/-- **The calls up to a stall** return the frames that are whole and then the stall.  The octets
between them are gone. -/
theorem returns_piece {f : IoFault} (hwhole : ∀ f ∈ whole, IsFrame max f)
    (hfront : Incomplete max front) (h : Delivers s (whole.flatten ++ front) (.fault f :: s'))
    (hf : f.isStall = true) : Returns max (whole.length + 1) s whole s' := by
  obtain ⟨t, hreturns, ht⟩ := returns_frames hwhole h
  have hstall : readBlock max t = (.error (.io f), s') :=
    (tailAnswers_of_delivers max ht).fault f s' (IoFault.ne_interrupted_of_isStall hf) rfl hfront
  simpa using hreturns.trans (returns_stall hf hstall)

theorem Stalls.ne_nil (h : Stalls s pieces rest) : pieces ≠ [] := by
  cases h <;> exact List.cons_ne_nil _ _

/-- The last piece. -/
theorem Stalls.delivers (h : Stalls s [w] rest) : Delivers s w rest := by
  cases h with
  | last h => exact h
  | stall _ _ hmore => exact absurd rfl hmore.ne_nil

/-- A piece before others. -/
theorem Stalls.uncons (h : Stalls s (w :: pieces) rest) (hne : pieces ≠ []) :
    ∃ f s', f.isStall = true ∧ Delivers s w (.fault f :: s') ∧ Stalls s' pieces rest := by
  cases h with
  | last _ => exact absurd rfl hne
  | stall h hf hmore => exact ⟨_, _, hf, h, hmore⟩

/-- **Between frames nothing is lost to stalls.** -/
theorem returns_groups {groups : List (List Bytes)} {more : List Bytes}
    (hframes : ∀ f ∈ groups.flatten, IsFrame max f)
    (h : Stalls s (groups.map List.flatten ++ more) rest) (hmore : more ≠ []) :
    ∃ s', Returns max (groups.flatten.length + groups.length) s groups.flatten s' ∧
      Stalls s' more rest := by
  induction groups generalizing s with
  | nil => exact ⟨s, ⟨rfl, rfl⟩, h⟩
  | cons group groups ih =>
    obtain ⟨hgroup, hgroups⟩ := List.forall_mem_append.mp hframes
    obtain ⟨f, t, hf, hs, ht⟩ := Stalls.uncons h (List.append_ne_nil_of_right_ne_nil _ hmore)
    rw [← List.append_nil group.flatten] at hs
    have hfirst := returns_piece hgroup (.inl (by decide)) hs hf
    obtain ⟨s', hreturns, hs'⟩ := ih hgroups ht
    have hcount : (group :: groups).flatten.length + (group :: groups).length =
        group.length + 1 + (groups.flatten.length + groups.length) := by
      rw [List.flatten_cons, List.length_append, List.length_cons]
      omega
    exact ⟨s', hcount ▸ hfirst.trans hreturns, hs'⟩

/-- **Inside a frame its front is lost to a stall**, and the next call starts behind it. -/
theorem Tear.returns (t : Tear frames pieces) (hframes : ∀ f ∈ frames, IsFrame max f)
    (h : Stalls s pieces rest) :
    ∃ s', Returns max t.calls s t.before s' ∧ Stalls s' t.more rest := by
  rw [t.frames_eq, List.append_assoc] at hframes
  obtain ⟨hgroups, hrest⟩ := List.forall_mem_append.mp hframes
  obtain ⟨hwhole, htorn⟩ := List.forall_mem_append.mp hrest
  rw [t.pieces_eq] at h
  obtain ⟨s₁, hreturns, hs₁⟩ := returns_groups hgroups h (List.cons_ne_nil _ _)
  obtain ⟨f, s₂, hf, hdelivers, hs₂⟩ := hs₁.uncons t.more_ne
  have hstall := returns_piece hwhole
    (incomplete_of_isFrame (htorn _ List.mem_cons_self) t.back_ne) hdelivers hf
  have hcount : t.calls = t.groups.flatten.length + t.groups.length + (t.whole.length + 1) := by
    rw [Tear.calls, Tear.before, List.length_append]
    omega
  exact ⟨s₂, hcount ▸ hreturns.trans hstall, hs₂⟩

/-! ## No octet is returned twice -/

/-- The octets of the blocks among the answers. -/
def returned (answers : Answers) : Bytes :=
  answers.flatMap fun
    | .ok (some b) => b
    | _ => []

theorem returned_append (answers answers' : Answers) :
    returned (answers ++ answers') = returned answers ++ returned answers' := List.flatMap_append

theorem returned_frames (frames : List Bytes) :
    returned (frames.map fun f => .ok (some f)) = frames.flatten := by
  rw [returned, List.flatMap_map, List.flatMap_id']

/-- A stall returns nothing. -/
theorem returned_settled (answers : Answers) : returned (settled answers) = returned answers := by
  induction answers with
  | nil => rfl
  | cons a answers ih =>
    rw [settled, List.filter_cons]
    split
    · exact congrArg (_ ++ ·) ih
    · rename_i hstalled
      have hnothing : ∀ b, a ≠ .ok (some b) := by
        rintro b rfl
        exact hstalled rfl
      rw [← settled, ih, returned, returned, List.flatMap_cons]
      split
      · exact absurd rfl (hnothing _)
      · rfl

/-- A call leaves no more than was still to come. -/
theorem length_pending_readBlock (max : Nat) (s : Source) :
    (readBlock max s).2.pending.length ≤ s.pending.length := by
  have hfill (want : Nat) (s : Source) :
      (fill want s).rest.pending.length ≤ s.pending.length := by
    rw [pending_fill want s, List.length_append]
    exact Nat.le_add_left _ _
  have hstart := hfill Block.lengthSize s
  unfold readBlock
  dsimp only
  split
  · exact hstart
  · split
    · exact hstart
    · split
      · exact hstart
      · have hbody := fun want => Nat.le_trans (hfill want _) hstart
        split
        · exact hbody _
        · split <;> exact hbody _
    · exact hstart

/-- **No more octets are returned than were still to come.** -/
theorem length_returned_readTimes (max n : Nat) (s : Source) :
    (returned (readTimes max n s).1).length ≤ s.pending.length := by
  induction n generalizing s with
  | zero => exact Nat.zero_le _
  | succ n ih =>
    have hmore := ih (readBlock max s).2
    rw [readTimes, returned, List.flatMap_cons, List.length_append]
    split
    · rename_i b hb
      have hpending := (pending_readBlock (Prod.ext hb rfl : readBlock max s = (_, _))).1
      rw [hpending, List.length_append]
      exact Nat.add_le_add_left hmore _
    · rw [List.length_nil, Nat.zero_add]
      exact Nat.le_trans hmore (length_pending_readBlock max s)

theorem Stalls.pending (h : Stalls s pieces rest) : s.pending = pieces.flatten ++ rest.pending := by
  induction h with
  | last h =>
    rw [pending_of_delivers h, List.flatten_cons, List.flatten_nil, List.append_nil]
  | stall h hf hmore ih =>
    rw [pending_of_delivers h, List.flatten_cons, List.append_assoc, ← ih]
    rfl

/-! ## When reading resumes -/

/-- **Reading resumes behind stalls between frames.** -/
theorem Grouped.resumes (h : Grouped frames pieces) (hframes : ∀ f ∈ frames, IsFrame max f)
    (hs : Stalls s pieces rest) : Resumes max frames (pieces.length - 1) s := by
  obtain ⟨groups, rfl, rfl⟩ := h
  rcases List.eq_nil_or_concat groups with rfl | ⟨groups, last, rfl⟩
  · exact absurd rfl hs.ne_nil
  rw [List.concat_eq_append] at hframes hs ⊢
  rw [List.flatten_concat] at hframes ⊢
  obtain ⟨hgroups, hlast⟩ := List.forall_mem_append.mp hframes
  rw [List.map_append] at hs
  obtain ⟨s', hreturns, hs'⟩ := returns_groups hgroups hs (List.cons_ne_nil _ _)
  have hdelivers := hs'.delivers
  rw [← List.append_nil last.flatten] at hdelivers
  obtain ⟨t, hlast', -⟩ := returns_frames hlast hdelivers
  have hcount : (groups.flatten ++ last).length +
      (((groups ++ [last]).map List.flatten).length - 1) =
        groups.flatten.length + groups.length + last.length := by
    simp only [List.length_append, List.length_map, List.length_singleton]
    omega
  exact ⟨t, hcount ▸ hreturns.trans hlast'⟩

/-- **Reading does not resume behind a torn frame**: its front would have to be returned too. -/
theorem Tear.not_resumes (t : Tear frames pieces) (hframes : ∀ f ∈ frames, IsFrame max f)
    (hs : Stalls s pieces rest) (hrest : rest.pending = []) :
    ¬Resumes max frames (pieces.length - 1) s := by
  rintro ⟨_, ⟨hall, -⟩⟩
  obtain ⟨s', hreturns, hs'⟩ := t.returns hframes hs
  rw [t.length_eq, hreturns.settled_add] at hall
  have hreturned := congrArg returned hall
  rw [returned_append, returned_frames, returned_frames, returned_settled] at hreturned
  have hle := length_returned_readTimes max (t.after.length + t.more.length) s'
  rw [hs'.pending, hrest, List.append_nil, t.more_eq] at hle
  -- the octets behind the frames in front would be the front, the back and all after them
  have hlength := congrArg List.length hreturned
  have hframes_eq := congrArg (List.length ∘ List.flatten) t.frames_eq
  have hpos := List.length_pos_iff.mpr t.front_ne
  simp only [Function.comp_apply, List.flatten_append, List.flatten_cons, List.length_append,
    Tear.before] at hlength hframes_eq hle
  omega

/-- **When reading resumes.**  A reader whose calls are made again after each stall returns the
frames just if no stall falls inside a frame.  Where one does, all goes well up to it, but what came
of the frame before the stall is lost, and the next call reads on from inside the frame. -/
theorem resumes_iff (max : Nat) (frames pieces : List Bytes) (s rest : Source)
    (hframes : ∀ f ∈ frames, IsFrame max f) (hs : Stalls s pieces rest) (hrest : rest.pending = [])
    (h : frames.flatten = pieces.flatten) :
    (Resumes max frames (pieces.length - 1) s ↔ Grouped frames pieces) ∧
      ∀ t : Tear frames pieces, ∃ s', Returns max t.calls s t.before s' ∧ Stalls s' t.more rest ∧
        s'.pending = t.back ++ t.after.flatten := by
  refine ⟨⟨fun hresumes => ?_, fun hgrouped => hgrouped.resumes hframes hs⟩, fun t => ?_⟩
  · rcases grouped_or_tear hs.ne_nil h with hgrouped | ⟨⟨t⟩⟩
    · exact hgrouped
    · exact absurd hresumes (t.not_resumes hframes hs hrest)
  · obtain ⟨s', hreturns, hs'⟩ := t.returns hframes hs
    exact ⟨s', hreturns, hs', by rw [hs'.pending, hrest, List.append_nil, t.more_eq]⟩

/-- Two frames with stalls between and behind them, and interruptions inside. -/
theorem resumes_iff_between :
    let first : Bytes := [0, 0, 0, 12, 0, 0, 0, 1, 0, 0, 0, 0, 0, 0, 0, 0]
    let second : Bytes := [0, 0, 0, 13, 0, 0, 0, 2, 0, 0, 0, 0, 0, 0, 0, 1, 48]
    let s : Source := [.octets [0, 0], .fault .interrupted,
      .octets [0, 12, 0, 0, 0, 1, 0, 0, 0, 0, 0, 0, 0, 0], .fault .wouldBlock,
      .octets [0, 0, 0, 13, 0, 0, 0], .octets [2, 0, 0, 0, 0, 0, 0, 0, 1, 48], .fault .tryAgain]
    (∀ f ∈ [first, second], IsFrame 13 f) ∧ Stalls s [first, second, []] [] ∧
      pending [] = [] ∧ [first, second].flatten = [first, second, []].flatten ∧
      Resumes 13 [first, second] 2 s := by
  intro first second s
  have hfirst : IsFrame 13 first := ⟨12, rfl, by decide, by decide, rfl⟩
  have hsecond : IsFrame 13 second := ⟨13, rfl, by decide, by decide, rfl⟩
  have hframes : ∀ f ∈ [first, second], IsFrame 13 f :=
    List.forall_mem_cons.mpr ⟨hfirst, List.forall_mem_singleton.mpr hsecond⟩
  have hs : Stalls s [first, second, []] [] :=
    .stall (.octets _ (.interrupted (.octets _ .nil))) rfl
      (.stall (.octets _ (.octets _ .nil)) rfl (.last .nil))
  exact ⟨hframes, hs, rfl, rfl, (resumes_iff 13 [first, second] [first, second, []] s [] hframes hs
    rfl rfl).1.mpr ⟨[[first], [second], []], rfl, rfl⟩⟩

/-- A frame whose body looks like a frame is torn in front of it, and its body is returned. -/
theorem not_resumes_torn :
    let front : Bytes := [0, 0, 0, 28, 0, 0, 0, 1, 0, 0, 0, 0, 0, 0, 0, 16]
    let body : Bytes := [0, 0, 0, 12, 0, 0, 0, 2, 0, 0, 0, 0, 0, 0, 0, 0]
    let s : Source := [.octets front, .fault .timedOut, .octets body]
    IsFrame 28 (front ++ body) ∧ Stalls s [front, body] [] ∧
      (readTimes 28 2 s).1 = [.error (.io .timedOut), .ok (some body)] ∧
      ¬Resumes 28 [front ++ body] 1 s := by
  intro front body s
  have hanswers : (readTimes 28 2 s).1 = [.error (.io .timedOut), .ok (some body)] := rfl
  refine ⟨⟨28, rfl, by decide, by decide, rfl⟩,
    .stall (.octets _ .nil) rfl (.last (.octets _ .nil)), hanswers, ?_⟩
  rintro ⟨_, ⟨hsettled, -⟩⟩
  have hreturned : body = front ++ body := by
    have h := congrArg returned hsettled
    rwa [returned_settled, returned_frames, List.length_singleton, hanswers] at h
  exact absurd hreturned (by decide)

end Source

end Switchboard
