import Switchboard.Routing.Anchor

/-!
# Proofs/Routing/Ranges — two lists of numbers record when a middleware was active

As long as activations and deactivations alternate, the ranges of an anchor are opened and closed at
numbers no later than the counter, and there is one opening more than closings exactly while the
middleware is active (`Anchor.Records`).  That decides the next number (`contains_counter`), and no
later activation or deactivation changes what is decided for the numbers already given
(`contains_activate`, `contains_deactivate`).
-/

namespace Switchboard

namespace Anchor

variable {H : Type} {a : Anchor H} {n m i : Nat} {active : Bool}

/-- **The anchor records a history**: at the counter `n`, with the middleware active or not. -/
structure Records (a : Anchor H) (n : Nat) (active : Bool) : Prop where
  balance : a.starts.length = a.ends.length + active.toNat
  starts_le : ∀ s ∈ a.starts, s ≤ n
  ends_le : ∀ e ∈ a.ends, e ≤ n

/-- Does a closed range cover the number? -/
def closedCovers (a : Anchor H) (i : Nat) : Bool :=
  (a.starts.zip a.ends).any fun r => r.1 ≤ i && i < r.2

theorem isOpen_eq (h : a.Records n active) : a.isOpen = active := by
  have hbalance := h.balance
  rw [isOpen]
  cases active with
  | true =>
    rw [Bool.toNat_true] at hbalance
    exact decide_eq_true (by omega)
  | false =>
    rw [Bool.toNat_false] at hbalance
    exact decide_eq_false (by omega)

/-- While nothing is open, the closed ranges decide. -/
theorem contains_of_not_active (h : a.Records n false) (i : Nat) :
    a.contains i = a.closedCovers i := by
  rw [contains, isOpen_eq h, Bool.false_and, Bool.or_false, closedCovers]

/-- What is open was opened last. -/
theorem contains_of_active (h : a.Records n true) :
    ∃ front s, a.starts = front ++ [s] ∧ front.length = a.ends.length ∧
      ∀ i, a.contains i = (a.closedCovers i || decide (s ≤ i)) := by
  have hbalance := h.balance
  rw [Bool.toNat_true] at hbalance
  have hne : a.starts ≠ [] := List.ne_nil_of_length_eq_add_one hbalance
  refine ⟨a.starts.dropLast, a.starts.getLast hne, (List.dropLast_concat_getLast hne).symm, ?_,
    fun i => ?_⟩
  · rw [List.length_dropLast, hbalance, Nat.add_sub_cancel]
  · rw [contains, isOpen_eq h, List.getLast?_eq_some_getLast hne]
    rfl

/-- No closed range covers the next number. -/
theorem closedCovers_counter (h : a.Records n active) : a.closedCovers n = false := by
  refine List.any_eq_false.mpr fun r hr hcovers => ?_
  have hend := h.ends_le r.2 (List.of_mem_zip hr).2
  have hlt := of_decide_eq_true ((Bool.and_eq_true _ _).mp hcovers).2
  omega

/-- **The next number is covered exactly while the middleware is active.** -/
theorem Records.contains_counter (h : a.Records n active) : a.contains n = active := by
  cases active with
  | false => rw [contains_of_not_active h, closedCovers_counter h]
  | true =>
    obtain ⟨front, s, hstarts, -, hcontains⟩ := contains_of_active h
    have hs : s ≤ n := h.starts_le s (hstarts ▸ List.mem_append_right _ (List.mem_singleton_self s))
    rw [hcontains, decide_eq_true hs, Bool.or_true]

/-! ## Later calls -/

theorem Records.mono (h : a.Records n active) (hle : n ≤ m) : a.Records m active :=
  ⟨h.balance, fun s hs => Nat.le_trans (h.starts_le s hs) hle,
    fun e he => Nat.le_trans (h.ends_le e he) hle⟩

theorem records_ofFirst (key : String) (f : H) (n : Nat) : (ofFirst key f n).Records n true :=
  ⟨rfl, fun _ hs => Nat.le_of_eq (List.mem_singleton.mp hs), fun _ he => absurd he List.not_mem_nil⟩

theorem Records.activate (h : a.Records n false) (f : H) : (a.activate f n).Records n true where
  balance := by
    show (a.starts ++ [n]).length = a.ends.length + 1
    rw [List.length_append, h.balance]
    rfl
  starts_le := fun s hs => (List.mem_append.mp hs).elim (h.starts_le s) fun hs =>
    Nat.le_of_eq (List.mem_singleton.mp hs)
  ends_le := h.ends_le

theorem Records.deactivate (h : a.Records n true) : (a.deactivate n).Records n false where
  balance := by
    show a.starts.length = (a.ends ++ [n]).length
    rw [List.length_append, h.balance]
    rfl
  starts_le := h.starts_le
  ends_le := fun e he => (List.mem_append.mp he).elim (h.ends_le e) fun he =>
    Nat.le_of_eq (List.mem_singleton.mp he)

/-- A middleware used for the first time covers no earlier number. -/
theorem contains_ofFirst (key : String) (f : H) (hi : i < n) :
    (ofFirst key f n).contains i = false := by
  show (false || (true && decide (n ≤ i))) = false
  rw [decide_eq_false (by omega)]
  rfl

/-- **An activation leaves earlier numbers alone**: the range it opens begins after them. -/
theorem Records.contains_activate (h : a.Records n false) (f : H) (hi : i < n) :
    (a.activate f n).contains i = a.contains i := by
  obtain ⟨front, s, hstarts, hlength, hcontains⟩ := contains_of_active (h.activate f)
  have hstarts' : a.starts ++ [n] = front ++ [s] := hstarts
  obtain ⟨rfl, hs⟩ := List.append_inj' hstarts' rfl
  obtain rfl : n = s := List.singleton_inj.mp hs
  have hlength' : a.starts.length = a.ends.length := hlength
  have hclosed : (a.activate f n).closedCovers i = a.closedCovers i := by
    show ((a.starts ++ [n]).zip a.ends).any _ = _
    rw [← List.append_nil a.ends, List.zip_append hlength', List.zip_nil_right, List.append_nil]
    rfl
  rw [hcontains, hclosed, decide_eq_false (by omega), Bool.or_false, contains_of_not_active h]

/-- **A deactivation leaves earlier numbers alone**: the range it closes ends after them. -/
theorem Records.contains_deactivate (h : a.Records n true) (hi : i < n) :
    (a.deactivate n).contains i = a.contains i := by
  obtain ⟨front, s, hstarts, hlength, hcontains⟩ := contains_of_active h
  have hbefore : a.closedCovers i = (front.zip a.ends).any fun r => r.1 ≤ i && i < r.2 := by
    rw [closedCovers, hstarts, ← List.append_nil a.ends, List.zip_append hlength,
      List.zip_nil_right, List.append_nil, List.append_nil]
  have hafter : (a.deactivate n).closedCovers i = (a.closedCovers i || decide (s ≤ i)) := by
    show (a.starts.zip (a.ends ++ [n])).any _ = _
    rw [hbefore, hstarts, List.zip_append hlength, List.any_append]
    show (_ || (decide (s ≤ i) && decide (i < n) || false)) = _
    rw [decide_eq_true hi, Bool.and_true, Bool.or_false]
  rw [contains_of_not_active h.deactivate, hafter, hcontains]

end Anchor

end Switchboard
