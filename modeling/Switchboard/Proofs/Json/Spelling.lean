import Switchboard.Proofs.Json.Doubles
import Switchboard.Proofs.Json.Rounding

/-!
# Proofs/Json/Spelling — decimals that are not too large are accepted

A decimal spells digits and a power of ten (`Spells`).  The reader keeps as many of the digits as
fit 64 bits and makes up for the others with the power (`exists_collect`), so it accepts the decimal
if it can scale whatever it may have kept (`Scalable`, `Spells.accepts`).
-/

namespace Switchboard.Json.Reader

/-- The reading succeeds, and exactly `rest` is left. -/
def Accepts {α : Type} (r : Reading α) (rest : Bytes) : Prop := ∃ a, r = .ok (a, rest)

/-! ## Digits that fit -/

/-- The largest number that digits are collected to. -/
abbrev maxSignificand : Nat := 0xFFFF_FFFF_FFFF_FFFF

theorem foldl_onto_append (ds : Bytes) (n : Nat) :
    ds.foldl onto n = n * 10 ^ ds.length + ds.foldl onto 0 := by
  induction ds generalizing n with
  | nil => simp
  | cons d ds ih =>
    rw [List.foldl_cons, List.foldl_cons, ih (onto n d), ih (onto 0 d), List.length_cons,
      Nat.pow_succ', onto, onto]
    ring

/-- **The digits in front that fit**, and those that are left. -/
structure Leads (max n : Nat) (ds : Bytes) (m : Nat) (left : Bytes) : Prop where
  le_max : m ≤ max
  le : m * 10 ^ left.length ≤ ds.foldl onto n
  all : ds.foldl onto n ≤ max → left = []
  eq : left = [] → m = ds.foldl onto n

/-- **As many digits are collected as fit.** -/
theorem exists_collect {max : Nat} {ds rest : Bytes} (hds : ∀ d ∈ ds, isDigit d)
    (hrest : EndsDigits rest) {n : Nat} (hn : n ≤ max) (count : Nat) : ∃ m k left,
      collect max n count (ds ++ rest) = (m, count + k, left ++ rest) ∧
        k + left.length = ds.length ∧ (∀ d ∈ left, isDigit d) ∧ Leads max n ds m left := by
  induction ds generalizing n count with
  | nil =>
    have hleads : Leads max n [] n [] := ⟨hn, by simp, fun _ => rfl, fun _ => rfl⟩
    cases rest with
    | nil => exact ⟨n, 0, [], rfl, rfl, List.forall_mem_nil _, hleads⟩
    | cons b rest =>
      rw [List.nil_append, collect, hrest b rfl]
      exact ⟨n, 0, [], rfl, rfl, List.forall_mem_nil _, hleads⟩
  | cons d ds ih =>
    obtain ⟨hd, hdigits⟩ := List.forall_mem_cons.mp hds
    rw [List.cons_append, collect, hd, Bool.true_and]
    by_cases hfits : n * 10 + digit d ≤ max
    · rw [if_pos (decide_eq_true hfits)]
      obtain ⟨m, k, left, hcollect, hlength, hleft, hleads⟩ := ih hdigits hfits (count + 1)
      refine ⟨m, k + 1, left, ?_, ?_, hleft, hleads.le_max, hleads.le, hleads.all, hleads.eq⟩
      · rw [hcollect, Nat.add_assoc, Nat.add_comm 1 k]
      · rw [List.length_cons, ← hlength]
        omega
    · rw [if_neg (by simpa using hfits)]
      refine ⟨n, 0, d :: ds, rfl, by simp, hds, hn, ?_, fun hle => absurd ?_ hfits,
        fun hnil => absurd hnil (List.cons_ne_nil d ds)⟩
      · rw [foldl_onto_append]
        exact Nat.le_add_right _ _
      · exact Nat.le_trans (le_foldl_onto ds (onto n d)) hle

/-! ## What is scaled -/

/-- However many of the digits are kept, and whatever power of ten makes up for the others, they are
scaled. -/
def Scalable (n : Nat) (exponent : Int) : Prop :=
  ∀ m j : Nat, m ≤ maxSignificand → m * 10 ^ j ≤ n → (n ≤ maxSignificand → m = n ∧ j = 0) →
    (scale m (exponent + j)).isSome = true

variable {rest : Bytes} {m : Nat} {e : Int}

theorem accepts_scaled (h : (scale m e).isSome = true) (negative : Bool) :
    Accepts (scaled negative m e rest) rest := by
  obtain ⟨x, hx⟩ := Option.isSome_iff_exists.mp h
  rw [scaled, hx]
  exact ⟨_, rfl⟩

/-- Nothing gets too large by dividing. -/
theorem isSome_scale_of_nonpos (hm : m ≤ maxSignificand) (he : e ≤ 0) :
    (scale m e).isSome = true := by
  rcases Int.lt_or_eq_of_le he with hlt | rfl
  · rw [scale]
    dsimp only
    rw [if_neg (by omega), if_neg (by omega)]
    rfl
  · refine Rounding.isSome_scale (Nat.lt_succ_of_le hm) ?_
    have hdigits : (m : ℚ) ≤ 10 ^ 20 := by exact_mod_cast Nat.le_trans hm (by decide)
    have hslack : Rounding.slack ^ 2 ≤ 10 := by norm_num [Rounding.slack]
    rw [zpow_zero, mul_one]
    calc (m : ℚ) * Rounding.slack ^ 2 ≤ 10 ^ 20 * 10 :=
          mul_le_mul hdigits hslack (sq_nonneg _) (by positivity)
      _ = 10 ^ 21 := (pow_succ 10 20).symm
      _ < Rounding.top := Rounding.pow_ten_lt_top (by decide)

/-! ## Exponents -/

/-- No exponent, or one with its sign. -/
inductive Exponent : Bytes → Int → Prop where
  | none : Exponent [] 0
  | up {x : Nat} (hx : x ≤ maxExponent) : Exponent (0x65 :: 0x2b :: numeral x) x
  | down (x : Nat) : Exponent (0x65 :: 0x2d :: numeral x) (-x)

theorem Exponent.isExponent {text : Bytes} {x : Int} (h : Exponent text x) : IsExponent text := by
  cases h with
  | none => exact .none
  | up => exact .mark (.inl rfl) (digits_decimal _)
  | down => exact .mark (.inr rfl) (digits_decimal _)

section ExponentPart

variable {d sign : UInt8} {input : Bytes} {n k : Nat}

/-- An exponent whose digits are all collected. -/
theorem exponentPart_of_collect (hsign : sign = 0x2b ∨ sign = 0x2d) (hd : isDigit d = true)
    (hcollect : collect maxExponent (digit d) 1 input = (n, k, rest)) (hrest : EndsDigits rest)
    (negative : Bool) : exponentPart negative m e (sign :: d :: input) =
      scaled negative m (if sign = 0x2d then e - n else e + n) rest := by
  unfold exponentPart
  rcases hsign with rfl | rfl <;> dsimp only [List.head?_cons, List.tail_cons] <;>
    simp only [decide_true, Bool.or_true, Bool.true_or, if_true, hd, hcollect]
  all_goals
    cases rest with
    | nil => rfl
    | cons b rest => simp only [hrest b rfl]; rfl

/-- A negative exponent with more digits than are collected. -/
theorem exponentPart_of_left {c : UInt8} (hd : isDigit d = true) (hc : isDigit c = true)
    (hcollect : collect maxExponent (digit d) 1 input = (n, k, c :: rest)) (negative : Bool) :
    exponentPart negative m e (0x2d :: d :: input) =
      .ok (signed negative 0, rest.dropWhile isDigit) := by
  unfold exponentPart
  dsimp only [List.head?_cons, List.tail_cons]
  simp only [decide_true, Bool.true_or, if_true, hd, hcollect, hc]
  exact if_neg fun h => Bool.false_ne_true h.2

/-- An exponent starts with a digit. -/
theorem exists_cons_numeral (x : Nat) : ∃ d ds, numeral x = d :: ds ∧ isDigit d = true ∧
    (∀ c ∈ ds, isDigit c = true) ∧ ds.foldl onto (digit d) = x := by
  have hdigits : Digits (numeral x) := digits_decimal x
  obtain ⟨d, ds, hds⟩ := List.exists_cons_of_ne_nil hdigits.ne_nil
  obtain ⟨hd, hmore⟩ := List.forall_mem_cons.mp (hds ▸ hdigits.isDigit)
  refine ⟨d, ds, hds, hd, hmore, ?_⟩
  rw [← foldl_onto_numeral x, hds, List.foldl_cons, onto, Nat.zero_mul, Nat.zero_add]

end ExponentPart

theorem accepts_exponentPart_up {x : Nat} (hx : x ≤ maxExponent) (hrest : EndsNumber rest)
    (h : (scale m (e + x)).isSome = true) (negative : Bool) :
    Accepts (exponentPart negative m e (0x2b :: numeral x ++ rest)) rest := by
  obtain ⟨d, ds, hds, hd, hdigits, hvalue⟩ := exists_cons_numeral x
  have hcollect := collect_append hdigits hrest.endsDigits (digit d) 1 (hvalue.le.trans hx)
  rw [hvalue] at hcollect
  rw [hds, List.cons_append, List.cons_append,
    exponentPart_of_collect (.inl rfl) hd hcollect hrest.endsDigits, if_neg (by decide)]
  exact accepts_scaled h negative

theorem accepts_exponentPart_down (x : Nat) (hrest : EndsNumber rest) (hm : m ≤ maxSignificand)
    (he : e ≤ 0) (negative : Bool) :
    Accepts (exponentPart negative m e (0x2d :: numeral x ++ rest)) rest := by
  obtain ⟨d, ds, hds, hd, hdigits, -⟩ := exists_cons_numeral x
  obtain ⟨n, k, left, hcollect, hleft⟩ :=
    collect_digits maxExponent hdigits hrest.endsDigits (digit d) 1
  rw [hds, List.cons_append, List.cons_append]
  cases left with
  | nil =>
    rw [exponentPart_of_collect (.inr rfl) hd hcollect hrest.endsDigits, if_pos rfl]
    exact accepts_scaled (isSome_scale_of_nonpos hm (by omega)) negative
  | cons c left =>
    obtain ⟨hc, hmore⟩ := List.forall_mem_cons.mp hleft
    rw [List.cons_append] at hcollect
    rw [exponentPart_of_left hd hc hcollect, dropWhile_isDigit hmore hrest.endsDigits]
    exact ⟨_, rfl⟩

/-- **What follows the digits is accepted**, if the power of ten is not too large. -/
theorem accepts_afterFraction {text : Bytes} {x : Int} (htext : Exponent text x)
    (hrest : EndsNumber rest) (hm : m ≤ maxSignificand) (he : e ≤ 0)
    (h : (scale m (e + x)).isSome = true) (negative : Bool) :
    Accepts (afterFraction negative m e (text ++ rest)) rest := by
  cases htext with
  | none =>
    rw [Int.add_zero] at h
    rw [List.nil_append]
    cases rest with
    | nil => exact accepts_scaled h negative
    | cons b rest =>
      obtain ⟨-, -, hlower, hupper⟩ := hrest b rfl
      simp only [afterFraction, decide_eq_false hlower, decide_eq_false hupper, Bool.or_false,
        Bool.false_eq_true, if_false]
      exact accepts_scaled h negative
  | up hx => exact accepts_exponentPart_up hx hrest h negative
  | down x => exact accepts_exponentPart_down x hrest hm he negative

/-! ## Decimals -/

/-- No fraction, or a point and its digits. -/
inductive Fraction : Bytes → Bytes → Prop where
  | none : Fraction [] []
  | point {ds : Bytes} (hds : Digits ds) : Fraction (0x2e :: ds) ds

/-- Digits before the point: there is no zero in front of others, and they fit. -/
structure Whole (ds : Bytes) : Prop extends Digits ds where
  leading : ∀ tail, ds = 0x30 :: tail → tail = []
  fits : ds.foldl onto 0 ≤ maxSignificand

/-- **A decimal and what it spells**: all its digits as one number, and a power of ten. -/
inductive Spells : Bytes → Nat → Int → Prop where
  | parts {whole fraction ds exponent : Bytes} {x : Int} (hwhole : Whole whole)
      (hfraction : Fraction fraction ds) (hexponent : Exponent exponent x) :
      Spells (whole ++ (fraction ++ exponent)) ((whole ++ ds).foldl onto 0) (x - ds.length)

/-- The digits before the point are read. -/
theorem number_whole {whole : Bytes} (h : Whole whole) (hrest : EndsDigits rest) (negative : Bool) :
    number negative (whole ++ rest) = afterInteger negative (whole.foldl onto 0) 0 rest := by
  obtain ⟨d, ds, rfl⟩ := List.exists_cons_of_ne_nil h.ne_nil
  obtain ⟨hd, hds⟩ := List.forall_mem_cons.mp h.isDigit
  rw [List.cons_append, number]
  by_cases hzero : d = 0x30
  · obtain rfl := h.leading ds (by rw [hzero])
    have hhead : (rest.head?.map isDigit).getD false = false := by
      cases rest with
      | nil => rfl
      | cons b rest => exact hrest b rfl
    rw [if_pos hzero, List.nil_append, hhead, hzero]
    rfl
  · have hfits := h.fits
    have hvalue : (d :: ds).foldl onto 0 = ds.foldl onto (digit d) := by
      rw [List.foldl_cons, onto, Nat.zero_mul, Nat.zero_add]
    rw [hvalue] at hfits ⊢
    have hnodigits : ∀ d ∈ ([] : Bytes), isDigit d := List.forall_mem_nil _
    have hnone : rest.takeWhile isDigit = [] := takeWhile_isDigit hnodigits hrest
    rw [if_neg hzero, if_pos hd, collect_append hds hrest (digit d) 1 hfits]
    dsimp only
    rw [hnone]
    rfl

/-- **A decimal is accepted** if whatever the reader keeps of it can be scaled. -/
theorem Spells.accepts {text : Bytes} {n : Nat} {y : Int} (h : Spells text n y)
    (hscalable : Scalable n y) (hrest : EndsNumber rest) (negative : Bool) :
    Accepts (number negative (text ++ rest)) rest := by
  cases h with
  | @parts whole fraction ds exponent x hwhole hfraction hexponent =>
    have hends := endsDigits_exponent hexponent.isExponent hrest
    rw [List.append_assoc, List.append_assoc]
    cases hfraction with
    | none =>
      rw [List.append_nil] at hscalable
      rw [List.nil_append, number_whole hwhole hends]
      have hscale : (scale (whole.foldl onto 0) (0 + x)).isSome = true := by
        have := hscalable _ 0 hwhole.fits (by rw [Nat.pow_zero, Nat.mul_one]) fun _ => ⟨rfl, rfl⟩
        rwa [List.length_nil, Nat.cast_zero, sub_zero, add_comm] at this
      cases hexponent with
      | none =>
        rw [List.nil_append, afterInteger_eq hrest]
        exact ⟨_, rfl⟩
      | up hx => exact accepts_exponentPart_up hx hrest hscale negative
      | down x => exact accepts_exponentPart_down x hrest hwhole.fits (Int.le_refl 0) negative
    | point hds =>
      have hpoint : EndsDigits (0x2e :: ds ++ (exponent ++ rest)) :=
        fun b hb => Option.some.inj hb ▸ rfl
      -- digits that do not fit any more are left out of the fraction, and count for nothing
      obtain ⟨m, k, left, hcollect, hlength, hleft, hleads⟩ :=
        exists_collect hds.isDigit hends hwhole.fits 0
      rw [Nat.zero_add] at hcollect
      have hfraction : fractionPart negative (whole.foldl onto 0) 0 (ds ++ (exponent ++ rest)) =
          afterFraction negative m (0 - k) (exponent ++ rest) := by
        obtain ⟨d, ds', rfl⟩ := List.exists_cons_of_ne_nil hds.ne_nil
        have hd := hds.isDigit d List.mem_cons_self
        rw [List.cons_append] at hcollect ⊢
        unfold fractionPart
        simp only [hd, if_true, hcollect, dropWhile_isDigit hleft hends]
      rw [number_whole hwhole hpoint]
      show Accepts (fractionPart negative (whole.foldl onto 0) 0 (ds ++ (exponent ++ rest))) rest
      rw [hfraction]
      refine accepts_afterFraction hexponent hrest hleads.le_max (by omega) ?_ negative
      have hpower : (0 : Int) - k + x = x - ds.length + left.length := by omega
      rw [hpower]
      refine hscalable m left.length hleads.le_max ?_ fun hfits => ?_
      · rw [List.foldl_append]
        exact hleads.le
      · rw [List.foldl_append] at hfits ⊢
        have hnil := hleads.all hfits
        exact ⟨hleads.eq hnil, by rw [hnil]; rfl⟩

end Switchboard.Json.Reader
