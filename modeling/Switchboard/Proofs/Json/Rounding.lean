import Mathlib.Algebra.Order.Field.Power
import Mathlib.Algebra.Order.Field.Rat
import Mathlib.Tactic.Linarith
import Mathlib.Tactic.NormNum
import Mathlib.Tactic.Ring
import Switchboard.Json.Reader

/-!
# Proofs/Json/Rounding — a decimal below the largest double is not read as infinite

The reader of numbers multiplies two doubles, the digits and a power of ten, and refuses the number
if the product is infinite (`scale`).  Each of the three steps rounds, and rounding a number that is
not tiny adds at most one part in `2^53` to it (`bounded_roundWithAccuracy`, `slack`); what stays
below the halfway point behind the largest double (`top`) is finite.  So the product is finite if
digits times power, twice enlarged, are below that point (`isSome_scale`).

Only upper bounds are followed.  Packing a double into its bits and unpacking it again keeps them
(`Bounded.unpack_packed`), whether or not it has all the digits a double can have.
-/

namespace Switchboard.Rounding

open Float.Model (UnpackedFloat Format totalExponent)
open Float.Model.UnpackedFloat

/-! ## Mantissas and exponents -/

/-- What a mantissa and an exponent stand for. -/
def dyadic (m : Nat) (e : Int) : ℚ := m * 2 ^ e

theorem two_pow_nonneg (e : Int) : (0 : ℚ) ≤ 2 ^ e := zpow_nonneg zero_le_two e

theorem dyadic_nonneg (m : Nat) (e : Int) : 0 ≤ dyadic m e :=
  mul_nonneg (Nat.cast_nonneg m) (two_pow_nonneg e)

theorem dyadic_add (m k : Nat) (e : Int) : dyadic m (e + k) = dyadic (m * 2 ^ k) e := by
  rw [dyadic, dyadic, zpow_add₀ two_ne_zero, zpow_natCast]
  push_cast
  ring

theorem dyadic_mono {m n : Nat} (h : m ≤ n) (e : Int) : dyadic m e ≤ dyadic n e :=
  mul_le_mul_of_nonneg_right (Nat.cast_le.mpr h) (two_pow_nonneg e)

theorem dyadic_mul (m n : Nat) (e f : Int) : dyadic m e * dyadic n f = dyadic (m * n) (e + f) := by
  rw [dyadic, dyadic, dyadic, zpow_add₀ two_ne_zero]
  push_cast
  ring

theorem dyadic_natCast (m n : Nat) : dyadic m n = (m * 2 ^ n : Nat) := by
  rw [dyadic, zpow_natCast, Nat.cast_mul, Nat.cast_pow, Nat.cast_ofNat]

/-! ## Rounding a mantissa -/

/-- **Digits that are shifted out**: what is left is the quotient, and a round bit tells that the
remainder is half the divisor or more. -/
theorem shiftRight_exact (m k : Nat) :
    let em := ExtendedMantissa.ofMantissaAndAccuracy m .exact >>> k
    em.mantissa = m / 2 ^ k ∧ (em.roundBit = true → 2 ^ k ≤ 2 * (m % 2 ^ k)) := by
  induction k with
  | zero => exact ⟨(Nat.div_one m).symm, nofun⟩
  | succ k ih =>
    obtain ⟨hmantissa, -⟩ := ih
    constructor
    · show (ExtendedMantissa.ofMantissaAndAccuracy m .exact >>> k).mantissa / 2 = _
      rw [hmantissa, Nat.div_div_eq_div_mul, Nat.pow_succ]
    · show ((ExtendedMantissa.ofMantissaAndAccuracy m .exact >>> k).mantissa % 2 != 0) = true → _
      rw [hmantissa, bne_iff_ne]
      intro hodd
      have hmod : m % 2 ^ (k + 1) = m % 2 ^ k + 2 ^ k * (m / 2 ^ k % 2) := Nat.mod_pow_succ
      have hone : m / 2 ^ k % 2 = 1 := by omega
      rw [hmod, hone, Nat.pow_succ]
      omega

theorem roundedMantissa_le (em : ExtendedMantissa) :
    em.roundedMantissa ≤ em.mantissa + em.roundBit.toNat := by
  obtain ⟨m, roundBit, stickyBit⟩ := em
  cases roundBit <;> cases stickyBit <;>
    simp [ExtendedMantissa.roundedMantissa, ExtendedMantissa.accuracy,
      Accuracy.roundToNearestEven]
  omega

/-- **Rounding adds half a unit of the last place that is kept, at most.** -/
theorem roundedMantissa_mul_le (m k : Nat) :
    2 * ((ExtendedMantissa.ofMantissaAndAccuracy m .exact >>> k).roundedMantissa * 2 ^ k) ≤
      2 * m + 2 ^ k := by
  obtain ⟨hmantissa, hround⟩ := shiftRight_exact m k
  have hle := roundedMantissa_le (ExtendedMantissa.ofMantissaAndAccuracy m .exact >>> k)
  have hdiv := Nat.div_add_mod' m (2 ^ k)
  rw [hmantissa] at hle
  refine Nat.le_trans (Nat.mul_le_mul_left 2 (Nat.mul_le_mul_right _ hle)) ?_
  rw [Nat.add_mul]
  cases hbit : (ExtendedMantissa.ofMantissaAndAccuracy m .exact >>> k).roundBit with
  | false =>
    rw [Bool.toNat_false]
    omega
  | true =>
    have := hround hbit
    rw [Bool.toNat_true]
    omega

theorem two_zpow_log2_le {m : Nat} (hm : 0 < m) (e : Int) :
    (2 : ℚ) ^ (m.log2 + e) ≤ dyadic m e := by
  rw [zpow_add₀ two_ne_zero, zpow_natCast]
  refine mul_le_mul_of_nonneg_right ?_ (two_pow_nonneg e)
  exact_mod_cast Nat.log2_self_le hm.ne'

theorem lt_of_two_zpow_lt {a b : Int} (h : (2 : ℚ) ^ a < 2 ^ b) : a < b :=
  (zpow_lt_zpow_iff_right₀ one_lt_two).mp h

/-- **A finite number within the exponents of a double**, at most so large. -/
inductive Bounded (bound : ℚ) : UnpackedFloat → Prop where
  | zero (s : Sign) : Bounded bound (.zero s)
  | finite (s : Sign) {m : Nat} {e : Int} (hm : 0 < m) (hleast : -1074 ≤ e) (hgreatest : e ≤ 971)
      (h : dyadic m e ≤ bound) : Bounded bound (.finite s m e hm)

/-- The least dyadic that is rounded to an infinite double. -/
def top : ℚ := dyadic (2 ^ 54 - 1) (970 : Nat)

theorem top_add : top + 2 ^ (970 : Int) = 2 ^ (1024 : Int) := by
  have hone : (2 : ℚ) ^ (970 : Int) = dyadic 1 (970 : Nat) := by
    rw [dyadic, Nat.cast_one, one_mul]
    rfl
  have htop : (2 : ℚ) ^ (1024 : Int) = dyadic 1 (1024 : Nat) := by
    rw [dyadic, Nat.cast_one, one_mul]
    rfl
  rw [hone, htop, top, dyadic_natCast, dyadic_natCast, dyadic_natCast, ← Nat.cast_add]
  exact congrArg Nat.cast (by decide +kernel)

theorem top_lt : top < 2 ^ (1024 : Int) :=
  top_add ▸ lt_add_of_pos_right _ (zpow_pos (by norm_num) _)

theorem pow_ten_lt_top {k : Nat} (h : k ≤ 308) : (10 : ℚ) ^ k < top := by
  calc (10 : ℚ) ^ k ≤ 10 ^ 308 := pow_le_pow_right₀ (by norm_num) h
    _ = (10 ^ 308 : Nat) := by rw [Nat.cast_pow, Nat.cast_ofNat]
    _ < ((2 ^ 54 - 1) * 2 ^ 970 : Nat) := Nat.cast_lt.mpr (by decide +kernel)
    _ = top := (dyadic_natCast _ _).symm

theorem top_le_pow_ten : top ≤ 10 ^ (309 : Int) := by
  have hpow : (10 : ℚ) ^ (309 : Int) = (10 ^ 309 : Nat) := by
    rw [Nat.cast_pow, Nat.cast_ofNat]
    rfl
  rw [hpow, top, dyadic_natCast]
  exact Nat.cast_le.mpr (by decide +kernel)

/-- The position of the first digit of what is below a power of two. -/
theorem totalExponent_le {m : Nat} {e b : Int} (hb : e + 1 ≤ b) (h : dyadic m e < 2 ^ b) :
    totalExponent m e ≤ b := by
  rcases Nat.eq_zero_or_pos m with rfl | hm
  · rw [totalExponent, Nat.log2_zero]
    omega
  · have := lt_of_two_zpow_lt ((two_zpow_log2_le hm e).trans_lt h)
    rw [totalExponent]
    omega

/-- A double keeps 53 digits, and fewer where its exponent would be too small. -/
theorem targetExponent_eq (e : Int) :
    Format.binary64.targetExponent e = max (e - 53) (-1074) := rfl

/-- Shifting out digits makes nothing larger. -/
theorem dyadic_shift_le (m k : Nat) (e : Int) :
    dyadic ((ExtendedMantissa.ofMantissaAndAccuracy m .exact >>> k).mantissa) (e + k) ≤
      dyadic m e := by
  rw [dyadic_add, (shiftRight_exact m k).1]
  exact dyadic_mono (Nat.div_mul_le_self m _) e

/-- Rounding to an exponent adds half a unit of the last place. -/
theorem dyadic_rounded_le {m : Nat} {e t : Int} :
    dyadic ((ExtendedMantissa.ofMantissaAndAccuracy m .exact >>> (t - e).toNat).roundedMantissa)
      (e + (t - e).toNat) ≤ dyadic m e + if e < t then 2 ^ (t - 1) else 0 := by
  rw [dyadic_add]
  have hle := roundedMantissa_mul_le m (t - e).toNat
  by_cases het : e < t
  · rw [if_pos het]
    have hpow : (2 : ℚ) ^ (t - 1) = 2 ^ (t - e).toNat / 2 * 2 ^ e := by
      rw [← zpow_natCast, Int.toNat_of_nonneg (by omega), div_eq_mul_inv,
        ← zpow_sub_one₀ two_ne_zero, ← zpow_add₀ two_ne_zero]
      congr 1
      omega
    rw [hpow, dyadic, dyadic, ← add_mul]
    refine mul_le_mul_of_nonneg_right ?_ (two_pow_nonneg e)
    have : (2 : ℚ) * (((ExtendedMantissa.ofMantissaAndAccuracy m .exact >>>
      (t - e).toNat).roundedMantissa * 2 ^ (t - e).toNat : Nat) : ℚ) ≤
        2 * m + 2 ^ (t - e).toNat := by
      exact_mod_cast hle
    linarith
  · rw [if_neg het, add_zero]
    refine dyadic_mono ?_ e
    have : (t - e).toNat = 0 := by omega
    rw [this] at hle ⊢
    omega

/-- Half a unit of the last place of a double is one part in `2^53` of it, unless it is tiny. -/
theorem half_place_le {m : Nat} (hm : 0 < m) (e : Int) :
    (2 : ℚ) ^ (Format.binary64.targetExponent (totalExponent m e) - 1) ≤
      2 ^ (-53 : Int) * max 1 (dyadic m e) := by
  have hpos : (0 : ℚ) ≤ 2 ^ (-53 : Int) := two_pow_nonneg _
  rw [targetExponent_eq]
  rcases le_total (-1074) (totalExponent m e - 53) with h | h
  · rw [max_eq_left h]
    calc (2 : ℚ) ^ (totalExponent m e - 53 - 1) = 2 ^ (-53 : Int) * 2 ^ (m.log2 + e) := by
          rw [← zpow_add₀ two_ne_zero, totalExponent]
          congr 1
          omega
      _ ≤ 2 ^ (-53 : Int) * max 1 (dyadic m e) := by
          refine mul_le_mul_of_nonneg_left ?_ hpos
          exact (two_zpow_log2_le hm e).trans (le_max_right _ _)
  · rw [max_eq_right h]
    calc (2 : ℚ) ^ (-1074 - 1 : Int) ≤ 2 ^ (-53 : Int) * 1 := by
          rw [mul_one]
          exact zpow_le_zpow_right₀ one_le_two (by norm_num)
      _ ≤ 2 ^ (-53 : Int) * max 1 (dyadic m e) := mul_le_mul_of_nonneg_left (le_max_left _ _) hpos

/-- **What is rounded grows by one part in `2^53` at most**, and stays finite below the top. -/
theorem bounded_roundWithAccuracy (s : Sign) {m : Nat} (hm : 0 < m) {e : Int} (he : e ≤ 971)
    (htop : dyadic m e < top) :
    Bounded (dyadic m e + 2 ^ (-53 : Int) * max 1 (dyadic m e))
      (roundWithAccuracy .binary64 s m e .exact) := by
  -- the mantissa is shifted to its target exponent and rounded, then shifted once more to cut it
  obtain ⟨t, ht⟩ : ∃ t, Format.binary64.targetExponent (totalExponent m e) = t := ⟨_, rfl⟩
  obtain ⟨k, hk⟩ : ∃ k : Nat, (t - e).toNat = k := ⟨_, rfl⟩
  obtain ⟨n, hn⟩ : ∃ n,
      (ExtendedMantissa.ofMantissaAndAccuracy m .exact >>> k).roundedMantissa = n := ⟨_, rfl⟩
  obtain ⟨u, hu⟩ : ∃ u, Format.binary64.targetExponent (totalExponent n (e + k)) = u := ⟨_, rfl⟩
  obtain ⟨j, hj⟩ : ∃ j : Nat, (u - (e + k)).toNat = j := ⟨_, rfl⟩
  obtain ⟨m', hm'⟩ : ∃ m', (ExtendedMantissa.ofMantissaAndAccuracy n .exact >>> j).mantissa = m' :=
    ⟨_, rfl⟩
  have hround : roundWithAccuracy .binary64 s m e .exact =
      if h : m' = 0 then .zero s else .finite s m' (e + k + j) (Nat.pos_of_ne_zero h) := by
    subst hm' hj hu hn hk ht
    rfl
  have hle := dyadic_rounded_le (m := m) (e := e) (t := t)
  rw [hk, hn] at hle
  have hrest : dyadic m' (e + k + j) ≤ dyadic n (e + k) := hm' ▸ dyadic_shift_le n j (e + k)
  have ht971 : t ≤ 971 := by
    have := totalExponent_le (e := e) (m := m) (b := 1024) (by omega) (htop.trans top_lt)
    rw [← ht, targetExponent_eq]
    omega
  have hn1024 : dyadic n (e + k) < 2 ^ (1024 : Int) := by
    refine hle.trans_lt (lt_of_lt_of_le (add_lt_add_of_lt_of_le htop ?_) top_add.le)
    split
    · exact zpow_le_zpow_right₀ one_le_two (by omega)
    · exact two_pow_nonneg _
  have hu971 : u ≤ 971 := by
    have := totalExponent_le (e := e + k) (m := n) (b := 1024) (by omega) hn1024
    rw [← hu, targetExponent_eq]
    omega
  have hu1074 : -1074 ≤ u := by
    rw [← hu, targetExponent_eq]
    exact le_max_right _ _
  rw [hround]
  by_cases hzero : m' = 0
  · rw [dif_pos hzero]
    exact .zero s
  · rw [dif_neg hzero]
    refine .finite s _ (by omega) (by omega) (hrest.trans (hle.trans ?_))
    refine add_le_add_right ?_ _
    split
    · exact ht ▸ half_place_le hm e
    · positivity

/-! ## Doubles in bits -/

/-- **A finite double**, at most so large: it has all its digits or the smallest exponent. -/
inductive Held (bound : ℚ) : UnpackedFloat → Prop where
  | zero (s : Sign) : Held bound (.zero s)
  | finite (s : Sign) {m : Nat} {e : Int} (hm : 0 < m) (hleast : -1074 ≤ e) (hgreatest : e ≤ 971)
      (hnormal : 2 ^ 52 ≤ m ∨ e = -1074) (h : dyadic m e ≤ bound) : Held bound (.finite s m e hm)

theorem toNat_append_one (v : BitVec 52) : (1#1 ++ v).toNat = 2 ^ 52 + v.toNat := by
  rw [BitVec.toNat_append, ← Nat.shiftLeft_add_eq_or_of_lt v.isLt]
  rfl

section Packed

variable {bound : ℚ} {b : BitVec 64} {exponent : BitVec 11} {fraction : BitVec 52}

/-- A double with a digit in front of its fraction. -/
theorem held_unpack_normal (hexponent : @unpackExponent .binary64 b = exponent)
    (hfraction : @unpackMantissa .binary64 b = fraction) (hpos : exponent ≠ 0#11)
    (hlt : exponent ≠ -1#11)
    (h : dyadic (2 ^ 52 + fraction.toNat) (exponent.toNat - 1075) ≤ bound) :
    Held bound (unpack .binary64 b) := by
  subst hexponent hfraction
  have hge := Nat.pos_of_ne_zero fun h0 => hpos (BitVec.eq_of_toNat_eq h0)
  have hne : (@unpackExponent .binary64 b).toNat ≠ 2047 :=
    fun h1 => hlt (BitVec.eq_of_toNat_eq h1)
  have hle : (@unpackExponent .binary64 b).toNat < 2 ^ 11 := (@unpackExponent .binary64 b).isLt
  have hbias : Format.binary64.exponentBias = 1023 := rfl
  rw [← toNat_append_one] at h
  unfold unpack
  dsimp only
  rw [if_neg hlt, if_neg hpos]
  refine .finite _ _ ?_ ?_ (.inl ?_) ?_
  · omega
  · omega
  · rw [toNat_append_one]
    exact Nat.le_add_right _ _
  · rw [hbias]
    have hplace : ((@unpackExponent .binary64 b).toNat : Int) - ((1023 : Nat) + (52 : Nat)) =
        (@unpackExponent .binary64 b).toNat - 1075 := by
      omega
    rw [hplace]
    exact h

/-- A double without one. -/
theorem held_unpack_subnormal (hexponent : @unpackExponent .binary64 b = 0#11)
    (hfraction : @unpackMantissa .binary64 b = fraction)
    (h : dyadic fraction.toNat (-1074) ≤ bound) : Held bound (unpack .binary64 b) := by
  subst hfraction
  unfold unpack
  dsimp only
  rw [if_neg (hexponent ▸ by decide), if_pos hexponent]
  have hplace : ((@unpackExponent .binary64 b).toNat : Int) -
      (Format.binary64.exponentBias + (52 : Nat)) + 1 = -1074 := by
    rw [hexponent]
    rfl
  by_cases hzero : @unpackMantissa .binary64 b = 0#52
  · rw [dif_pos hzero]
    exact .zero _
  · rw [dif_neg hzero]
    exact .finite _ _ hplace.ge (by omega) (.inr hplace) (hplace ▸ h)

end Packed

/-- **What is packed into a double is at most what it was.** -/
theorem Bounded.unpack_packed {bound : ℚ} {u : UnpackedFloat} (h : Bounded bound u) :
    Held bound (unpack .binary64 (pack .binary64 u)) := by
  cases h with
  | zero s => cases s <;> exact .zero _
  | @finite s m e hm hleast hgreatest h =>
    obtain ⟨b, hb⟩ : ∃ b : Nat, (e + 1023 + 52).toNat = b := ⟨_, rfl⟩
    have hfits : ¬2 ^ 11 ≤ b + 1 := by omega
    have hb11 : (BitVec.ofNat 11 b).toNat = b := by
      rw [BitVec.toNat_ofNat, Nat.mod_eq_of_lt (by omega)]
    by_cases hfull : m.log2 + 1 = 53
    · -- the mantissa has all its digits, and the first of them is left out
      have hpack : pack .binary64 (.finite s m e hm) =
          packComponents .binary64 s (BitVec.ofNat 11 b) (BitVec.ofNat 52 m) := by
        subst hb
        exact (if_neg hfits).trans (if_pos hfull)
      have hm52 : 2 ^ 52 ≤ m ∧ m < 2 ^ 53 := by
        obtain ⟨hlog, -⟩ : m.log2 = 52 ∧ True := ⟨by omega, trivial⟩
        exact (Nat.log2_eq_iff hm.ne').mp hlog
      rw [hpack]
      refine held_unpack_normal unpackExponent_packComponents unpackMantissa_packComponents
        (fun h0 => ?_) (fun h1 => ?_) ?_
      · rw [h0] at hb11
        change 0 = b at hb11
        omega
      · rw [h1] at hb11
        change 2047 = b at hb11
        omega
      · rw [hb11, BitVec.toNat_ofNat]
        have hmantissa : 2 ^ 52 + m % 2 ^ 52 = m := by omega
        have hexponent : (b : Int) - 1075 = e := by omega
        rwa [hmantissa, hexponent]
    · have hpack : pack .binary64 (.finite s m e hm) =
          packComponents .binary64 s 0#11 (BitVec.ofNat 52 m) := by
        subst hb
        exact (if_neg hfits).trans (if_neg hfull)
      rw [hpack]
      refine held_unpack_subnormal unpackExponent_packComponents unpackMantissa_packComponents
        (le_trans ?_ h)
      obtain ⟨k, rfl⟩ : ∃ k : Nat, e = -1074 + k := ⟨(e + 1074).toNat, by omega⟩
      rw [dyadic_add, BitVec.toNat_ofNat]
      refine dyadic_mono ((Nat.mod_le _ _).trans ?_) _
      exact Nat.le_mul_of_pos_right _ (Nat.two_pow_pos k)

/-! ## Products -/

/-- A finite double is not infinite. -/
theorem Held.isInf {bound : ℚ} {u : UnpackedFloat} (h : Held bound u) : u.isInf = false := by
  cases h <;> rfl

/-- **A product stays finite** if its factors are below the top together. -/
theorem Held.mul {x y : ℚ} {a b : UnpackedFloat} (ha : Held x a) (hb : Held y b)
    (htop : x * y < top) : ∃ z, Bounded z (mul .binary64 a b) := by
  cases ha with
  | zero s => cases hb <;> exact ⟨0, .zero _⟩
  | @finite s m e hm hleast hgreatest hnormal h =>
    cases hb with
    | zero s' => exact ⟨0, .zero _⟩
    | @finite s' m' e' hm' hleast' hgreatest' hnormal' h' =>
      have hproduct : dyadic (m * m') (e + e') < top := by
        rw [← dyadic_mul]
        exact (mul_le_mul h h' (dyadic_nonneg _ _) ((dyadic_nonneg _ _).trans h)).trans_lt htop
      refine ⟨_, bounded_roundWithAccuracy _ (Nat.mul_pos hm hm') ?_ hproduct⟩
      -- two mantissas with all their digits leave no room for a large exponent
      rcases hnormal with hfull | hsmall
      · have hlt : (2 : ℚ) ^ (52 + (e + e')) < 2 ^ (1024 : Int) := by
          refine lt_of_le_of_lt ?_ (hproduct.trans top_lt)
          rw [zpow_add₀ two_ne_zero]
          refine mul_le_mul_of_nonneg_right ?_ (two_pow_nonneg _)
          exact_mod_cast hfull.trans (Nat.le_mul_of_pos_right m hm')
        have := lt_of_two_zpow_lt hlt
        omega
      · omega

/-- How many times as large a number may get by rounding. -/
def slack : ℚ := 1 + 2 ^ (-53 : Int)

theorem one_le_slack : 1 ≤ slack := le_add_of_nonneg_right (two_pow_nonneg _)

/-- Rounding a number that is at least one. -/
theorem held_of_one_le (s : Sign) {m : Nat} (hm : 0 < m) {e : Int} (he : e ≤ 971)
    (hone : 1 ≤ dyadic m e) (htop : dyadic m e < top) :
    Held (dyadic m e * slack) (unpack .binary64 (pack .binary64
      (roundWithAccuracy .binary64 s m e .exact))) := by
  have hbounded := bounded_roundWithAccuracy s hm he htop
  rw [max_eq_right hone, ← one_add_mul, mul_comm] at hbounded
  exact hbounded.unpack_packed

open Json.Reader

/-- The double of a 64-bit integer. -/
theorem held_toFloat (n : UInt64) :
    Held (n.toNat * slack) (Float.Model.unpack n.toFloat.toModel) := by
  show Held _ (unpack .binary64 (pack .binary64
    (UnpackedFloat.normalize .binary64 n.toNat 0 .positive)))
  rcases Nat.eq_zero_or_pos n.toNat with h0 | hpos
  · rw [h0]
    exact (Bounded.zero .positive).unpack_packed
  · have hgt : compare (n.toNat : Int) 0 = .gt := by
      rw [compare_gt_iff_gt]
      exact_mod_cast hpos
    rw [UnpackedFloat.normalize, hgt]
    dsimp only
    rw [Int.toNat_natCast, UnpackedFloat.round, UnpackedFloat.decreaseExponent]
    dsimp only
    generalize (0 - Format.binary64.targetExponent (totalExponent n.toNat 0)).toNat = k
    have hreal : dyadic (n.toNat <<< k) (0 - k) = n.toNat := by
      rw [Nat.shiftLeft_eq, ← dyadic_add, sub_add_cancel, dyadic, zpow_zero, mul_one]
    have hlt : (n.toNat : ℚ) < top := by
      refine lt_trans ?_ (pow_ten_lt_top (k := 20) (by decide))
      exact_mod_cast n.toNat_lt.trans (by decide : 2 ^ 64 < 10 ^ 20)
    rw [← hreal]
    refine held_of_one_le _ ?_ (by omega) ?_ (hreal ▸ hlt)
    · rw [Nat.shiftLeft_eq]
      exact Nat.mul_pos hpos (Nat.two_pow_pos k)
    · rw [hreal]
      exact_mod_cast hpos

/-- The powers of ten that are looked up are those that would be computed. -/
theorem tenToThe_eq {k : Nat} : tenToThe k = .ofModel (.ofScientific 1 k) := by
  by_cases hk : k ≤ 22
  · have hall : ∀ j ≤ 22, tenToThe j = .ofModel (.ofScientific 1 j) := by decide +kernel
    exact hall k hk
  · rw [tenToThe, Float.ofScientific, dif_neg fun h => hk h.2]
    rfl

/-- The double of a power of ten. -/
theorem held_tenToThe {k : Nat} (hk : k ≤ 308) :
    Held (10 ^ k * slack) (Float.Model.unpack (tenToThe k).toModel) := by
  have hreal : dyadic (1 <<< 53 * 10 ^ k) (-53 + 0) = 10 ^ k := by
    rw [Nat.shiftLeft_eq, Nat.one_mul, Nat.mul_comm, add_zero, ← dyadic_add, dyadic]
    simp
  rw [tenToThe_eq]
  have hmodel : Float.Model.unpack (.ofScientific 1 k) = unpack .binary64 (pack .binary64
      (roundWithAccuracy .binary64 .positive (1 <<< 53 * 10 ^ k) (-53 + 0) .exact)) := by
    have hlarge : ¬(k : Int) > 2 ^ 11 := by omega
    have hsmall : ¬(k : Int) < -((2 ^ 11 : Int) + (1 : Nat).log2) := by omega
    show unpack .binary64 (pack .binary64 (ofScientific .binary64 1 k)) = _
    rw [ofScientific, dif_neg one_ne_zero, if_neg hlarge, if_neg hsmall, if_pos (by omega)]
    rfl
  show Held _ (Float.Model.unpack (.ofScientific 1 k))
  rw [hmodel, ← hreal]
  refine held_of_one_le _ ?_ (by decide) ?_ ?_
  · exact Nat.mul_pos (by decide) (Nat.pow_pos (by decide))
  · rw [hreal]
    exact one_le_pow₀ (by norm_num)
  · exact hreal ▸ pow_ten_lt_top hk

/-- **Digits and a power of ten that stay below the top**, even if both get larger by rounding, are
scaled. -/
theorem isSome_scale {n : Nat} (hn : n < 2 ^ 64) {e : Int}
    (h : (n : ℚ) * 10 ^ e * slack ^ 2 < top) : (scale n e).isSome = true := by
  have htoNat : (UInt64.ofNat n).toNat = n := UInt64.toNat_ofNat_of_lt' hn
  unfold scale
  dsimp only
  split
  · rename_i hlarge
    rcases Nat.eq_zero_or_pos n with rfl | hpos
    · rfl
    · have hone : (1 : ℚ) ≤ n := by exact_mod_cast hpos
      have hslack : 1 ≤ slack ^ 2 := one_le_pow₀ one_le_slack
      have : (10 : ℚ) ^ (309 : Int) ≤ 10 ^ e := zpow_le_zpow_right₀ (by norm_num) hlarge
      have htop := top_le_pow_ten
      have hle : (10 : ℚ) ^ e ≤ n * 10 ^ e * slack ^ 2 :=
        (le_mul_of_one_le_left (by positivity) hone).trans
          (le_mul_of_one_le_right (by positivity) hslack)
      exact absurd (htop.trans (this.trans hle)) (not_le.mpr h)
  split
  · rename_i hle hpos
    obtain ⟨k, rfl⟩ := Int.eq_ofNat_of_zero_le hpos
    have hfloat := held_toFloat (.ofNat n)
    have hten := held_tenToThe (k := k) (by omega)
    rw [htoNat] at hfloat
    obtain ⟨z, hz⟩ := hfloat.mul hten (by
      refine lt_of_eq_of_lt ?_ h
      rw [zpow_natCast]
      ring)
    have hfinite : ((UInt64.ofNat n).toFloat * tenToThe k).isInf = false := hz.unpack_packed.isInf
    rw [Int.toNat_natCast, hfinite]
    rfl
  · rfl

end Switchboard.Rounding
