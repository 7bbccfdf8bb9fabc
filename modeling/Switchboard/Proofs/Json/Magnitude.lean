import Switchboard.Proofs.Json.Spelling

/-!
# Proofs/Json/Magnitude — every finite double is accepted when it is read

The shortest decimal of a double lies in the interval that rounds to the double
(`Shortest.value_ofBits_le`), and what is written spells just this decimal (`exists_spells`).  Below
the interval of the three largest doubles there is room enough for all rounding on the way back
(`Rounding.roomy`); the decimals of those three are known (`scales_largest`).  So a finite double is
never refused as too large (`accepts_magnitudeText`), although it may come back as another one.
-/

namespace Switchboard

open Json (ascii)
open Json.Reader (onto)

namespace Shortest

/-! ## What a decimal stands for -/

/-- All digits as one number. -/
def significand (s : Shortest) : Nat := (s.digits.map ascii).foldl onto 0

/-- The power of ten of the last digit. -/
def lastExponent (s : Shortest) : Int := s.exponent - (s.digits.length - 1 : Nat)

/-- What a decimal stands for. -/
def value (s : Shortest) : ℚ := s.significand * 10 ^ s.lastExponent

/-- There are digits, and no zero comes first. -/
structure Regular (s : Shortest) : Prop extends Proper s where
  head_ne : s.digits.head? ≠ some '0'

end Shortest

namespace Json.Reader

/-! ## Digits and zeros -/

theorem digit_le {d : UInt8} (h : isDigit d = true) : digit d ≤ 9 := by
  simp only [isDigit, Bool.and_eq_true, decide_eq_true_eq, UInt8.le_iff_toNat_le] at h
  have hle : d.toNat ≤ 57 := h.2
  rw [digit]
  have : (0x30 : UInt8).toNat = 48 := rfl
  omega

theorem foldl_onto_lt {ds : Bytes} (hds : ∀ d ∈ ds, isDigit d) :
    ds.foldl onto 0 < 10 ^ ds.length := by
  induction ds with
  | nil => exact Nat.one_pos
  | cons d ds ih =>
    obtain ⟨hd, hmore⟩ := List.forall_mem_cons.mp hds
    have hdigit := digit_le hd
    rw [List.foldl_cons, foldl_onto_append, onto, Nat.zero_mul, Nat.zero_add, List.length_cons,
      Nat.pow_succ']
    nlinarith [ih hmore]

/-- Zeros only move the digits before them. -/
theorem foldl_onto_zeros (k n : Nat) :
    ((List.replicate k '0').map ascii).foldl onto n = n * 10 ^ k := by
  induction k generalizing n with
  | zero => simp
  | succ k ih =>
    rw [List.replicate_succ, List.map_cons, List.foldl_cons, ih, Nat.pow_succ']
    show (n * 10 + 0) * 10 ^ k = _
    ring

/-- Short numbers fit. -/
theorem whole_of_short {ds : Bytes} (h : Digits ds) (hhead : ∀ tail, ds = 0x30 :: tail → tail = [])
    (hlength : ds.length ≤ 19) : Whole ds := by
  refine ⟨h, hhead, Nat.le_trans (foldl_onto_lt h.isDigit).le ?_⟩
  exact Nat.le_trans (Nat.pow_le_pow_right (by decide) hlength) (by decide)

theorem whole_singleton {c : Char} (h : c.isDigit) : Whole [ascii c] := by
  have hdigits : Digits ([c].map ascii) :=
    digits_map_ascii (List.cons_ne_nil _ _) (List.forall_mem_singleton.mpr h)
  exact whole_of_short hdigits (fun _ htail => (List.cons.inj htail).2.symm) (by simp)

/-- Digits that do not start with a zero. -/
theorem whole_map_ascii {cs : List Char} (hne : cs ≠ []) (h : ∀ c ∈ cs, c.isDigit)
    (hhead : cs.head? ≠ some '0') (hlength : cs.length ≤ 19) : Whole (cs.map ascii) := by
  refine whole_of_short (digits_map_ascii hne h) (fun tail htail => ?_) (by simpa using hlength)
  obtain ⟨c, cs, rfl⟩ := List.exists_cons_of_ne_nil hne
  have hc : ascii c = 0x30 := (List.cons.inj htail).1
  refine absurd ?_ hhead
  have hnat := congrArg UInt8.toNat hc
  rw [toNat_ascii (h c List.mem_cons_self)] at hnat
  exact congrArg some (Char.toNat_inj.mp hnat)

/-! ## What is written -/

variable {s : Shortest}

/-- The exponent of the scientific form. -/
theorem exponent_scientific {x : Int} (hx : x ≤ maxExponent) : Exponent
    (('e' :: (if x < 0 then '-' else '+') :: Number.decimal x.natAbs).map ascii) x := by
  rcases lt_or_ge x 0 with hneg | hpos
  · rw [if_pos hneg]
    have := Exponent.down x.natAbs
    rwa [show -(x.natAbs : Int) = x by omega] at this
  · rw [if_neg (not_lt.mpr hpos)]
    have := Exponent.up (x := x.natAbs) (by omega)
    rwa [show (x.natAbs : Int) = x by omega] at this

/-- **In scientific form** just the digits and the power of ten are written. -/
theorem spells_scientific (h : s.Proper) (hx : s.exponent ≤ maxExponent)
    (hout : s.exponent < Number.leastPositional ∨ Number.greatestPositional < s.exponent) :
    Spells ((Number.layout s).map ascii) s.significand s.lastExponent := by
  obtain ⟨hne, hdigits⟩ := h
  have hexponent := exponent_scientific hx
  unfold Number.layout Shortest.significand Shortest.lastExponent
  rw [if_pos hout]
  generalize s.digits = ds at hne hdigits
  dsimp only
  rw [List.map_append]
  match ds with
  | [d] =>
    have := Spells.parts (whole_singleton (hdigits d List.mem_cons_self)) .none hexponent
    rwa [List.append_nil] at this
  | d :: e :: rest =>
    obtain ⟨hd, hrest⟩ := List.forall_mem_cons.mp hdigits
    have hfraction := digits_map_ascii (List.cons_ne_nil e rest) hrest
    have := Spells.parts (whole_singleton hd) (.point hfraction) hexponent
    rwa [List.length_map] at this

/-- Below one the zeros behind the point move the digits. -/
theorem spells_below_one (h : s.Proper) (hneg : s.exponent < 0) :
    Spells (('0' :: '.' :: (List.replicate (s.exponent.natAbs - 1) '0' ++ s.digits)).map ascii)
      s.significand s.lastExponent := by
  have hfraction : Digits ((List.replicate (s.exponent.natAbs - 1) '0' ++ s.digits).map ascii) := by
    refine digits_map_ascii (List.append_ne_nil_of_right_ne_nil _ h.ne_nil) fun c hc => ?_
    exact (List.mem_append.mp hc).elim isDigit_of_mem_replicate (h.isDigit c)
  have hspells := Spells.parts (whole_singleton (c := '0') rfl) (.point hfraction) .none
  have hvalue : ([ascii '0'] ++ (List.replicate (s.exponent.natAbs - 1) '0' ++ s.digits).map
      ascii).foldl onto 0 = s.significand := by
    rw [List.map_append, ← List.append_assoc, List.foldl_append, List.foldl_append,
      foldl_onto_zeros, List.foldl_cons, List.foldl_nil, show onto 0 (ascii '0') = 0 from rfl,
      Nat.zero_mul]
    rfl
  have hlength : (0 : Int) - (((List.replicate (s.exponent.natAbs - 1) '0' ++ s.digits).map
      ascii).length : Nat) = s.lastExponent := by
    have := List.length_pos_iff.mpr h.ne_nil
    rw [Shortest.lastExponent, List.length_map, List.length_append, List.length_replicate]
    omega
  rwa [hvalue, hlength, List.append_nil] at hspells

/-- With all its digits before the point a decimal gets a zero behind it. -/
theorem spells_whole (h : s.Regular) (hpos : 0 ≤ s.exponent) (hle : s.exponent ≤ 15)
    (hshort : s.digits.length ≤ s.exponent.toNat + 1) : ∃ n, Spells ((s.digits ++
      List.replicate (s.exponent.toNat + 1 - s.digits.length) '0' ++ ['.', '0']).map ascii) n (-1) ∧
      (n : ℚ) * 10 ^ (-1 : Int) = s.value := by
  have hlength := List.length_pos_iff.mpr h.ne_nil
  have hwhole : Whole ((s.digits ++ List.replicate
      (s.exponent.toNat + 1 - s.digits.length) '0').map ascii) := by
    refine whole_map_ascii (List.append_ne_nil_of_left_ne_nil h.ne_nil _) (fun c hc => ?_) ?_ ?_
    · exact (List.mem_append.mp hc).elim (h.isDigit c) isDigit_of_mem_replicate
    · obtain ⟨d, ds, hds⟩ := List.exists_cons_of_ne_nil h.ne_nil
      have := h.head_ne
      rwa [hds] at this ⊢
    · rw [List.length_append, List.length_replicate]
      omega
  have hspells := Spells.parts hwhole (.point digits_zero) .none
  rw [List.append_nil] at hspells
  refine ⟨_, by rw [List.map_append]; exact hspells, ?_⟩
  obtain ⟨k, hk⟩ : ∃ k, s.exponent.toNat + 1 - s.digits.length = k := ⟨_, rfl⟩
  have hlast : s.lastExponent = k := by
    rw [Shortest.lastExponent]
    omega
  rw [hk, List.map_append, List.foldl_append, List.foldl_append, foldl_onto_zeros, Shortest.value,
    hlast, zpow_natCast]
  show (((s.significand * 10 ^ k) * 10 + 0 : Nat) : ℚ) * 10 ^ (-1 : Int) = _
  push_cast
  rw [zpow_neg_one]
  ring

/-- With more digits than go before the point the others follow it. -/
theorem spells_split (h : s.Regular) (hpos : 0 ≤ s.exponent) (hle : s.exponent ≤ 15)
    (hlong : ¬s.digits.length ≤ s.exponent.toNat + 1) :
    Spells ((s.digits.take (s.exponent.toNat + 1) ++
      '.' :: s.digits.drop (s.exponent.toNat + 1)).map ascii) s.significand s.lastExponent := by
  obtain ⟨k, hk⟩ : ∃ k, s.exponent.toNat + 1 = k := ⟨_, rfl⟩
  rw [hk] at hlong ⊢
  have hwhole : Whole ((s.digits.take k).map ascii) := by
    refine whole_map_ascii ?_ (fun c hc => h.isDigit c (List.mem_of_mem_take hc)) ?_ ?_
    · rw [Ne, List.take_eq_nil_iff]
      exact fun hor => hor.elim (by omega) h.ne_nil
    · rw [List.head?_take, if_neg (by omega)]
      exact h.head_ne
    · rw [List.length_take]
      omega
  have hdrop : Digits ((s.digits.drop k).map ascii) := by
    refine digits_map_ascii ?_ fun c hc => h.isDigit c (List.mem_of_mem_drop hc)
    rw [Ne, List.drop_eq_nil_iff]
    exact hlong
  have hspells := Spells.parts hwhole (.point hdrop) .none
  have hlength : (0 : Int) - (((s.digits.drop k).map ascii).length : Nat) = s.lastExponent := by
    rw [Shortest.lastExponent, List.length_map, List.length_drop]
    omega
  rw [← List.map_append, List.take_append_drop, hlength, List.append_nil] at hspells
  rw [List.map_append]
  exact hspells

/-- **What is written of a decimal spells it.** -/
theorem exists_spells (h : s.Regular) (hx : s.exponent ≤ maxExponent) :
    ∃ n y, Spells ((Number.layout s).map ascii) n y ∧ (n : ℚ) * 10 ^ y = s.value := by
  by_cases hout : s.exponent < Number.leastPositional ∨ Number.greatestPositional < s.exponent
  · exact ⟨_, _, spells_scientific h.toProper hx hout, rfl⟩
  have hle : s.exponent ≤ 15 := (not_lt.mp (not_or.mp hout).2)
  unfold Number.layout
  rw [if_neg hout]
  split
  · rename_i hneg
    exact ⟨_, _, spells_below_one h.toProper hneg, rfl⟩
  · rename_i hpos
    dsimp only
    split
    · rename_i hshort
      obtain ⟨n, hspells, hvalue⟩ := spells_whole h (not_lt.mp hpos) hle hshort
      exact ⟨n, -1, hspells, hvalue⟩
    · rename_i hlong
      exact ⟨_, _, spells_split h (not_lt.mp hpos) hle hlong, rfl⟩

end Json.Reader

/-! ## The size of a shortest decimal -/

namespace Shortest

open Json.Reader

theorem foldl_onto_toDigits (d : Nat) : ((Nat.toDigits 10 d).map ascii).foldl onto 0 = d :=
  foldl_onto_numeral d

/-- Without the zeros behind it a positive number has the digits that are left and a power of
ten. -/
theorem exists_kept {d : Nat} (hd : 0 < d) :
    ∃ kept k, ((Nat.toDigits 10 d).reverse.dropWhile (· == '0')).reverse = kept ∧
      Nat.toDigits 10 d = kept ++ List.replicate k '0' ∧ kept ≠ [] ∧ kept.head? ≠ some '0' := by
  obtain ⟨kept, hkept⟩ :
      ∃ kept, ((Nat.toDigits 10 d).reverse.dropWhile (· == '0')).reverse = kept := ⟨_, rfl⟩
  obtain ⟨zeros, hzeros⟩ :
      ∃ zeros, (Nat.toDigits 10 d).reverse.takeWhile (· == '0') = zeros := ⟨_, rfl⟩
  have hsplit : Nat.toDigits 10 d = kept ++ zeros.reverse := by
    rw [← hkept, ← hzeros, ← List.reverse_append, List.takeWhile_append_dropWhile,
      List.reverse_reverse]
  have hall : zeros.reverse = List.replicate zeros.length '0' := by
    refine List.eq_replicate_iff.mpr ⟨List.length_reverse, fun c hc => ?_⟩
    rw [List.mem_reverse, ← hzeros] at hc
    exact eq_of_beq (List.all_eq_true.mp List.all_takeWhile c hc)
  rw [hall] at hsplit
  obtain ⟨b, bs, hb, hdigit, hne⟩ := exists_head_numeral hd.ne'
  have hhead : (Nat.toDigits 10 d).head? ≠ some '0' := by
    intro h0
    obtain ⟨cs, hcs⟩ := List.head?_eq_some_iff.mp h0
    have : numeral d = ascii '0' :: cs.map ascii := by
      show (Nat.toDigits 10 d).map ascii = _
      rw [hcs]
      rfl
    rw [hb] at this
    exact hne (List.cons.inj this).1
  have hnil : kept ≠ [] := by
    rintro rfl
    rw [List.nil_append] at hsplit
    have hdigits : (Nat.toDigits 10 d) ≠ [] := Nat.toDigits_ne_nil
    rw [hsplit] at hhead hdigits
    exact hhead (by rw [List.head?_replicate, if_neg fun h => hdigits (by rw [h]; rfl)])
  refine ⟨kept, zeros.length, hkept, hsplit, hnil, ?_⟩
  obtain ⟨c, cs, rfl⟩ := List.exists_cons_of_ne_nil hnil
  rwa [hsplit] at hhead

/-- Whichever neighbour on the grid is taken, the interval holds it. -/
theorem inside_of_pick (inside : Nat → Bool) {below above nearer d : Nat}
    (hnearer : nearer = below ∨ nearer = above)
    (h : (if inside below then (if inside above then some nearer else some below)
      else if inside above then some above else none) = some d) : inside d := by
  split at h
  · rename_i hbelow
    split at h
    · rename_i habove
      rw [← Option.some.inj h]
      rcases hnearer with rfl | rfl
      · exact hbelow
      · exact habove
    · exact Option.some.inj h ▸ hbelow
  · split at h
    · rename_i habove
      exact Option.some.inj h ▸ habove
    · cases h

theorem either_of_ite {p q r : Prop} [Decidable p] [Decidable q] [Decidable r] (a b : Nat) :
    (if p then a else if q then b else if r then a else b) = a ∨
      (if p then a else if q then b else if r then a else b) = b := by
  split_ifs <;> simp

/-- Does the interval hold so many units of the grid? -/
def Target.holds (t : Target) (up den d : Nat) : Bool :=
  if t.closed then t.low * up ≤ d * den && d * den ≤ t.high * up
  else t.low * up < d * den && d * den < t.high * up

theorem Target.bounds_of_holds {t : Target} {up den d : Nat} (h : t.holds up den d = true) :
    t.low * up ≤ d * den ∧ d * den ≤ t.high * up := by
  rw [Target.holds] at h
  split at h <;> simp only [Bool.and_eq_true, decide_eq_true_eq] at h
  · exact h
  · exact ⟨h.1.le, h.2.le⟩

/-- So many units of the grid as a decimal, without the zeros behind it. -/
def trimmed (d : Nat) (places : Int) : Shortest :=
  let digits := Nat.toDigits 10 d
  let kept := (digits.reverse.dropWhile (· == '0')).reverse
  ⟨if kept.isEmpty then ['0'] else kept, (digits.length : Int) - 1 - places⟩

/-- **What the grid yields**: a number of its units that the interval holds. -/
theorem exists_of_onGrid {t : Target} {lead : Int} {n : Nat} {s : Shortest}
    (h : onGrid t lead n = some s) : ∃ d places, s = trimmed d places ∧
      t.holds (10 ^ places.toNat) (t.den * 10 ^ (-places).toNat) d = true := by
  obtain ⟨d, hpick, rfl⟩ := Option.map_eq_some_iff.mp h
  exact ⟨d, n - 1 - lead, rfl, inside_of_pick (t.holds _ _) (either_of_ite _ _) hpick⟩

/-- The zeros behind it make no difference to a decimal. -/
theorem value_trimmed {d : Nat} (hd : 0 < d) (places : Int) :
    (trimmed d places).value = d * 10 ^ (-places) ∧
      (trimmed d places).digits.head? ≠ some '0' := by
  obtain ⟨kept, k, hkept, hdigits, hne, hhead⟩ := exists_kept hd
  have htrimmed : trimmed d places = ⟨kept, (Nat.toDigits 10 d).length - 1 - places⟩ := by
    rw [trimmed, hkept, if_neg (by simpa using hne)]
  have hlast : (trimmed d places).lastExponent = k + -places := by
    have := List.length_pos_iff.mpr hne
    rw [htrimmed, lastExponent, hdigits, List.length_append, List.length_replicate]
    dsimp only
    omega
  have hall := foldl_onto_toDigits d
  rw [hdigits, List.map_append, List.foldl_append, foldl_onto_zeros] at hall
  constructor
  · rw [value, hlast, zpow_add₀ (by norm_num), zpow_natCast, ← mul_assoc, htrimmed]
    congr 1
    exact_mod_cast hall
  · rw [htrimmed]
    exact hhead

/-- **A decimal of the grid is in the interval** that rounds to the real. -/
theorem value_onGrid_le {t : Target} {lead : Int} {n : Nat} {s : Shortest}
    (hlow : 0 < t.low) (hden : 0 < t.den) (h : onGrid t lead n = some s) :
    s.Regular ∧ s.value ≤ t.high / t.den := by
  have hproper := proper_onGrid h
  obtain ⟨d, places, rfl, hholds⟩ := exists_of_onGrid h
  obtain ⟨hge, hle⟩ := Target.bounds_of_holds hholds
  have hd : 0 < d := by
    rcases Nat.eq_zero_or_pos d with rfl | hd
    · have := Nat.mul_pos hlow (Nat.pow_pos (n := places.toNat) (by decide : 0 < 10))
      omega
    · exact hd
  obtain ⟨hvalue, hhead⟩ := value_trimmed hd places
  refine ⟨⟨hproper, hhead⟩, ?_⟩
  have hup : (10 : ℚ) ^ places.toNat = 10 ^ (-places).toNat * 10 ^ places := by
    rw [← zpow_natCast, ← zpow_natCast, ← zpow_add₀ (by norm_num)]
    congr 1
    omega
  have hreal : (d : ℚ) * (t.den * 10 ^ (-places).toNat) ≤ t.high * 10 ^ places.toNat := by
    exact_mod_cast hle
  have hdown : (0 : ℚ) < 10 ^ (-places).toNat := by positivity
  rw [hvalue, le_div_iff₀ (by exact_mod_cast hden), zpow_neg, mul_right_comm,
    ← div_eq_mul_inv, div_le_iff₀ (by positivity)]
  refine le_of_mul_le_mul_right ?_ hdown
  rw [hup] at hreal
  calc (d : ℚ) * t.den * 10 ^ (-places).toNat = d * (t.den * 10 ^ (-places).toNat) :=
        mul_assoc _ _ _
    _ ≤ t.high * (10 ^ (-places).toNat * 10 ^ places) := hreal
    _ = t.high * 10 ^ places * 10 ^ (-places).toNat := by ring

/-- A decimal is at least the power of ten of its first digit. -/
theorem Regular.pow_le_value {s : Shortest} (h : s.Regular) : (10 : ℚ) ^ s.exponent ≤ s.value := by
  obtain ⟨c, cs, hcs⟩ := List.exists_cons_of_ne_nil h.ne_nil
  have hhead := h.head_ne
  have hdigit := h.isDigit c (hcs ▸ List.mem_cons_self)
  rw [hcs] at hhead
  have hone : 1 ≤ digit (ascii c) := by
    rw [digit_ascii hdigit]
    simp only [Char.isDigit, Bool.and_eq_true, decide_eq_true_eq, UInt32.le_iff_toNat_le] at hdigit
    have hge : 48 ≤ c.toNat := hdigit.1
    have hne : c.toNat ≠ ('0' : Char).toNat :=
      fun h0 => hhead (congrArg some (Char.toNat_inj.mp h0))
    have hzero : ('0' : Char).toNat = 48 := rfl
    omega
  have hsignificand : 10 ^ cs.length ≤ s.significand := by
    rw [significand, hcs, List.map_cons, List.foldl_cons, foldl_onto_append, onto, Nat.zero_mul,
      Nat.zero_add, List.length_map]
    exact Nat.le_trans (Nat.le_mul_of_pos_left _ hone) (Nat.le_add_right _ _)
  have hlast : s.lastExponent = s.exponent - cs.length := by
    rw [lastExponent, hcs]
    simp
  rw [value, hlast, zpow_sub₀ (by norm_num), zpow_natCast, mul_div_assoc',
    le_div_iff₀ (by positivity), mul_comm]
  refine mul_le_mul_of_nonneg_right ?_ (by positivity)
  exact_mod_cast hsignificand

/-! ## The shortest decimal of a double -/

/-- The exponent field of a double. -/
def biased (bits : UInt64) : Nat := bits.toNat / 0x10_0000_0000_0000 % 0x800

/-- The digits of a double, the one in front of its fraction included. -/
def mantissa (bits : UInt64) : Nat :=
  if biased bits = 0 then bits.toNat % 0x10_0000_0000_0000
  else bits.toNat % 0x10_0000_0000_0000 + 0x10_0000_0000_0000

/-- The exponent of a double, the same for the smallest doubles. -/
def shift (bits : UInt64) : Nat := if biased bits = 0 then 1 else biased bits

theorem mantissa_lt (bits : UInt64) : mantissa bits < 2 ^ 53 := by
  rw [mantissa]
  split <;> omega

theorem mantissa_pos {bits : UInt64} (h : bits.toNat % 0x8000_0000_0000_0000 ≠ 0) :
    0 < mantissa bits := by
  rw [mantissa, biased]
  split <;> omega

/-- The upper end of the interval that rounds to a double. -/
theorem high_div_den (bits : UInt64) : ((Target.ofBits bits).high : ℚ) / (Target.ofBits bits).den =
    Rounding.dyadic (4 * mantissa bits + 2) (shift bits - 1077) := by
  have hpow (k : Nat) : ((Nat.pow 2 (k - 1077) : Nat) : ℚ) / (Nat.pow 2 (1077 - k) : Nat) =
      2 ^ ((k : Int) - 1077) := by
    show ((2 ^ (k - 1077) : Nat) : ℚ) / (2 ^ (1077 - k) : Nat) = _
    have hsub : ((k - 1077 : Nat) : Int) - (1077 - k : Nat) = k - 1077 := by omega
    rw [Nat.cast_pow, Nat.cast_pow, ← zpow_natCast, ← zpow_natCast, Nat.cast_ofNat,
      ← zpow_sub₀ (by norm_num), hsub]
  show (((4 * mantissa bits + 2) * Nat.pow 2 (shift bits - 1077) : Nat) : ℚ) /
    (Nat.pow 2 (1077 - shift bits) : Nat) = _
  rw [Nat.cast_mul, mul_div_assoc, hpow, Rounding.dyadic]

/-- **The shortest decimal of a double is in its interval**, if one is found. -/
theorem value_ofBits_le {bits : UInt64} (h : bits.toNat % 0x8000_0000_0000_0000 ≠ 0) :
    ofBits bits = ⟨['0'], 0⟩ ∨ (ofBits bits).Regular ∧
      (ofBits bits).value ≤ Rounding.dyadic (4 * mantissa bits + 2) (shift bits - 1077) := by
  have hpos := mantissa_pos h
  have hlow : 0 < (Target.ofBits bits).low := by
    refine Nat.mul_pos ?_ (Nat.pow_pos (by decide))
    show 0 < 4 * mantissa bits - if _ then 1 else 2
    split <;> omega
  have hden : 0 < (Target.ofBits bits).den := Nat.pow_pos (by decide)
  rw [← high_div_den]
  unfold ofBits
  dsimp only
  cases hfind : (List.range' 1 17).findSome? _ with
  | none => exact .inl rfl
  | some s =>
    obtain ⟨n, -, hn⟩ := List.exists_of_findSome?_eq_some hfind
    exact .inr (value_onGrid_le hlow hden hn)

/-! ## Room for rounding -/

/-- The bits of the three largest doubles of either sign. -/
def largest : List UInt64 :=
  [0x7FEFFFFFFFFFFFFD, 0x7FEFFFFFFFFFFFFE, 0x7FEFFFFFFFFFFFFF,
    0xFFEFFFFFFFFFFFFD, 0xFFEFFFFFFFFFFFFE, 0xFFEFFFFFFFFFFFFF]

theorem mem_largest {bits : UInt64} (hshift : shift bits = 2046)
    (hmantissa : 2 ^ 53 - 4 < mantissa bits) : bits ∈ largest := by
  have hbiased : biased bits = 2046 := by
    rw [shift] at hshift
    split at hshift <;> omega
  rw [mantissa, if_neg (by omega)] at hmantissa
  rw [biased] at hbiased
  have hlt := bits.toNat_lt
  simp only [largest, List.mem_cons, List.not_mem_nil, or_false, ← UInt64.toNat_inj,
    UInt64.reduceToNat]
  omega

/-- The decimals of the largest doubles are scaled as they are. -/
theorem scales_largest : ∀ bits ∈ largest, (ofBits bits).exponent = 308 ∧
    (ofBits bits).significand ≤ maxSignificand ∧
      (scale (ofBits bits).significand (ofBits bits).lastExponent).isSome = true := by
  -- one goal for each of the six: the quantifier itself may be decided over all words
  simp only [largest, List.forall_mem_cons]
  refine ⟨?_, ?_, ?_, ?_, ?_, ?_, List.forall_mem_nil _⟩ <;> decide +kernel

/-- A double that is not of the largest stays away from the top. -/
theorem le_of_not_mem_largest {bits : UInt64} (hfinite : biased bits ≠ 0x7FF)
    (h : bits ∉ largest) :
    Rounding.dyadic (4 * mantissa bits + 2) (shift bits - 1077) ≤
      Rounding.dyadic (2 ^ 54 - 7) (970 : Nat) := by
  have hbiased : biased bits < 0x7FF := by
    have : biased bits < 0x800 := Nat.mod_lt _ (by decide)
    omega
  have hshift : shift bits ≤ 2046 := by
    rw [shift]
    split <;> omega
  obtain ⟨k, hk⟩ : ∃ k : Nat, 2047 = shift bits + k := ⟨2047 - shift bits, by omega⟩
  have hexponent : ((970 : Nat) : Int) = (shift bits - 1077 : Int) + k := by omega
  rw [hexponent, Rounding.dyadic_add]
  refine Rounding.dyadic_mono ?_ _
  have hmantissa := mantissa_lt bits
  rcases Nat.lt_or_ge 1 k with hk2 | hk1
  · have hpow : 2 ^ 2 ≤ 2 ^ k := Nat.pow_le_pow_right (by decide) hk2
    calc 4 * mantissa bits + 2 ≤ (2 ^ 54 - 7) * 2 ^ 2 := by omega
      _ ≤ (2 ^ 54 - 7) * 2 ^ k := Nat.mul_le_mul_left _ hpow
  · obtain rfl : k = 1 := by omega
    rcases Nat.lt_or_ge (2 ^ 53 - 4) (mantissa bits) with hlarge | hsmall
    · refine absurd (mem_largest ?_ hlarge) h
      omega
    · omega

end Shortest

namespace Rounding

/-- **Below the interval of the largest doubles there is room** for all rounding. -/
theorem roomy : dyadic (2 ^ 54 - 7) (970 : Nat) * slack ^ 2 < top := by
  rw [top, dyadic, dyadic, mul_right_comm]
  refine mul_lt_mul_of_pos_right ?_ (zpow_pos two_pos _)
  norm_num [slack]

end Rounding

namespace Json.Reader

variable {rest : Bytes} {n : Nat} {y : Int}

/-- What stays below the top is scaled, however much of it is kept. -/
theorem scalable_of_lt (h : (n : ℚ) * 10 ^ y * Rounding.slack ^ 2 < Rounding.top) :
    Scalable n y := by
  intro m j hm hle _
  refine Rounding.isSome_scale (Nat.lt_succ_of_le hm) (lt_of_le_of_lt ?_ h)
  refine mul_le_mul_of_nonneg_right ?_ (sq_nonneg _)
  rw [zpow_add₀ (by norm_num), zpow_natCast, mul_comm ((10 : ℚ) ^ y), ← mul_assoc]
  refine mul_le_mul_of_nonneg_right ?_ (by positivity)
  exact_mod_cast hle

/-- Zero is written with a point. -/
theorem accepts_zero (hrest : EndsNumber rest) (negative : Bool) :
    Accepts (number negative (['0', '.', '0'].map ascii ++ rest)) rest := by
  refine (Spells.parts (whole_singleton (c := '0') rfl) (.point digits_zero) .none).accepts
    (scalable_of_lt ?_) hrest negative
  have hzero : ([ascii '0'] ++ ['0'].map ascii).foldl onto 0 = 0 := rfl
  rw [hzero, Nat.cast_zero, zero_mul, zero_mul]
  exact lt_of_le_of_lt (by norm_num) (Rounding.pow_ten_lt_top (k := 0) (by decide))

/-- The shortest decimal of a finite double is accepted. -/
theorem accepts_layout {bits : UInt64} (hfinite : Shortest.biased bits ≠ 0x7FF)
    (hnonzero : bits.toNat % 0x8000_0000_0000_0000 ≠ 0) (hrest : EndsNumber rest)
    (negative : Bool) :
    Accepts (number negative ((Number.layout (Shortest.ofBits bits)).map ascii ++ rest)) rest := by
  by_cases hlargest : bits ∈ Shortest.largest
  · obtain ⟨hexponent, hfits, hscale⟩ := Shortest.scales_largest bits hlargest
    have hspells := spells_scientific (Shortest.proper_ofBits bits) (by rw [hexponent]; decide)
      (.inr (by rw [hexponent]; decide))
    refine hspells.accepts (fun m j _ _ hkept => ?_) hrest negative
    obtain ⟨rfl, rfl⟩ := hkept hfits
    rwa [Nat.cast_zero, add_zero]
  rcases Shortest.value_ofBits_le hnonzero with hnone | ⟨hregular, hvalue⟩
  · rw [hnone]
    exact accepts_zero hrest negative
  replace hvalue := hvalue.trans (Shortest.le_of_not_mem_largest hfinite hlargest)
  have hroom : (Shortest.ofBits bits).value * Rounding.slack ^ 2 < Rounding.top :=
    lt_of_le_of_lt (mul_le_mul_of_nonneg_right hvalue (sq_nonneg _)) Rounding.roomy
  have hexponent : (Shortest.ofBits bits).exponent ≤ maxExponent := by
    by_contra hlarge
    have hten : (10 : ℚ) ^ (309 : Int) ≤ (Shortest.ofBits bits).value :=
      (zpow_le_zpow_right₀ (by norm_num) (by simp only [maxExponent] at hlarge; omega)).trans
        hregular.pow_le_value
    have hgrow : (Shortest.ofBits bits).value ≤
        (Shortest.ofBits bits).value * Rounding.slack ^ 2 :=
      le_mul_of_one_le_right ((by positivity : (0 : ℚ) ≤ 10 ^ (309 : Int)).trans hten)
        (one_le_pow₀ Rounding.one_le_slack)
    exact absurd (Rounding.top_le_pow_ten.trans (hten.trans hgrow)) (not_le.mpr hroom)
  obtain ⟨n, y, hspells, hvalue⟩ := exists_spells hregular hexponent
  rw [← hvalue] at hroom
  exact hspells.accepts (scalable_of_lt hroom) hrest negative

/-- **A finite double is never refused**, its sign having been read. -/
theorem accepts_magnitudeText {bits : UInt64} (hfinite : Shortest.biased bits ≠ 0x7FF)
    (hrest : EndsNumber rest) (negative : Bool) :
    Accepts (number negative (magnitudeText bits ++ rest)) rest := by
  rw [magnitudeText]
  split
  · exact accepts_zero hrest negative
  · rename_i hnonzero
    exact accepts_layout hfinite hnonzero hrest negative

end Json.Reader

end Switchboard
