import Switchboard.Proofs.Json.Tokens

/-!
# Proofs/Json/Doubles — where the text of a double ends

A double is written as a decimal (`isDecimal_realText`): digits, perhaps a fraction, perhaps an
exponent.  What the reader makes of a decimal need not be the double that was written, and it may
refuse it; but if it accepts one it has read all of it and nothing more (`stopsAt_number`).
-/

namespace Switchboard

/-! ## Shortest decimals -/

namespace Shortest

/-- There is a digit, and there are only digits. -/
structure Proper (s : Shortest) : Prop where
  ne_nil : s.digits ≠ []
  isDigit : ∀ c ∈ s.digits, c.isDigit

/-- Whatever the grid gives has a digit, and digits only. -/
theorem proper_onGrid {t : Target} {lead : Int} {n : Nat} {s : Shortest}
    (h : onGrid t lead n = some s) : s.Proper := by
  obtain ⟨d, -, rfl⟩ := Option.map_eq_some_iff.mp h
  constructor
  · dsimp only
    split
    · exact List.cons_ne_nil _ _
    · rename_i hkept
      exact fun hnil => hkept (List.isEmpty_iff.mpr hnil)
  · intro c hc
    dsimp only at hc
    split at hc
    · rw [List.mem_singleton.mp hc]
      rfl
    · have hsub := (List.dropWhile_sublist (· == '0')).subset (List.mem_reverse.mp hc)
      exact Nat.isDigit_of_mem_toDigits (by decide) (by decide) (List.mem_reverse.mp hsub)

/-- **The shortest digits of a double are digits**, whichever double it is. -/
theorem proper_ofBits (bits : UInt64) : (ofBits bits).Proper := by
  unfold ofBits
  dsimp only
  cases h : (List.range' 1 17).findSome? _ with
  | none => exact ⟨List.cons_ne_nil _ _, fun c hc => List.mem_singleton.mp hc ▸ rfl⟩
  | some s =>
    obtain ⟨n, -, hn⟩ := List.exists_of_findSome?_eq_some h
    exact proper_onGrid hn

end Shortest

namespace Json.Reader

/-! ## Decimals -/

/-- One digit or more. -/
structure Digits (ds : Bytes) : Prop where
  ne_nil : ds ≠ []
  isDigit : ∀ d ∈ ds, isDigit d

/-- Nothing, or a point and digits. -/
inductive IsFraction : Bytes → Prop where
  | none : IsFraction []
  | point {ds : Bytes} (hds : Digits ds) : IsFraction (0x2e :: ds)

/-- Nothing, or the mark of an exponent, its sign and digits. -/
inductive IsExponent : Bytes → Prop where
  | none : IsExponent []
  | mark {sign : UInt8} {ds : Bytes} (hsign : sign = 0x2b ∨ sign = 0x2d) (hds : Digits ds) :
      IsExponent (0x65 :: sign :: ds)

/-- Digits, a fraction and an exponent. -/
inductive IsDecimal : Bytes → Prop where
  | parts {whole fraction exponent : Bytes} (hwhole : Digits whole)
      (hfraction : IsFraction fraction) (hexponent : IsExponent exponent) :
      IsDecimal (whole ++ (fraction ++ exponent))

/-- A decimal starts with a digit, so that it is not mistaken for anything else. -/
theorem IsDecimal.exists_digit {text : Bytes} (h : IsDecimal text) :
    ∃ d ds, text = d :: ds ∧ isDigit d := by
  obtain ⟨hwhole, -, -⟩ := h
  obtain ⟨d, ds, rfl⟩ := List.exists_cons_of_ne_nil hwhole.ne_nil
  exact ⟨d, _, rfl, hwhole.isDigit d List.mem_cons_self⟩

theorem digits_map_ascii {cs : List Char} (hne : cs ≠ []) (h : ∀ c ∈ cs, c.isDigit) :
    Digits (cs.map ascii) where
  ne_nil := fun hnil => hne (List.map_eq_nil_iff.mp hnil)
  isDigit := List.forall_mem_map.mpr fun c hc => isDigit_ascii (h c hc)

theorem digits_zero : Digits (['0'].map ascii) :=
  digits_map_ascii (List.cons_ne_nil _ _) (List.forall_mem_singleton.mpr rfl)

/-- A natural number is written in digits. -/
theorem digits_decimal (n : Nat) : Digits ((Number.decimal n).map ascii) :=
  digits_map_ascii Nat.toDigits_ne_nil fun _ hc => isDigit_of_mem_decimal hc

/-- Zeros beside digits are digits. -/
theorem isDigit_of_mem_replicate {n : Nat} {c : Char} (h : c ∈ List.replicate n '0') :
    c.isDigit := by
  rw [List.eq_of_mem_replicate h]
  rfl

/-- **However the digits are laid out**, plain, with zeros before or behind them or with an
exponent, the text is a decimal. -/
theorem isDecimal_layout {s : Shortest} (h : s.Proper) :
    IsDecimal ((Number.layout s).map ascii) := by
  obtain ⟨hne, hdigits⟩ := h
  unfold Number.layout
  split
  · -- in scientific form
    have hexponent : IsExponent (List.map ascii
        ('e' :: (if s.exponent < 0 then '-' else '+') :: Number.decimal s.exponent.natAbs)) := by
      refine .mark ?_ (digits_decimal _)
      split
      · exact .inr rfl
      · exact .inl rfl
    rw [List.map_append]
    generalize s.digits = ds at hne hdigits
    match ds with
    | [d] => exact .parts (digits_map_ascii hne hdigits) .none hexponent
    | d :: e :: rest =>
      obtain ⟨hd, hrest⟩ := List.forall_mem_cons.mp hdigits
      have hwhole : Digits ([d].map ascii) :=
        digits_map_ascii (List.cons_ne_nil _ _) (List.forall_mem_singleton.mpr hd)
      have hfraction : Digits ((e :: rest).map ascii) :=
        digits_map_ascii (List.cons_ne_nil _ _) hrest
      exact .parts hwhole (.point hfraction) hexponent
  split
  · -- below one
    have hfraction :
        Digits ((List.replicate (s.exponent.natAbs - 1) '0' ++ s.digits).map ascii) := by
      refine digits_map_ascii (List.append_ne_nil_of_right_ne_nil _ hne) fun c hc => ?_
      exact (List.mem_append.mp hc).elim isDigit_of_mem_replicate (hdigits c)
    have := IsDecimal.parts digits_zero (.point hfraction) .none
    rwa [List.append_nil] at this
  dsimp only
  split
  · -- without a fraction of its own
    have hwhole : Digits ((s.digits ++ List.replicate
        (s.exponent.toNat + 1 - s.digits.length) '0').map ascii) := by
      refine digits_map_ascii (List.append_ne_nil_of_left_ne_nil hne _) fun c hc => ?_
      exact (List.mem_append.mp hc).elim (hdigits c) isDigit_of_mem_replicate
    rw [List.map_append]
    exact .parts hwhole (.point digits_zero) .none
  · -- digits on both sides of the point
    rename_i hlong
    have htake : s.digits.take (s.exponent.toNat + 1) ≠ [] := by
      rw [Ne, List.take_eq_nil_iff]
      exact fun hor => hor.elim (Nat.succ_ne_zero _) hne
    have hdrop : s.digits.drop (s.exponent.toNat + 1) ≠ [] := by
      rw [Ne, List.drop_eq_nil_iff]
      exact hlong
    have hwhole := digits_map_ascii htake fun c hc => hdigits c (List.mem_of_mem_take hc)
    have hfraction := digits_map_ascii hdrop fun c hc => hdigits c (List.mem_of_mem_drop hc)
    have := IsDecimal.parts hwhole (.point hfraction) .none
    rw [List.append_nil] at this
    rw [List.map_append]
    exact this

/-- The text of a double without its sign. -/
def magnitudeText (bits : UInt64) : Bytes :=
  (if bits.toNat % 0x8000_0000_0000_0000 = 0 then ['0', '.', '0']
    else Number.layout (Shortest.ofBits bits)).map ascii

/-- The text of a double is a decimal, zero included. -/
theorem isDecimal_magnitudeText (bits : UInt64) : IsDecimal (magnitudeText bits) := by
  rw [magnitudeText]
  split
  · exact .parts digits_zero (.point digits_zero) .none
  · exact isDecimal_layout (Shortest.proper_ofBits bits)

/-- A negative double has a sign in front. -/
theorem bytes_real (bits : UInt64) : (Json.number (.real bits)).bytes = magnitudeText bits ∨
    (Json.number (.real bits)).bytes = 0x2d :: magnitudeText bits := by
  show (Number.realText bits).map ascii = _ ∨ (Number.realText bits).map ascii = _
  rw [Number.realText, magnitudeText]
  generalize (if bits.toNat % 0x8000_0000_0000_0000 = 0 then _ else _) = cs
  split
  · exact .inr rfl
  · exact .inl rfl

/-- **A double is written as a decimal**, with a sign if it is negative. -/
theorem isDecimal_realText (bits : UInt64) : ∃ text, IsDecimal text ∧
    ((Json.number (.real bits)).bytes = text ∨ (Json.number (.real bits)).bytes = 0x2d :: text) :=
  ⟨magnitudeText bits, isDecimal_magnitudeText bits, bytes_real bits⟩

/-! ## Reading decimals -/

/-- If anything is read, exactly `rest` is left. -/
def StopsAt {α : Type} (r : Reading α) (rest : Bytes) : Prop :=
  ∀ a left, r = .ok (a, left) → left = rest

theorem stopsAt_error {α : Type} (f : Fault) (rest : Bytes) :
    StopsAt (.error f : Reading α) rest := fun _ _ h => nomatch h

theorem stopsAt_ok {α : Type} (a : α) (rest : Bytes) : StopsAt (.ok (a, rest)) rest := by
  intro b left h
  injection h with h
  exact (congrArg Prod.snd h).symm

/-- To change what was read changes nothing about what is left. -/
theorem StopsAt.map {α β : Type} {r : Reading α} {rest : Bytes} (h : StopsAt r rest) (f : α → β) :
    StopsAt (r.map fun p => (f p.1, p.2)) rest := by
  cases r with
  | error e => exact stopsAt_error e rest
  | ok p =>
    obtain ⟨a, left⟩ := p
    rw [← h a left rfl]
    exact stopsAt_ok _ _

/-- What follows the digits in front. -/
theorem dropWhile_isDigit {ds rest : Bytes} (hds : ∀ d ∈ ds, isDigit d) (hrest : EndsDigits rest) :
    (ds ++ rest).dropWhile isDigit = rest := by
  rw [List.dropWhile_append_of_pos hds]
  cases rest with
  | nil => rfl
  | cons b rest => rw [List.dropWhile_cons, hrest b rfl]; rfl

/-- The digits are read up to the first octet that is none. -/
theorem takeWhile_isDigit {ds rest : Bytes} (hds : ∀ d ∈ ds, isDigit d) (hrest : EndsDigits rest) :
    (ds ++ rest).takeWhile isDigit = ds := by
  rw [List.takeWhile_append_of_pos hds]
  cases rest with
  | nil => exact List.append_nil ds
  | cons b rest => rw [List.takeWhile_cons, hrest b rfl]; exact List.append_nil ds

/-- **Of digits a last part is left**, when the number gets too large. -/
theorem collect_digits (max : Nat) {ds rest : Bytes} (hds : ∀ d ∈ ds, isDigit d)
    (hrest : EndsDigits rest) (n count : Nat) : ∃ m k left,
      collect max n count (ds ++ rest) = (m, k, left ++ rest) ∧ ∀ d ∈ left, isDigit d := by
  induction ds generalizing n count with
  | nil =>
    cases rest with
    | nil => exact ⟨n, count, [], rfl, nofun⟩
    | cons b rest =>
      rw [List.nil_append, collect, hrest b rfl]
      exact ⟨n, count, [], rfl, nofun⟩
  | cons d ds ih =>
    rw [List.cons_append, collect]
    split
    · exact ih (fun e he => hds e (List.mem_cons_of_mem _ he)) _ _
    · exact ⟨n, count, d :: ds, rfl, hds⟩

/-- Scaling reads no octet. -/
theorem stopsAt_scaled (negative : Bool) (n : Nat) (exponent : Int) (rest : Bytes) :
    StopsAt (scaled negative n exponent rest) rest := by
  unfold scaled
  split
  · exact stopsAt_ok _ _
  · exact stopsAt_error _ _

variable {rest : Bytes}

/-- An exponent is read to its end. -/
theorem stopsAt_exponentPart {sign : UInt8} {ds : Bytes} (hsign : sign = 0x2b ∨ sign = 0x2d)
    (hds : Digits ds) (hrest : EndsNumber rest) (negative : Bool) (n : Nat) (exponent : Int) :
    StopsAt (exponentPart negative n exponent (sign :: ds ++ rest)) rest := by
  obtain ⟨hne, hdigits⟩ := hds
  obtain ⟨d, ds, rfl⟩ := List.exists_cons_of_ne_nil hne
  obtain ⟨hd, hdigits⟩ := List.forall_mem_cons.mp hdigits
  obtain ⟨m, k, left, hcollect, hleft⟩ :=
    collect_digits maxExponent hdigits hrest.endsDigits (digit d) 1
  have htail : (if decide ((sign :: (d :: ds) ++ rest).head? = some 0x2d) ||
      decide ((sign :: (d :: ds) ++ rest).head? = some 0x2b) then
        (sign :: (d :: ds) ++ rest).tail else sign :: (d :: ds) ++ rest) = d :: (ds ++ rest) := by
    rcases hsign with rfl | rfl <;> rfl
  unfold exponentPart
  dsimp only
  rw [htail]
  simp only [hd, if_true, hcollect]
  cases left with
  | nil =>
    rw [List.nil_append]
    cases rest with
    | nil => exact stopsAt_scaled _ _ _ _
    | cons b rest =>
      simp only [(hrest b rfl).1]
      exact stopsAt_scaled _ _ _ _
  | cons e left =>
    obtain ⟨he, hleft⟩ := List.forall_mem_cons.mp hleft
    simp only [List.cons_append, he, if_true]
    split
    · exact stopsAt_error _ _
    · rw [dropWhile_isDigit hleft hrest.endsDigits]
      exact stopsAt_ok _ _

/-- Behind a fraction there is an exponent or nothing. -/
theorem stopsAt_afterFraction {exponent : Bytes} (hexponent : IsExponent exponent)
    (hrest : EndsNumber rest) (negative : Bool) (n : Nat) (e : Int) :
    StopsAt (afterFraction negative n e (exponent ++ rest)) rest := by
  cases hexponent with
  | none =>
    rw [List.nil_append]
    cases rest with
    | nil => exact stopsAt_scaled _ _ _ _
    | cons b rest =>
      obtain ⟨-, -, he, hE⟩ := hrest b rfl
      simp only [afterFraction, decide_eq_false he, decide_eq_false hE, Bool.or_false,
        Bool.false_eq_true, if_false]
      exact stopsAt_scaled _ _ _ _
  | mark hsign hds => exact stopsAt_exponentPart hsign hds hrest negative n e

/-- The mark of an exponent ends the digits before it. -/
theorem endsDigits_exponent {exponent : Bytes} (hexponent : IsExponent exponent)
    (hrest : EndsNumber rest) : EndsDigits (exponent ++ rest) := by
  cases hexponent with
  | none => exact hrest.endsDigits
  | mark _ _ => exact fun b hb => Option.some.inj hb ▸ rfl

/-- The point of a fraction, or the mark of an exponent, ends the digits before it. -/
theorem endsDigits_fraction {fraction exponent : Bytes} (hfraction : IsFraction fraction)
    (hexponent : IsExponent exponent) (hrest : EndsNumber rest) :
    EndsDigits (fraction ++ exponent ++ rest) := by
  cases hfraction with
  | none => exact endsDigits_exponent hexponent hrest
  | point _ => exact fun b hb => Option.some.inj hb ▸ rfl

/-- A fraction is read to its end, and what follows with it. -/
theorem stopsAt_fractionPart {ds exponent : Bytes} (hds : Digits ds)
    (hexponent : IsExponent exponent) (hrest : EndsNumber rest) (negative : Bool) (n : Nat)
    (e : Int) : StopsAt (fractionPart negative n e (ds ++ (exponent ++ rest))) rest := by
  obtain ⟨m, k, left, hcollect, hleft⟩ := collect_digits 0xFFFF_FFFF_FFFF_FFFF hds.isDigit
    (endsDigits_exponent hexponent hrest) n 0
  obtain ⟨d, ds', rfl⟩ := List.exists_cons_of_ne_nil hds.ne_nil
  have hd := hds.isDigit d List.mem_cons_self
  rw [List.cons_append] at hcollect ⊢
  unfold fractionPart
  simp only [hd, if_true, hcollect,
    dropWhile_isDigit hleft (endsDigits_exponent hexponent hrest)]
  exact stopsAt_afterFraction hexponent hrest negative m _

/-- **A decimal is read as a whole**: nothing of it is left over. -/
theorem stopsAt_afterInteger {fraction exponent : Bytes} (hfraction : IsFraction fraction)
    (hexponent : IsExponent exponent) (hrest : EndsNumber rest) (negative : Bool) (n extra : Nat) :
    StopsAt (afterInteger negative n extra (fraction ++ exponent ++ rest)) rest := by
  have hplain : StopsAt (if extra = 0 then .ok (whole negative n, rest)
      else scaled negative n extra rest) rest := by
    split
    · exact stopsAt_ok _ _
    · exact stopsAt_scaled _ _ _ _
  cases hfraction with
  | point hds =>
    rw [List.append_assoc, List.cons_append]
    exact stopsAt_fractionPart hds hexponent hrest negative n extra
  | none =>
    cases hexponent with
    | mark hsign hds => exact stopsAt_exponentPart hsign hds hrest negative n extra
    | none =>
      rw [List.append_nil, List.nil_append]
      cases rest with
      | nil => exact hplain
      | cons b rest =>
        obtain ⟨-, hpoint, he, hE⟩ := hrest b rfl
        simp only [afterInteger, if_neg hpoint, decide_eq_false he, decide_eq_false hE,
          Bool.or_false, Bool.false_eq_true, if_false]
        exact hplain

/-- **Of a decimal all is read and nothing more**, if it is accepted. -/
theorem stopsAt_number {text : Bytes} (h : IsDecimal text) (hrest : EndsNumber rest)
    (negative : Bool) : StopsAt (number negative (text ++ rest)) rest := by
  cases h with
  | @parts whole fraction exponent hwhole hfraction hexponent =>
    obtain ⟨d, ds, rfl⟩ := List.exists_cons_of_ne_nil hwhole.ne_nil
    obtain ⟨hd, hds⟩ := List.forall_mem_cons.mp hwhole.isDigit
    have hends := endsDigits_fraction hfraction hexponent hrest
    have hinput : (d :: ds) ++ (fraction ++ exponent) ++ rest =
        d :: (ds ++ (fraction ++ exponent ++ rest)) := by
      rw [List.append_assoc, List.cons_append]
    rw [hinput, number]
    split
    · split
      · exact stopsAt_error _ _
      · -- a zero comes alone
        rename_i hnext
        cases ds with
        | nil => exact stopsAt_afterInteger hfraction hexponent hrest negative 0 0
        | cons e ds => exact absurd (hds e List.mem_cons_self) hnext
    · obtain ⟨m, k, left, hcollect, hleft⟩ :=
        collect_digits 0xFFFF_FFFF_FFFF_FFFF hds hends (digit d) 1
      simp only [hcollect, takeWhile_isDigit hleft hends, List.drop_left]
      exact stopsAt_afterInteger hfraction hexponent hrest negative m left.length

end Json.Reader

end Switchboard
