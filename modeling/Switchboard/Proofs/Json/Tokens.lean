import Switchboard.Json.Printer
import Switchboard.Json.Reader

/-!
# Proofs/Json/Tokens — numbers and strings are read back

A written numeral is read digit by digit until something that cannot continue a number
(`EndsNumber`); as it names at most 64 bits, `collect` never gives up on the way
(`number_numeral`).  A written string is read octet by octet: each octet was escaped on its own, so
one step of `content` undoes one step of the printer (`content_escaped`), and UTF-8 is checked on
the whole at the end (`stringBody_stringBytes`).
-/

namespace Switchboard.Json.Reader

/-! ## Digits -/

/-- The octets of a numeral. -/
def numeral (n : Nat) : Bytes := (Number.decimal n).map ascii

/-- The number that goes on with one more digit. -/
def onto (n : Nat) (d : UInt8) : Nat := n * 10 + digit d

theorem toNat_ascii {c : Char} (h : c.isDigit) : (ascii c).toNat = c.toNat := by
  have hle : c.toNat ≤ 57 := by
    simp only [Char.isDigit, Bool.and_eq_true, decide_eq_true_eq, UInt32.le_iff_toNat_le] at h
    exact h.2
  rw [ascii, UInt8.toNat_ofNat']
  omega

theorem isDigit_ascii {c : Char} (h : c.isDigit) : isDigit (ascii c) := by
  have ht := toNat_ascii h
  simp only [Char.isDigit, Bool.and_eq_true, decide_eq_true_eq, UInt32.le_iff_toNat_le] at h
  have hge : 48 ≤ c.toNat := h.1
  have hle : c.toNat ≤ 57 := h.2
  simp only [isDigit, Bool.and_eq_true, decide_eq_true_eq, UInt8.le_iff_toNat_le, ht]
  exact ⟨hge, hle⟩

theorem digit_ascii {c : Char} (h : c.isDigit) : digit (ascii c) = c.toNat - 48 := by
  rw [digit, toNat_ascii h]

theorem isDigit_of_mem_decimal {n : Nat} {c : Char} (h : c ∈ Number.decimal n) : c.isDigit :=
  Nat.isDigit_of_mem_toDigits (by decide) (by decide) h

theorem isDigit_of_mem_numeral {n : Nat} {d : UInt8} (h : d ∈ numeral n) : isDigit d := by
  obtain ⟨c, hc, rfl⟩ := List.mem_map.mp h
  exact isDigit_ascii (isDigit_of_mem_decimal hc)

/-- Digits count alike as characters and as octets. -/
theorem foldl_onto_map_ascii {cs : List Char} (h : ∀ c ∈ cs, c.isDigit) (n : Nat) :
    (cs.map ascii).foldl onto n = Nat.ofDigitChars 10 cs n := by
  induction cs generalizing n with
  | nil => rw [Nat.ofDigitChars_nil]; rfl
  | cons c cs ih =>
    rw [List.map_cons, List.foldl_cons, ih fun d hd => h d (List.mem_cons_of_mem _ hd),
      Nat.ofDigitChars_cons, onto, digit_ascii (h c List.mem_cons_self), Nat.mul_comm]
    rfl

/-- **A numeral is worth the number it writes.** -/
theorem foldl_onto_numeral (n : Nat) : (numeral n).foldl onto 0 = n := by
  rw [numeral, foldl_onto_map_ascii fun _ hc => isDigit_of_mem_decimal hc, Number.decimal,
    Nat.ofDigitChars_ten_toDigits]

/-- A positive numeral starts with a digit other than `0`. -/
theorem exists_head_numeral {n : Nat} (h : n ≠ 0) :
    ∃ d ds, numeral n = d :: ds ∧ isDigit d ∧ d ≠ 0x30 := by
  induction n using Nat.strongRecOn with
  | ind n ih =>
    by_cases hn : n < 10
    · have hdigits : numeral n = [ascii n.digitChar] := by
        rw [numeral, Number.decimal, Nat.toDigits_of_lt_base hn]
        rfl
      refine ⟨_, [], hdigits, isDigit_of_mem_numeral (n := n) (hdigits ▸ List.mem_cons_self), ?_⟩
      have hall : ∀ m < 10, m ≠ 0 → ascii m.digitChar ≠ 0x30 := by decide
      exact hall n hn h
    · obtain ⟨d, ds, hds, hd, hne⟩ := ih (n / 10) (by omega) (by omega)
      refine ⟨d, ds ++ [ascii (n % 10).digitChar], ?_, hd, hne⟩
      rw [numeral, Number.decimal, Nat.toDigits_of_base_le (by decide) (Nat.not_lt.mp hn),
        List.map_append, ← Number.decimal, ← numeral, hds]
      rfl

/-! ## Numbers -/

/-- Can what follows not continue a number? -/
def EndsNumber (rest : Bytes) : Prop :=
  ∀ b ∈ rest.head?, isDigit b = false ∧ b ≠ 0x2e ∧ b ≠ 0x65 ∧ b ≠ 0x45

/-- Does no digit come first? -/
def EndsDigits (rest : Bytes) : Prop := ∀ b ∈ rest.head?, isDigit b = false

theorem EndsNumber.endsDigits {rest : Bytes} (h : EndsNumber rest) : EndsDigits rest :=
  fun b hb => (h b hb).1

theorem endsNumber_nil : EndsNumber [] := fun b hb => by cases hb

/-- A comma or a closing bracket ends a number. -/
theorem endsNumber_cons {b : UInt8} (h : b = 0x2c ∨ b = 0x5d ∨ b = 0x7d) (rest : Bytes) :
    EndsNumber (b :: rest) := by
  intro c hc
  obtain rfl : b = c := Option.some.inj hc
  rcases h with rfl | rfl | rfl <;> decide

theorem EndsNumber.takeWhile_isDigit {rest : Bytes} (h : EndsNumber rest) :
    rest.takeWhile isDigit = [] := by
  cases rest with
  | nil => rfl
  | cons b rest => rw [List.takeWhile_cons, (h b rfl).1]; rfl

theorem le_foldl_onto (ds : Bytes) (n : Nat) : n ≤ ds.foldl onto n := by
  induction ds generalizing n with
  | nil => exact Nat.le_refl n
  | cons d ds ih =>
    have hstep : n ≤ onto n d := by
      rw [onto]
      omega
    exact Nat.le_trans hstep (ih (onto n d))

/-- **Digits are collected to the end** while the number they write is small enough. -/
theorem collect_append {max : Nat} {ds rest : Bytes} (hds : ∀ d ∈ ds, isDigit d)
    (hrest : EndsDigits rest) (n count : Nat) (hmax : ds.foldl onto n ≤ max) :
    collect max n count (ds ++ rest) = (ds.foldl onto n, count + ds.length, rest) := by
  induction ds generalizing n count with
  | nil =>
    cases rest with
    | nil => rfl
    | cons b rest =>
      rw [List.nil_append, collect, hrest b rfl]
      rfl
  | cons d ds ih =>
    have hstep : n * 10 + digit d ≤ max := Nat.le_trans (le_foldl_onto ds _) hmax
    have hd : (isDigit d && decide (n * 10 + digit d ≤ max)) = true := by
      rw [hds d List.mem_cons_self, decide_eq_true hstep]
      rfl
    have hcount : count + 1 + ds.length = count + (d :: ds).length := by
      rw [List.length_cons]
      omega
    rw [List.cons_append, collect, if_pos hd, ← onto,
      ih (fun e he => hds e (List.mem_cons_of_mem _ he)) _ _ hmax, hcount, List.foldl_cons]

/-- Where a number ends after its digits it is an integer. -/
theorem afterInteger_eq {rest : Bytes} (h : EndsNumber rest) (negative : Bool) (n : Nat) :
    afterInteger negative n 0 rest = .ok (whole negative n, rest) := by
  cases rest with
  | nil => rfl
  | cons b rest =>
    obtain ⟨-, hpoint, he, hE⟩ := h b rfl
    simp only [afterInteger, if_neg hpoint, decide_eq_false he, decide_eq_false hE, Bool.or_false,
      Bool.false_eq_true, if_false, if_true]

/-- **A numeral of at most 64 bits is read back as an integer.** -/
theorem number_numeral {n : Nat} (hn : n < 0x1_0000_0000_0000_0000) {rest : Bytes}
    (h : EndsNumber rest) (negative : Bool) :
    number negative (numeral n ++ rest) = .ok (whole negative n, rest) := by
  by_cases h0 : n = 0
  · subst h0
    have hhead : (rest.head?.map isDigit).getD false = false := by
      cases rest with
      | nil => rfl
      | cons b rest => exact (h b rfl).1
    rw [show numeral 0 = [0x30] from rfl, List.cons_append, List.nil_append, number, if_pos rfl,
      hhead]
    exact afterInteger_eq h negative 0
  · obtain ⟨d, ds, hds, hd, hne⟩ := exists_head_numeral h0
    have hvalue : ds.foldl onto (digit d) = n := by
      rw [← foldl_onto_numeral n, hds, List.foldl_cons, onto, Nat.zero_mul, Nat.zero_add]
    have hdigits : ∀ e ∈ ds, isDigit e := fun e he =>
      isDigit_of_mem_numeral (n := n) (hds ▸ List.mem_cons_of_mem _ he)
    have hmax : ds.foldl onto (digit d) ≤ 0xFFFF_FFFF_FFFF_FFFF := by omega
    have hcollect := collect_append hdigits h.endsDigits (digit d) 1 hmax
    rw [hds, List.cons_append, number, if_neg hne, if_pos hd, hcollect, hvalue]
    dsimp only
    rw [h.takeWhile_isDigit]
    exact afterInteger_eq h negative n

/-- The octets of a number that is no double. -/
theorem whole_toNat (n : UInt64) : whole false n.toNat = .natural n := by
  rw [whole, Bool.not_false, if_pos rfl, UInt64.ofNat_toNat]

theorem whole_succ (n : Fin 0x8000_0000_0000_0000) : whole true (n.val + 1) = .negative n := by
  have hn : 0 < n.val + 1 ∧ n.val + 1 ≤ 0x8000_0000_0000_0000 := ⟨Nat.succ_pos _, n.isLt⟩
  rw [whole, Bool.not_true, if_neg (by decide), dif_pos hn]
  rfl

/-! ## Strings -/

theorem hexValue?_hexOctet : ∀ n < 16, hexValue? (hexOctet n) = some n := by decide

/-- The octet of a control character is its code point. -/
theorem ofText_control : ∀ n < 32,
    Bytes.ofText (String.singleton (Char.ofNat n)) = [UInt8.ofNat n] := by
  decide +kernel

/-- An octet above the controls, other than the two that are escaped, stands for itself. -/
theorem escaped_plain {b : UInt8} (hq : b ≠ 0x22) (hb : b ≠ 0x5c) (h : 0x20 ≤ b) :
    escaped b = [b] := by rw [escaped, if_neg hq, if_neg hb, if_pos h]

theorem escape_letter {c b : UInt8} (h : escapeLetter? c = some b) (rest : Bytes) :
    escape (c :: rest) = .ok ([b], rest) := by rw [escape, h]

/-- **The hexadecimal escape of a control octet stands for it.** -/
theorem escape_hexadecimal {b : UInt8} (h : b.toNat < 32) (rest : Bytes) :
    escape (0x75 :: 0x30 :: 0x30 :: hexOctet (b.toNat / 16) :: hexOctet (b.toNat % 16) :: rest) =
      .ok ([b], rest) := by
  have hquad : hexQuad (0x30 :: 0x30 :: hexOctet (b.toNat / 16) :: hexOctet (b.toNat % 16) ::
      rest) = .ok (b.toNat, rest) := by
    have hzero : hexValue? 0x30 = some 0 := by decide
    simp only [hexQuad, hzero, hexValue?_hexOctet (b.toNat / 16) (by omega),
      hexValue?_hexOctet (b.toNat % 16) (by omega), Except.ok.injEq, Prod.mk.injEq, and_true]
    omega
  have hpoint : codePoint (0x30 :: 0x30 :: hexOctet (b.toNat / 16) :: hexOctet (b.toNat % 16) ::
      rest) = .ok (b.toNat, rest) := by
    rw [codePoint, hquad]
    change (if 0xdc00 ≤ b.toNat ∧ b.toNat ≤ 0xdfff then _ else _) = _
    rw [if_neg (by omega), if_pos (by omega)]
  have hletter : escapeLetter? 0x75 = none := by decide
  rw [escape, hletter]
  change (codePoint _ >>= _) = _
  rw [hpoint]
  change Except.ok (Bytes.ofText (String.singleton (Char.ofNat b.toNat)), rest) = _
  rw [ofText_control b.toNat h, UInt8.ofNat_toNat]

/-- A control octet is written as a backslash and an escape that stands for it. -/
theorem escape_control {b : UInt8} (h : ¬0x20 ≤ b) (rest : Bytes) :
    ∃ letters, escaped b = 0x5c :: letters ∧ escape (letters ++ rest) = .ok ([b], rest) := by
  have hquote : b ≠ 0x22 := fun hb => h (hb ▸ by decide)
  have hslash : b ≠ 0x5c := fun hb => h (hb ▸ by decide)
  have hlt : b.toNat < 32 := Nat.not_le.mp fun hle => h (UInt8.le_iff_toNat_le.mpr hle)
  rw [escaped, if_neg hquote, if_neg hslash, if_neg h]
  by_cases h08 : b = 0x08
  · subst h08
    exact ⟨_, rfl, escape_letter (by decide) rest⟩
  by_cases h0c : b = 0x0c
  · subst h0c
    exact ⟨_, rfl, escape_letter (by decide) rest⟩
  by_cases h0a : b = 0x0a
  · subst h0a
    exact ⟨_, rfl, escape_letter (by decide) rest⟩
  by_cases h0d : b = 0x0d
  · subst h0d
    exact ⟨_, rfl, escape_letter (by decide) rest⟩
  by_cases h09 : b = 0x09
  · subst h09
    exact ⟨_, rfl, escape_letter (by decide) rest⟩
  rw [if_neg h08, if_neg h0c, if_neg h0a, if_neg h0d, if_neg h09]
  exact ⟨_, rfl, escape_hexadecimal hlt rest⟩

/-- **One step of the reader undoes one step of the printer.** -/
theorem content_escaped (b : UInt8) (n : Nat) (before rest : Bytes) :
    content (n + 1) before (escaped b ++ rest) = content n (b :: before) rest := by
  have hslash (letters : Bytes) (h : escape (letters ++ rest) = .ok ([b], rest)) :
      content (n + 1) before (0x5c :: letters ++ rest) = content n (b :: before) rest := by
    rw [List.cons_append, content, if_neg (by decide), if_pos rfl, h]
    rfl
  by_cases hq : b = 0x22
  · subst hq
    exact hslash [0x22] (escape_letter (by decide) rest)
  by_cases hb : b = 0x5c
  · subst hb
    exact hslash [0x5c] (escape_letter (by decide) rest)
  by_cases h : 0x20 ≤ b
  · have hlt : ¬b < 0x20 := UInt8.not_lt.mpr h
    rw [escaped_plain hq hb h, List.cons_append, List.nil_append, content, if_neg hq, if_neg hb,
      if_neg hlt]
  · obtain ⟨letters, hletters, hescape⟩ := escape_control h rest
    rw [hletters]
    exact hslash letters hescape

theorem content_flatMap_escaped (bs : Bytes) (n : Nat) (before rest : Bytes) (h : bs.length < n) :
    content n before (bs.flatMap escaped ++ 0x22 :: rest) = .ok (bs.reverse ++ before, rest) := by
  induction bs generalizing n before with
  | nil =>
    obtain ⟨n, rfl⟩ := Nat.exists_eq_add_one_of_ne_zero (Nat.ne_of_gt h)
    rw [List.flatMap_nil, List.nil_append, content, if_pos rfl]
    rfl
  | cons b bs ih =>
    rw [List.length_cons] at h
    obtain ⟨n, rfl⟩ := Nat.exists_eq_add_one_of_ne_zero (show n ≠ 0 by omega)
    rw [List.flatMap_cons, List.append_assoc, content_escaped, ih n (b :: before) (by omega),
      List.reverse_cons, List.append_assoc]
    rfl

theorem length_escaped_pos (b : UInt8) : 1 ≤ (escaped b).length := by
  fun_cases escaped b <;> exact Nat.succ_pos _

/-- Escaping leaves no octet out, so the length of a string bounds the steps of its reader. -/
theorem length_le_flatMap_escaped (bs : Bytes) : bs.length ≤ (bs.flatMap escaped).length := by
  induction bs with
  | nil => exact Nat.le_refl 0
  | cons b bs ih =>
    have hb := length_escaped_pos b
    rw [List.flatMap_cons, List.length_append, List.length_cons]
    omega

/-- **A string is read back**, its opening quotation mark having been read. -/
theorem stringBody_escaped (s : String) (rest : Bytes) :
    stringBody ((Bytes.ofText s).flatMap escaped ++ 0x22 :: rest) = .ok (s, rest) := by
  have hlength : (Bytes.ofText s).length <
      ((Bytes.ofText s).flatMap escaped ++ 0x22 :: rest).length := by
    have := length_le_flatMap_escaped (Bytes.ofText s)
    rw [List.length_append, List.length_cons]
    omega
  rw [stringBody, content_flatMap_escaped _ _ _ _ hlength]
  simp only [List.append_nil, List.reverse_reverse, Bytes.text?_ofText]

end Switchboard.Json.Reader
