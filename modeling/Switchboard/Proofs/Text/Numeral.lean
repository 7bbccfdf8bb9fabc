import Mathlib.Data.List.TakeWhile
import Switchboard.Proofs.Json.Tokens
import Switchboard.Text.Blank
import Switchboard.Text.Numeral

/-!
# Proofs/Text/Numeral — which texts are read as which number

A numeral is an optional `+` and one or more digits, and its number is what the digits write
(`IsNumeral`).  `natural?` reads just the numerals whose number is within its bound
(`natural?_eq_some_iff`), however many zeros stand in front.  Trimming first admits white space
around a numeral and nothing else, as no character of a numeral is white space
(`natural?_trim_eq_some_iff`).
-/

namespace Switchboard.Text

variable {cs mid before after : List Char} {max n : Nat}

/-! ## White space -/

/-- The code points of white space. -/
def whiteSpace : List Nat :=
  [0x9, 0xa, 0xb, 0xc, 0xd, 0x20, 0x85, 0xa0, 0x1680, 0x2000, 0x2001, 0x2002, 0x2003, 0x2004,
    0x2005, 0x2006, 0x2007, 0x2008, 0x2009, 0x200a, 0x2028, 0x2029, 0x202f, 0x205f, 0x3000]

/-- A run of white space, which may be empty. -/
def Blank (cs : List Char) : Prop := ∀ c ∈ cs, c.toNat ∈ whiteSpace

theorem isBlank_iff {c : Char} : isBlank c = true ↔ c.toNat ∈ whiteSpace := by
  simp only [isBlank, whiteSpace, Bool.or_eq_true, Bool.and_eq_true, decide_eq_true_eq, beq_iff_eq,
    List.mem_cons, List.not_mem_nil, or_false]
  omega

theorem not_isBlank_of_isDigit {c : Char} (h : c.isDigit) : isBlank c = false := by
  have hge : 48 ≤ c.toNat := (Char.isDigit_iff_toNat.mp h).1
  have hle : c.toNat ≤ 57 := (Char.isDigit_iff_toNat.mp h).2
  simp only [isBlank]
  grind

theorem blank_takeWhile (cs : List Char) : Blank (cs.takeWhile isBlank) := fun _ hc =>
  isBlank_iff.mp (List.mem_takeWhile_imp hc)

theorem Blank.reverse (h : Blank cs) : Blank cs.reverse := fun c hc => h c (List.mem_reverse.mp hc)

/-! ## Trimming -/

/-- Blanks are dropped up to a character that is not blank. -/
theorem dropWhile_isBlank_append (hbefore : Blank before)
    (hhead : ∀ c ∈ cs.head?, isBlank c = false) :
    (before ++ cs).dropWhile isBlank = cs := by
  rw [List.dropWhile_append_of_pos fun c hc => isBlank_iff.mpr (hbefore c hc)]
  cases cs with
  | nil => rfl
  | cons c cs => exact List.dropWhile_cons_of_neg (Bool.eq_false_iff.mp (hhead c rfl))

/-- **Trimming takes off what is blank at the ends**, down to a text without blanks. -/
theorem trim_append (hbefore : Blank before) (hmid : ∀ c ∈ mid, isBlank c = false)
    (hafter : Blank after) : trim (before ++ mid ++ after) = mid := by
  by_cases hne : mid = []
  · have hall : Blank (before ++ mid ++ after) := fun c hc => by
      rw [hne, List.append_nil, List.mem_append] at hc
      exact hc.elim (hbefore c) (hafter c)
    rw [trim, List.dropWhile_eq_nil_iff.mpr fun c hc => isBlank_iff.mpr (hall c hc), hne]
    rfl
  · obtain ⟨c, rest, rfl⟩ := List.exists_cons_of_ne_nil hne
    have hhead : ∀ d ∈ (c :: rest ++ after).head?, isBlank d = false := fun d hd =>
      Option.some.inj hd ▸ hmid c List.mem_cons_self
    have hlast : ∀ d ∈ (c :: rest).reverse.head?, isBlank d = false := fun d hd =>
      hmid d (List.mem_reverse.mp (List.mem_of_mem_head? hd))
    rw [trim, List.append_assoc, dropWhile_isBlank_append hbefore hhead, List.reverse_append,
      dropWhile_isBlank_append hafter.reverse hlast, List.reverse_reverse]

/-- Trimming takes nothing off a text without blanks. -/
theorem trim_of_not_blank (h : ∀ c ∈ cs, isBlank c = false) : trim cs = cs := by
  have htrim : trim ([] ++ cs ++ []) = cs := trim_append nofun h nofun
  rwa [List.append_nil] at htrim

/-- What trimming takes off is blank. -/
theorem exists_trim (cs : List Char) :
    ∃ before after, Blank before ∧ Blank after ∧ cs = before ++ trim cs ++ after := by
  refine ⟨cs.takeWhile isBlank, ((cs.dropWhile isBlank).reverse.takeWhile isBlank).reverse,
    blank_takeWhile cs, (blank_takeWhile _).reverse, ?_⟩
  rw [List.append_assoc, trim, ← List.reverse_append, List.takeWhile_append_dropWhile,
    List.reverse_reverse, List.takeWhile_append_dropWhile]

/-! ## Numerals -/

/-- The text is an optional `+` and digits, at least one, that write the number `n`. -/
def IsNumeral (cs : List Char) (n : Nat) : Prop :=
  ∃ sign digits, (sign = [] ∨ sign = ['+']) ∧ digits ≠ [] ∧ (∀ c ∈ digits, c.isDigit = true) ∧
    Nat.ofDigitChars 10 digits 0 = n ∧ cs = sign ++ digits

theorem digitsValue_eq (cs : List Char) : digitsValue cs = Nat.ofDigitChars 10 cs 0 := by
  unfold digitsValue
  generalize 0 = n
  induction cs generalizing n with
  | nil => exact Nat.ofDigitChars_nil.symm
  | cons c cs ih =>
    rw [List.foldl_cons, ih, Nat.ofDigitChars_cons, Nat.mul_comm]
    rfl

theorem digits?_eq_some_iff :
    digits? cs = some n ↔
      cs ≠ [] ∧ (∀ c ∈ cs, c.isDigit = true) ∧ Nat.ofDigitChars 10 cs 0 = n := by
  rw [digits?, digitsValue_eq, Option.ite_none_right_eq_some, List.all_eq_true, Option.some.injEq,
    and_assoc]

/-- **What is read is what the grammar says**, and all numbers up to the bound are read. -/
theorem natural?_eq_some_iff : natural? max cs = some n ↔ IsNumeral cs n ∧ n ≤ max := by
  have hbound : ∀ digits, (digits? digits).filter (· ≤ max) = some n ↔
      (digits ≠ [] ∧ (∀ c ∈ digits, c.isDigit = true) ∧ Nat.ofDigitChars 10 digits 0 = n) ∧
        n ≤ max := fun digits => by
    rw [Option.filter_eq_some_iff, digits?_eq_some_iff, decide_eq_true_eq]
  unfold natural?
  split
  · rename_i rest
    rw [hbound]
    refine and_congr_left fun _ => ⟨fun h => ⟨['+'], rest, .inr rfl, h.1, h.2.1, h.2.2, rfl⟩, ?_⟩
    rintro ⟨sign, digits, rfl | rfl, hne, hdigit, hvalue, hcs⟩
    · -- without a sign the first character would be a digit
      obtain rfl : '+' :: rest = digits := hcs
      exact absurd (hdigit '+' List.mem_cons_self) (by decide)
    · obtain rfl : rest = digits := (List.cons.inj hcs).2
      exact ⟨hne, hdigit, hvalue⟩
  · rename_i hplus
    rw [hbound]
    refine and_congr_left fun _ => ⟨fun h => ⟨[], cs, .inl rfl, h.1, h.2.1, h.2.2, rfl⟩, ?_⟩
    rintro ⟨sign, digits, rfl | rfl, hne, hdigit, hvalue, rfl⟩
    · exact ⟨hne, hdigit, hvalue⟩
    · exact absurd rfl (hplus digits)

/-- A numeral has no other characters than its sign and digits. -/
theorem IsNumeral.sign_or_digit (h : IsNumeral cs n) : ∀ c ∈ cs, c = '+' ∨ c.isDigit = true := by
  obtain ⟨sign, digits, hsign, -, hdigit, -, rfl⟩ := h
  intro c hc
  rcases List.mem_append.mp hc with hc | hc
  · rcases hsign with rfl | rfl
    · exact nomatch hc
    · exact .inl (List.mem_singleton.mp hc)
  · exact .inr (hdigit c hc)

theorem IsNumeral.not_isBlank (h : IsNumeral cs n) : ∀ c ∈ cs, isBlank c = false := fun c hc => by
  rcases h.sign_or_digit c hc with rfl | hdigit
  · rfl
  · exact not_isBlank_of_isDigit hdigit

theorem IsNumeral.ne_nil (h : IsNumeral cs n) : cs ≠ [] := by
  obtain ⟨sign, digits, -, hne, -, -, rfl⟩ := h
  exact List.append_ne_nil_of_right_ne_nil sign hne

/-- **White space around a numeral is all that trimming admits besides it.** -/
theorem natural?_trim_eq_some_iff :
    natural? max (trim cs) = some n ↔ (∃ before numeral after,
      Blank before ∧ IsNumeral numeral n ∧ Blank after ∧ cs = before ++ numeral ++ after) ∧
        n ≤ max := by
  rw [natural?_eq_some_iff]
  refine and_congr_left fun _ => ⟨fun h => ?_, ?_⟩
  · obtain ⟨before, after, hbefore, hafter, hcs⟩ := exists_trim cs
    exact ⟨before, trim cs, after, hbefore, h, hafter, hcs⟩
  · rintro ⟨before, numeral, after, hbefore, h, hafter, rfl⟩
    rwa [trim_append hbefore h.not_isBlank hafter]

/-- The decimal digits of a number are a numeral of it and of no other. -/
theorem isNumeral_decimal_iff {m : Nat} : IsNumeral (Number.decimal n) m ↔ n = m := by
  have hdigit : ∀ c ∈ Number.decimal n, c.isDigit := fun c hc =>
    Json.Reader.isDigit_of_mem_decimal hc
  have hvalue : Nat.ofDigitChars 10 (Number.decimal n) 0 = n := Nat.ofDigitChars_ten_toDigits
  constructor
  · rintro ⟨sign, digits, rfl | rfl, -, -, rfl, hcs⟩
    · exact hvalue.symm.trans (congrArg (Nat.ofDigitChars 10 · 0) hcs)
    · exact absurd (hdigit '+' (hcs ▸ List.mem_cons_self)) (by decide)
  · rintro rfl
    exact ⟨[], _, .inl rfl, Nat.toDigits_ne_nil, hdigit, hvalue, rfl⟩

end Switchboard.Text
