import Switchboard.Proofs.Text.Numeral
import Switchboard.Proofs.Wire.RoundTrip

/-!
# Proofs/Wire/Directive — the count in a directive

The directive that announces followers writes their number in decimal behind a mark, inside a text
inside a header.  More texts are read than are written: white space may stand around the number, a
`+` and zeros in front of it (`Header.Directs`), and nothing else (`Header.directive?_eq_some_iff`).
What was written is read back as the number it was written for
(`Header.followers?_withFollowers`), unless that is zero or does not fit 64 bits.  The header with
the directive is as plain as it was without it (`Header.Plain.withFollowers`), so it comes back
whole.
-/

namespace Switchboard.Header

variable {h : Header} {text : String} {n m : Nat}

/-! ## The grammar -/

/-- The text is the mark and a numeral of `n`, with any white space before and after the numeral. -/
def Directs (text : String) (n : Nat) : Prop :=
  ∃ before numeral after, Text.Blank before ∧ Text.IsNumeral numeral n ∧ Text.Blank after ∧
    text.toList = "enable;".toList ++ (before ++ numeral ++ after)

theorem afterMark_eq_some_iff {mark cs rest : List Char} :
    afterMark mark cs = some rest ↔ cs = mark ++ rest := by
  rw [afterMark, Option.ite_none_right_eq_some, Option.some.injEq, List.isPrefixOf_iff_prefix]
  constructor
  · rintro ⟨⟨rest, rfl⟩, rfl⟩
    rw [List.drop_left]
  · rintro rfl
    exact ⟨List.prefix_append _ _, List.drop_left⟩

/-- **A text is read as a directive just where the grammar has it**, for a positive count of 64
bits. -/
theorem directive?_eq_some_iff :
    directive? text = some n ↔ (1 ≤ n ∧ n ≤ maxFollowers) ∧ Directs text n := by
  have hcount : ∀ rest, (Text.natural? maxFollowers (Text.trim rest)).filter (0 < ·) = some n ↔
      ((∃ before numeral after, Text.Blank before ∧ Text.IsNumeral numeral n ∧ Text.Blank after ∧
        rest = before ++ numeral ++ after) ∧ n ≤ maxFollowers) ∧ 1 ≤ n := fun rest => by
    rw [Option.filter_eq_some_iff, Text.natural?_trim_eq_some_iff, decide_eq_true_eq]
    exact Iff.rfl
  rw [directive?, Option.bind_eq_some_iff]
  constructor
  · rintro ⟨rest, hrest, hnumeral⟩
    obtain ⟨⟨⟨before, numeral, after, hbefore, hn, hafter, rfl⟩, hmax⟩, hpos⟩ :=
      (hcount rest).mp hnumeral
    exact ⟨⟨hpos, hmax⟩, before, numeral, after, hbefore, hn, hafter,
      afterMark_eq_some_iff.mp hrest⟩
  · rintro ⟨⟨hpos, hmax⟩, before, numeral, after, hbefore, hn, hafter, htext⟩
    exact ⟨_, afterMark_eq_some_iff.mpr htext,
      (hcount _).mpr ⟨⟨⟨before, numeral, after, hbefore, hn, hafter, rfl⟩, hmax⟩, hpos⟩⟩

/-- An ideographic space, a sign and zeros are read past; a second sign is not. -/
example : directive? "enable;\u3000+007\n" = some 7 ∧ directive? "enable;++7" = none := by decide

theorem followers?_eq_some_iff :
    h.followers? = some n ↔ (1 ≤ n ∧ n ≤ maxFollowers) ∧
      ∃ text, h.get? pipeKey = some (.string text) ∧ Directs text n := by
  simp only [followers?, Option.bind_eq_some_iff, text?_eq_some_iff, directive?_eq_some_iff]
  grind

/-! ## Directives that were written -/

theorem directive?_decimal_eq_some_iff :
    directive? (pipeMark ++ String.ofList (Number.decimal n)) = some m ↔
      n = m ∧ 1 ≤ n ∧ n ≤ maxFollowers := by
  have hmark : afterMark pipeMark.toList (pipeMark ++ String.ofList (Number.decimal n)).toList =
      some (Number.decimal n) :=
    afterMark_eq_some_iff.mpr (by rw [String.toList_append, String.toList_ofList])
  have htrim : Text.trim (Number.decimal n) = Number.decimal n :=
    Text.trim_of_not_blank (Text.isNumeral_decimal_iff.mpr rfl).not_isBlank
  rw [directive?, hmark, Option.bind_some, htrim, Option.filter_eq_some_iff,
    Text.natural?_eq_some_iff, Text.isNumeral_decimal_iff, decide_eq_true_eq]
  constructor
  · rintro ⟨⟨rfl, hmax⟩, hpos⟩
    exact ⟨rfl, hpos, hmax⟩
  · rintro ⟨rfl, hpos, hmax⟩
    exact ⟨⟨rfl, hmax⟩, hpos⟩

theorem followers?_withFollowers_eq_some_iff :
    (h.withFollowers n).followers? = some m ↔ n = m ∧ 1 ≤ n ∧ n ≤ maxFollowers := by
  rw [followers?, text?, withFollowers, KeyMap.get?_insert, if_pos rfl]
  exact directive?_decimal_eq_some_iff

/-- **The directive announces the number it was made for.** -/
theorem followers?_withFollowers (h : Header) (hpos : 0 < n) (hn : n ≤ maxFollowers) :
    (h.withFollowers n).followers? = some n :=
  followers?_withFollowers_eq_some_iff.mpr ⟨rfl, hpos, hn⟩

theorem Plain.withFollowers (hplain : h.Plain) (n : Nat) : (h.withFollowers n).Plain := by
  have hvalues := (Json.plain_object_iff.mp hplain).2
  refine Json.plain_object_iff.mpr ⟨KeyMap.rising _, fun e he => ?_⟩
  rcases KeyMap.mem_place he with rfl | he
  · exact ⟨trivial, trivial, Nat.zero_le _⟩
  · exact hvalues e he

/-! ## What a header announces -/

/-- **A header announces followers just where its `Pipe` entry is a directive** for a positive
count of 64 bits, and none with any other entry.  A directive that was written announces the number
it was written for, zero and what does not fit 64 bits aside, and changes no other entry. -/
theorem announces_iff (h : Header) :
    (∀ n, h.followers? = some n ↔ 1 ≤ n ∧ n ≤ 0xFFFF_FFFF_FFFF_FFFF ∧
      ∃ text, h.get? "Pipe" = some (.string text) ∧ Directs text n) ∧
      (∀ n m, (h.withFollowers n).followers? = some m ↔
        n = m ∧ 1 ≤ n ∧ n ≤ 0xFFFF_FFFF_FFFF_FFFF) ∧
      ∀ n key, (h.withFollowers n).get? key =
        if key = "Pipe" then some (.string ("enable;" ++ String.ofList (Nat.toDigits 10 n)))
        else h.get? key := by
  refine ⟨fun n => ?_, fun n m => followers?_withFollowers_eq_some_iff, fun n key => ?_⟩
  · rw [followers?_eq_some_iff, and_assoc]
    exact Iff.rfl
  · rw [withFollowers, KeyMap.get?_insert]
    rfl

end Switchboard.Header
