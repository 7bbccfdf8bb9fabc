import Switchboard.Command.Entry
import Switchboard.Proofs.Text.Numeral

/-!
# Proofs/Command/Durations — which texts are durations

A duration is a numeral and an ending that says what it counts, with any white space around the two
(`Duration.Spans`).  Endings are cut off without a look at what is left, and `s` ends `ms` too; but
a numeral ends in a digit, so that just one way of cutting leaves one (`Duration.cut_append`).  What
is not a duration is refused as a usage error that says why (`Duration.Answers`).
-/

namespace Switchboard

namespace Duration

variable {text : String} {cs number numeral ending : List Char} {n unit : Nat} {d : Duration}

/-! ## The grammar -/

/-- What an ending counts, in milliseconds. -/
inductive Ending : List Char → Nat → Prop where
  | milliseconds : Ending ['m', 's'] 1
  | seconds : Ending ['s'] 1000
  /-- Seconds need no ending. -/
  | bare : Ending [] 1000

/-- The text is a numeral of `n` and an ending that counts `unit`, with any white space around the
two. -/
def Spans (text : String) (n unit : Nat) : Prop :=
  ∃ before numeral ending after, Text.Blank before ∧ Text.IsNumeral numeral n ∧
    Ending ending unit ∧ Text.Blank after ∧ text.toList = before ++ (numeral ++ ending) ++ after

/-- **The text writes this duration**: its number is positive and has at most 64 bits. -/
def Writes (text : String) (d : Duration) : Prop :=
  ∃ n unit, Spans text n unit ∧ 1 ≤ n ∧ n ≤ 0xFFFF_FFFF_FFFF_FFFF ∧ d.milliseconds = n * unit

theorem Ending.not_isBlank (h : Ending ending unit) : ∀ c ∈ ending, Text.isBlank c = false := by
  have hall : (ending.all fun c => Text.isBlank c == false) = true := by cases h <;> rfl
  exact fun c hc => beq_iff_eq.mp (List.all_eq_true.mp hall c hc)

/-! ## Cutting -/

theorem before_eq_some_iff : before ending cs = some number ↔ cs = number ++ ending := by
  rw [before, Option.ite_none_right_eq_some, Option.some.injEq, List.isSuffixOf_iff_suffix]
  constructor
  · rintro ⟨⟨number, rfl⟩, rfl⟩
    rw [List.length_append, Nat.add_sub_cancel, List.take_left]
  · rintro rfl
    exact ⟨List.suffix_append _ _, by rw [List.length_append, Nat.add_sub_cancel, List.take_left]⟩

theorem before_eq_none_iff : before ending cs = none ↔ ∀ number, cs ≠ number ++ ending := by
  rw [Option.eq_none_iff_forall_ne_some]
  exact forall_congr' fun number => not_congr before_eq_some_iff

/-- Just an ending is cut off. -/
theorem exists_ending (cs : List Char) :
    ∃ ending, Ending ending (cut cs).2 ∧ cs = (cut cs).1 ++ ending := by
  unfold cut
  cases hms : before ['m', 's'] cs with
  | some number => exact ⟨_, .milliseconds, before_eq_some_iff.mp hms⟩
  | none =>
    cases hs : before ['s'] cs with
    | some number => exact ⟨_, .seconds, before_eq_some_iff.mp hs⟩
    | none => exact ⟨_, .bare, (List.append_nil cs).symm⟩

/-- **A numeral is left over when its ending is cut off**: no letter of an ending is in it. -/
theorem cut_append (h : Text.IsNumeral numeral n) (hending : Ending ending unit) :
    cut (numeral ++ ending) = (numeral, unit) := by
  have hletter (c : Char) (hsign : c ≠ '+') (hdigit : c.isDigit = false) (number rest : List Char) :
      numeral ≠ number ++ c :: rest := by
    rintro rfl
    rcases h.sign_or_digit c (List.mem_append_right _ List.mem_cons_self) with hc | hc
    · exact hsign hc
    · exact Bool.false_ne_true (hdigit.symm.trans hc)
  cases hending with
  | milliseconds => rw [cut, before_eq_some_iff.mpr rfl]
  | seconds =>
    have hms : before ['m', 's'] (numeral ++ ['s']) = none :=
      before_eq_none_iff.mpr fun number hnumber => by
        have hm := hnumber.trans (List.append_assoc number ['m'] ['s']).symm
        exact hletter 'm' (by decide) rfl number [] (List.append_cancel_right hm)
    rw [cut, hms, before_eq_some_iff.mpr rfl]
    rfl
  | bare =>
    rw [List.append_nil, cut, before_eq_none_iff.mpr (hletter 'm' (by decide) rfl · ['s']),
      before_eq_none_iff.mpr (hletter 's' (by decide) rfl · [])]
    rfl

/-- **A text spans a number of units just if what is trimmed and cut is a numeral of it.** -/
theorem spans_iff : Spans text n unit ↔
    Text.IsNumeral (cut (Text.trim text.toList)).1 n ∧ (cut (Text.trim text.toList)).2 = unit := by
  constructor
  · rintro ⟨before, numeral, ending, after, hbefore, hnumeral, hending, hafter, htext⟩
    have hmid : ∀ c ∈ numeral ++ ending, Text.isBlank c = false :=
      List.forall_mem_append.mpr ⟨hnumeral.not_isBlank, hending.not_isBlank⟩
    rw [htext, Text.trim_append hbefore hmid hafter, cut_append hnumeral hending]
    exact ⟨hnumeral, rfl⟩
  · rintro ⟨hnumeral, rfl⟩
    obtain ⟨before, after, hbefore, hafter, htext⟩ := Text.exists_trim text.toList
    obtain ⟨ending, hending, htrim⟩ := exists_ending (Text.trim text.toList)
    exact ⟨before, _, ending, after, hbefore, hnumeral, hending, hafter, htrim ▸ htext⟩

/-! ## What is answered -/

/-- **What is answered for a text**: the duration that it writes, or why it writes none. -/
inductive Answers (text : String) : Except Failure Duration → Prop where
  | writes {n unit : Nat} (h : Spans text n unit) (hpos : 1 ≤ n) (hmax : n ≤ maxNumeral) :
      Answers text (.ok ⟨n * unit⟩)
  | zero {unit : Nat} (h : Spans text 0 unit) :
      Answers text (.error (.ofUsage "duration must be greater than zero"))
  | blank (h : Text.Blank text.toList) :
      Answers text (.error (.ofUsage "duration must not be empty"))
  | other (hblank : ¬Text.Blank text.toList) (h : ∀ n unit, Spans text n unit → maxNumeral < n) :
      Answers text (.error (.ofUsage
        ("invalid duration value: " ++ String.ofList (Text.trim text.toList))))

theorem answers_parse (text : String) : Answers text (parse text) := by
  unfold parse
  dsimp only
  split
  · rename_i htrim
    obtain ⟨before, after, hbefore, hafter, htext⟩ := Text.exists_trim text.toList
    rw [htrim, List.append_nil] at htext
    exact .blank fun c hc => (List.mem_append.mp (htext ▸ hc)).elim (hbefore c) (hafter c)
  · rename_i htrim
    split
    · rename_i hnone
      refine .other (fun hblank => htrim ?_) fun n unit h => Nat.lt_of_not_le fun hmax => ?_
      · have h : Text.trim (text.toList ++ [] ++ []) = [] :=
          Text.trim_append hblank nofun (nofun : Text.Blank [])
        rwa [List.append_nil, List.append_nil] at h
      · have hsome := Text.natural?_eq_some_iff.mpr ⟨(spans_iff.mp h).1, hmax⟩
        exact nomatch hsome.symm.trans hnone
    · rename_i hzero
      exact .zero (spans_iff.mpr ⟨(Text.natural?_eq_some_iff.mp hzero).1, rfl⟩)
    · rename_i n hne hn
      obtain ⟨hnumeral, hmax⟩ := Text.natural?_eq_some_iff.mp hn
      exact .writes (spans_iff.mpr ⟨hnumeral, rfl⟩) (Nat.pos_of_ne_zero hne) hmax

/-- **What the grammar has is read**, if its number is positive and fits. -/
theorem parse_of_spans (h : Spans text n unit) (hpos : 1 ≤ n) (hmax : n ≤ maxNumeral) :
    parse text = .ok ⟨n * unit⟩ := by
  obtain ⟨hnumeral, rfl⟩ := spans_iff.mp h
  have htrim : Text.trim text.toList ≠ [] := fun hnil => by
    rw [hnil] at hnumeral
    exact hnumeral.ne_nil rfl
  rw [parse, if_neg htrim]
  dsimp only
  rw [Text.natural?_eq_some_iff.mpr ⟨hnumeral, hmax⟩]
  split
  · rename_i hnone
    cases hnone
  · rename_i hzero
    injection hzero with hzero
    exact absurd hzero (Nat.ne_of_gt hpos)
  · rename_i hn
    injection hn with hn
    rw [hn]

theorem parse_eq_ok_iff : parse text = .ok d ↔ Writes text d := by
  constructor
  · intro h
    have hanswers := answers_parse text
    rw [h] at hanswers
    cases hanswers with
    | writes hspans hpos hmax => exact ⟨_, _, hspans, hpos, hmax, rfl⟩
  · rintro ⟨n, unit, h, hpos, hmax, hd⟩
    rw [parse_of_spans h hpos hmax, ← hd]

/-- **What was printed spans the number that was printed**, and no other. -/
theorem spans_decimal_iff {m unit' : Nat} (hending : Ending ending unit) :
    Spans (String.ofList (Number.decimal n ++ ending)) m unit' ↔ n = m ∧ unit = unit' := by
  have hnumeral : Text.IsNumeral (Number.decimal n) n := Text.isNumeral_decimal_iff.mpr rfl
  rw [spans_iff, String.toList_ofList, Text.trim_of_not_blank (List.forall_mem_append.mpr
    ⟨hnumeral.not_isBlank, hending.not_isBlank⟩), cut_append hnumeral hending,
    Text.isNumeral_decimal_iff]

theorem parse_decimal_eq_ok_iff (hending : Ending ending unit) :
    parse (String.ofList (Number.decimal n) ++ String.ofList ending) = .ok d ↔
      1 ≤ n ∧ n ≤ 0xFFFF_FFFF_FFFF_FFFF ∧ d = ⟨n * unit⟩ := by
  rw [← String.ofList_append, parse_eq_ok_iff]
  constructor
  · rintro ⟨m, unit', h, hpos, hmax, hd⟩
    obtain ⟨rfl, rfl⟩ := (spans_decimal_iff hending).mp h
    exact ⟨hpos, hmax, by rw [← hd]⟩
  · rintro ⟨hpos, hmax, rfl⟩
    exact ⟨n, unit, (spans_decimal_iff hending).mpr ⟨rfl, rfl⟩, hpos, hmax, rfl⟩

/-- **The grammar of durations.**  A text is read as a duration just if it is a positive numeral of
at most 64 bits with an ending, white space around it aside, and as the milliseconds or seconds that
it counts.  Any other text is a usage error.  A number that is printed with an ending is read back,
if it is positive and has at most 64 bits. -/
theorem parse_grammar (text : String) :
    (∀ d, parse text = .ok d ↔ Writes text d) ∧
      ((∃ message, parse text = .error (.ofUsage message)) ↔ ¬∃ d, Writes text d) ∧
      ∀ n d, (parse (String.ofList (Nat.toDigits 10 n) ++ "ms") = .ok d ↔
          1 ≤ n ∧ n ≤ 0xFFFF_FFFF_FFFF_FFFF ∧ d = ⟨n⟩) ∧
        (parse (String.ofList (Nat.toDigits 10 n) ++ "s") = .ok d ↔
          1 ≤ n ∧ n ≤ 0xFFFF_FFFF_FFFF_FFFF ∧ d = ⟨n * 1000⟩) := by
  refine ⟨fun d => parse_eq_ok_iff, ?_, fun n d => ⟨?_, parse_decimal_eq_ok_iff .seconds⟩⟩
  · constructor
    · rintro ⟨message, herror⟩ ⟨d, hd⟩
      exact nomatch herror.symm.trans (parse_eq_ok_iff.mpr hd)
    · intro hnone
      have hanswers := answers_parse text
      generalize parse text = answer at hanswers ⊢
      cases hanswers with
      | writes hspans hpos hmax => exact absurd ⟨_, _, _, hspans, hpos, hmax, rfl⟩ hnone
      | zero | blank | other => exact ⟨_, rfl⟩
  · have h := parse_decimal_eq_ok_iff (n := n) (d := d) .milliseconds
    rwa [Nat.mul_one] at h

/-- White space, a sign and zeros around a number; an ending that is repeated, and one cut short. -/
example : parse "\u3000+007s\n" = .ok ⟨7000⟩ ∧ (parse "7ss").isOk = false ∧
    (parse "7m").isOk = false := by decide

end Duration

end Switchboard
