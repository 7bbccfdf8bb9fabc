import Switchboard.Command.Entry
import Switchboard.Proofs.Json.Compact
import Switchboard.Proofs.Wire.Canonical

/-!
# Proofs/Command/Entries — every header can be typed

An entry is cut at its first `=`, so that a key without one is cut off whole, whatever stands in the
text after it (`Entries.cut_typed`).  Each entry gives a key and a text or names no key
(`Entries.gives_or_refused`), and the first one that names none is refused
(`Entries.header_of_refused`).  A plain value is read back from its compact text, so that a header
can be typed by the compact texts of its values; its keys being distinct, the order does not matter
(`Entries.header_of_perm`).
-/

namespace Switchboard

namespace Entries

variable {entry key text message : String} {entries : List String}
  {given : List (String × String)} {v : Json}

/-! ## Entries -/

/-- A key that an entry can name. -/
def IsKey (key : String) : Prop := key ≠ "" ∧ '=' ∉ key.toList

/-- The entry with this key and this text. -/
def typed (e : String × String) : String := e.1 ++ "=" ++ e.2

/-- **The entries give these keys and texts**, one each. -/
structure Give (entries : List String) (given : List (String × String)) : Prop where
  entries_eq : entries = given.map typed
  isKey : ∀ e ∈ given, IsKey e.1

/-- **The entry names no key**: it has no `=`, or starts with one. -/
def Bad (entry : String) : Prop := '=' ∉ entry.toList ∨ entry.toList.head? = some '='

instance (entry : String) : Decidable (Bad entry) := inferInstanceAs (Decidable (_ ∨ _))

/-- What is said of an entry that names no key. -/
inductive Refused (entry : String) : String → Prop where
  | whole (h : '=' ∉ entry.toList) : Refused entry ("header must be key=value: " ++ entry)
  | keyless (h : entry.toList.head? = some '=') :
      Refused entry ("header key must not be empty: " ++ entry)

/-- **What a text means**: the value of the JSON text that it is, if it is one, and else itself. -/
def Means (text : String) (v : Json) : Prop :=
  Json.parse (Bytes.ofText text) = .ok v ∨
    (∀ w, Json.parse (Bytes.ofText text) ≠ .ok w) ∧ v = .string text

/-- An entry is its key, an equals sign and its text. -/
theorem toList_typed (key text : String) :
    (typed (key, text)).toList = key.toList ++ '=' :: text.toList := by
  rw [typed, String.toList_append, String.toList_append, List.append_assoc]
  rfl

/-- Only bad entries are refused. -/
theorem Refused.bad (h : Refused entry message) : Bad entry := by
  cases h with
  | whole h => exact .inl h
  | keyless h => exact .inr h

/-- An entry that names a key is not bad, whatever its text. -/
theorem not_bad_typed (hkey : IsKey key) (text : String) : ¬Bad (typed (key, text)) := by
  rw [Bad, toList_typed]
  rintro (hmem | hhead)
  · exact hmem (List.mem_append_right _ List.mem_cons_self)
  · obtain ⟨c, cs, hkey_eq⟩ := List.exists_cons_of_ne_nil (mt String.toList_eq_nil_iff.mp hkey.1)
    rw [hkey_eq, List.cons_append, List.head?_cons, Option.some.injEq] at hhead
    exact hkey.2 (hkey_eq ▸ hhead ▸ List.mem_cons_self)

/-- Entries that give keys are all good. -/
theorem Give.not_bad (h : Give entries given) : ∀ entry ∈ entries, ¬Bad entry := by
  obtain ⟨rfl, hkeys⟩ := h
  exact List.forall_mem_map.mpr fun e he => not_bad_typed (hkeys e he) e.2

/-- **Every entry gives a key and a text or is refused with a message.** -/
theorem gives_or_refused (entry : String) :
    (∃ key text, entry = typed (key, text) ∧ IsKey key) ∨ ∃ message, Refused entry message := by
  by_cases hmem : '=' ∈ entry.toList
  · obtain ⟨key, text, hentry, hkey⟩ := List.eq_append_cons_of_mem hmem
    by_cases hne : key = []
    · exact .inr ⟨_, .keyless (by rw [hentry, hne]; rfl)⟩
    · refine .inl ⟨String.ofList key, String.ofList text, ?_, ?_, ?_⟩
      · rw [← String.toList_inj, toList_typed, String.toList_ofList, String.toList_ofList, hentry]
      · rwa [Ne, String.ofList_eq_empty_iff]
      · rwa [String.toList_ofList]
  · exact .inr ⟨_, .whole hmem⟩

/-- A text is read as what it means. -/
theorem value_eq_iff : value text = v ↔ Means text v := by
  rw [value, Means]
  cases Json.parse (Bytes.ofText text) with
  | ok w => simp
  | error fault => simp [eq_comm]

/-! ## Cutting -/

theorem takeWhile_of_notMem {cs : List Char} (h : '=' ∉ cs) (rest : List Char) :
    (cs ++ rest).takeWhile (· ≠ '=') = cs ++ rest.takeWhile (· ≠ '=') :=
  List.takeWhile_append_of_pos fun _ hc => decide_eq_true fun heq => h (heq ▸ hc)

/-- **A key without `=` is cut off whole**, whatever the text after it. -/
theorem cut_typed (hkey : '=' ∉ key.toList) (text : String) :
    cut (typed (key, text)) = some (key, text) := by
  have hwhile : (key.toList ++ '=' :: text.toList).takeWhile (· ≠ '=') = key.toList :=
    (takeWhile_of_notMem hkey _).trans (List.append_nil _)
  simp only [cut, toList_typed, hwhile]
  rw [if_neg (by simp), List.drop_length_add_append, List.drop_one, List.tail_cons,
    String.ofList_toList, String.ofList_toList]

/-- Without an equals sign there is nothing to cut. -/
theorem cut_of_notMem (h : '=' ∉ entry.toList) : cut entry = none := by
  have hwhile : entry.toList.takeWhile (· ≠ '=') = entry.toList := by
    have h := takeWhile_of_notMem h []
    rwa [List.append_nil, List.takeWhile_nil, List.append_nil] at h
  simp only [cut, hwhile, if_true]

/-- **An entry is cut at the first equals sign**, and its text is read as a value. -/
theorem add_typed (hkey : IsKey key) (text : String) (m : Header) :
    add m (typed (key, text)) = .ok (m.insert key (value text)) := by
  rw [add, cut_typed hkey.2]
  exact if_neg hkey.1

/-- A refused entry adds nothing. -/
theorem add_of_refused (h : Refused entry message) (m : Header) :
    add m entry = .error (.ofUsage message) := by
  cases h with
  | whole h => rw [add, cut_of_notMem h]
  | keyless h =>
    obtain ⟨rest, hrest⟩ := List.head?_eq_some_iff.mp h
    have hentry : entry = typed ("", String.ofList rest) := by
      rw [← String.toList_inj, hrest, toList_typed, String.toList_ofList, String.toList_ofList,
        List.nil_append]
    have hcut : cut entry = some ("", String.ofList rest) := hentry ▸ cut_typed (by decide) _
    rw [add, hcut]
    exact if_pos rfl

/-! ## Headers -/

/-- Good entries are added one after another, a later one replacing an earlier one with its key.
-/
theorem foldlM_typed (hkeys : ∀ e ∈ given, IsKey e.1) (m : Header) :
    (given.map typed).foldlM add m = .ok ((given.map fun e => (e.1, value e.2)).foldl
      (fun m e => m.insert e.1 e.2) m) := by
  induction given generalizing m with
  | nil => rfl
  | cons e given ih =>
    obtain ⟨hkey, hkeys⟩ := List.forall_mem_cons.mp hkeys
    rw [List.map_cons, List.foldlM_cons, add_typed hkey]
    exact ih hkeys _

/-- Good entries make the header of their keys and values. -/
theorem header_of_give (h : Give entries given) :
    header entries = .ok (KeyMap.ofList (given.map fun e => (e.1, value e.2))) := by
  rw [header, h.entries_eq, foldlM_typed h.isKey]
  rfl

/-- **The first bad entry is the one that is told of.** -/
theorem header_of_refused {bad : String} (h : Give entries given) (hbad : Refused bad message)
    (rest : List String) : header (entries ++ bad :: rest) = .error (.ofUsage message) := by
  rw [header, List.foldlM_append, h.entries_eq, foldlM_typed h.isKey]
  change List.foldlM add _ (bad :: rest) = _
  rw [List.foldlM_cons, add_of_refused hbad]
  rfl

theorem Give.cons (hkey : IsKey key) (text : String) (h : Give entries given) :
    Give (typed (key, text) :: entries) ((key, text) :: given) :=
  ⟨by rw [h.entries_eq, List.map_cons], List.forall_mem_cons.mpr ⟨hkey, h.isKey⟩⟩

/-- Entries are all good, or there is a first that is bad. -/
theorem give_or_refused (entries : List String) :
    (∃ given, Give entries given) ∨ ∃ good given bad message rest,
      entries = good ++ bad :: rest ∧ Give good given ∧ Refused bad message := by
  induction entries with
  | nil => exact .inl ⟨[], rfl, nofun⟩
  | cons entry entries ih =>
    rcases gives_or_refused entry with ⟨key, text, rfl, hkey⟩ | ⟨message, hbad⟩
    · rcases ih with ⟨given, h⟩ | ⟨good, given, bad, message, rest, rfl, hgood, hbad⟩
      · exact .inl ⟨_, h.cons hkey text⟩
      · exact .inr ⟨_, _, bad, message, rest, rfl, hgood.cons hkey text, hbad⟩
    · exact .inr ⟨[], [], entry, message, entries, rfl, ⟨rfl, nofun⟩, hbad⟩

/-- **Under each key is what the last text given for it means.** -/
theorem get?_ofList_map_value_iff :
    (KeyMap.ofList (given.map fun e => (e.1, value e.2))).get? key = some v ↔
      ∃ text, LastGiven given key text ∧ Means text v := by
  rw [KeyMap.get?_ofList_eq_some_iff, lastGiven_map_iff]
  simp only [value_eq_iff]

/-- **A header is typed by its keys and the compact texts of its values**, in any order. -/
theorem header_of_perm {h : Header} {given : List (String × Json)} (hperm : given.Perm h.entries)
    (hplain : ∀ e ∈ h.entries, IsKey e.1 ∧ e.2.Plain Json.Reader.maxDepth) :
    header (given.map fun e => e.1 ++ "=" ++ e.2.compact) = .ok h := by
  have hgiven : ∀ e ∈ given, IsKey e.1 ∧ e.2.Plain Json.Reader.maxDepth := fun e he =>
    hplain e (hperm.mem_iff.mp he)
  have hgive : Give (given.map fun e => e.1 ++ "=" ++ e.2.compact)
      (given.map fun e => (e.1, e.2.compact)) :=
    ⟨by rw [List.map_map]; rfl, List.forall_mem_map.mpr fun e he => (hgiven e he).1⟩
  have hvalues : (given.map fun e => (e.1, value e.2.compact)) = given := by
    refine (List.map_congr_left fun e he => ?_).trans (List.map_id' given)
    rw [value_eq_iff.mpr (.inl (Json.parse_compact (hgiven e he).2))]
  rw [header_of_give hgive, List.map_map]
  exact congrArg Except.ok ((congrArg KeyMap.ofList hvalues).trans (KeyMap.ofList_of_perm hperm))

/-- **Headers as they are typed.**  A header of plain values whose keys can be named is typed by its
keys and the compact texts of its values, in any order.  Entries are refused as a usage error just
if one of them has no `=` or starts with one; else each key is given the value that the last text
after it means. -/
theorem header_typed :
    (∀ (h : Header) (given : List (String × Json)), given.Perm h.entries →
        (∀ e ∈ h.entries, IsKey e.1 ∧ e.2.Plain 127) →
          header (given.map fun e => e.1 ++ "=" ++ e.2.compact) = .ok h) ∧
      ∀ entries,
        ((∃ message, header entries = .error (.ofUsage message)) ↔ ∃ entry ∈ entries, Bad entry) ∧
          ((∀ entry ∈ entries, ¬Bad entry) → ∃ given h, Give entries given ∧
            header entries = .ok h ∧
              ∀ key v, h.get? key = some v ↔ ∃ text, LastGiven given key text ∧ Means text v) := by
  refine ⟨fun h given => header_of_perm, fun entries => ?_⟩
  rcases give_or_refused entries with ⟨given, h⟩ |
    ⟨good, given, bad, message, rest, rfl, hgood, hbad⟩
  · have hgood := h.not_bad
    refine ⟨⟨?_, fun ⟨entry, hmem, hbad⟩ => absurd hbad (hgood entry hmem)⟩, fun _ =>
      ⟨given, _, h, header_of_give h, fun key v => get?_ofList_map_value_iff⟩⟩
    rintro ⟨message, herror⟩
    exact nomatch (header_of_give h).symm.trans herror
  · have hmem : bad ∈ good ++ bad :: rest := List.mem_append_right _ List.mem_cons_self
    exact ⟨⟨fun _ => ⟨bad, hmem, hbad.bad⟩, fun _ => ⟨message, header_of_refused hgood hbad rest⟩⟩,
      fun hall => absurd hbad.bad (hall bad hmem)⟩

/-- A header with an object in it and a string that looks like a number, typed back to front; and a
key that is given twice, with further `=` after it. -/
theorem header_typed_back_to_front :
    let h : Header := ⟨[("n", .string "7"), ("tags", .object [("a=b", .number (.natural 7))])],
      by decide⟩
    let given := [("tags", Json.object [("a=b", .number (.natural 7))]), ("n", .string "7")]
    let entries := ["n=[", "tags=[7]", "n=a=b"]
    given.Perm h.entries ∧ (∀ e ∈ h.entries, IsKey e.1 ∧ e.2.Plain 127) ∧
      header (given.map fun e => e.1 ++ "=" ++ e.2.compact) = .ok h ∧
      (∀ entry ∈ entries, ¬Bad entry) ∧ ∃ given h, Give entries given ∧ header entries = .ok h ∧
        ∀ key v, h.get? key = some v ↔ ∃ text, LastGiven given key text ∧ Means text v := by
  intro h given entries
  have hperm : given.Perm h.entries := .swap ..
  have hplain : ∀ e ∈ h.entries, IsKey e.1 ∧ e.2.Plain 127 := by
    refine List.forall_mem_cons.mpr ⟨⟨⟨by decide, by decide⟩, trivial, trivial, by decide⟩,
      List.forall_mem_singleton.mpr ⟨⟨by decide, by decide⟩, ⟨trivial, trivial⟩,
        ⟨by decide, trivial, trivial⟩, by decide⟩⟩
  have hgood : ∀ entry ∈ entries, ¬Bad entry := by decide
  exact ⟨hperm, hplain, header_typed.1 h given hperm hplain, hgood,
    (header_typed.2 entries).2 hgood⟩

end Entries

end Switchboard
