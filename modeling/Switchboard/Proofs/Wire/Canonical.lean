import Switchboard.Proofs.Wire.Reserved

/-!
# Proofs/Wire/Canonical — one frame, whichever way it is packed

A user's headers count only through the last value they give for each key
(`Header.mergeAll_ofList_eq`), since a header keeps its keys in one order whatever the order it was
built in.  All packers check the merged header first and write it as one block, so that those that
are given the same body do the same with it (`Packer.packMessage_mergeAll`), and a pipeline of one
message is that message (`Packer.packPipeline_singleton`).
-/

namespace Switchboard

variable {α : Type} {entries : List (String × α)} {key : String} {v : α}

/-! ## Last values -/

/-- The last value that is given for the key. -/
def LastGiven (entries : List (String × α)) (key : String) (v : α) : Prop :=
  ∃ before after, entries = before ++ (key, v) :: after ∧ ∀ e ∈ after, e.1 ≠ key

/-- Just the last value given for a key is found under it. -/
theorem KeyMap.get?_ofList_eq_some_iff :
    (ofList entries).get? key = some v ↔ LastGiven entries key v := by
  rw [get?_ofList, Option.map_eq_some_iff]
  constructor
  · rintro ⟨⟨k, w⟩, hfind, rfl⟩
    obtain ⟨hkey, after, before, hreverse, hafter⟩ := List.find?_eq_some_iff_append.mp hfind
    obtain rfl : k = key := beq_iff_eq.mp hkey
    refine ⟨before.reverse, after.reverse, ?_, fun e he => ?_⟩
    · rw [← List.reverse_reverse entries, hreverse]
      simp
    · simpa using hafter e (List.mem_reverse.mp he)
  · rintro ⟨before, after, rfl, hafter⟩
    refine ⟨(key, v), List.find?_eq_some_iff_append.mpr ⟨beq_self_eq_true key, after.reverse,
      before.reverse, by simp, fun e he => ?_⟩, rfl⟩
    simpa using hafter e (List.mem_reverse.mp he)

theorem lastGiven_map_iff {β : Type} {f : α → β} {v : β} :
    LastGiven (entries.map fun e => (e.1, f e.2)) key v ↔
      ∃ w, LastGiven entries key w ∧ f w = v := by
  constructor
  · rintro ⟨_, _, hmap, hafter⟩
    obtain ⟨before, _, rfl, rfl, hrest⟩ := List.map_eq_append_iff.mp hmap
    obtain ⟨⟨k, w⟩, after, rfl, he, rfl⟩ := List.map_eq_cons_iff.mp hrest
    cases he
    exact ⟨w, ⟨before, after, rfl, fun e he => hafter _ (List.mem_map_of_mem he)⟩, rfl⟩
  · rintro ⟨w, ⟨before, after, rfl, hafter⟩, rfl⟩
    exact ⟨_, _, List.map_append, List.forall_mem_map.mpr hafter⟩

/-- **A map is the map of its entries in any order.** -/
theorem KeyMap.ofList_of_perm {m : KeyMap α} (h : entries.Perm m.entries) : ofList entries = m := by
  have hdistinct : entries.Pairwise fun a b => a.1 ≠ b.1 :=
    (h.pairwise_iff Ne.symm).mpr (m.rising.imp fun hlt => Std.ne_of_lt hlt)
  refine ext_get? fun key => Option.ext fun v => ?_
  rw [get?_ofList_eq_some_iff, get?, find_eq_some_iff m.rising, ← h.mem_iff]
  constructor
  · rintro ⟨before, after, rfl, -⟩
    exact List.mem_append_right _ List.mem_cons_self
  · intro hmem
    obtain ⟨before, after, rfl⟩ := List.append_of_mem hmem
    have htail := (List.pairwise_append.mp hdistinct).2.1
    exact ⟨before, after, rfl, fun e he => (List.rel_of_pairwise_cons htail he).symm⟩

theorem KeyMap.merge_ofList (m : KeyMap α) (entries : List (String × α)) :
    m.merge (ofList entries) = entries.foldl (fun m e => m.insert e.1 e.2) m :=
  ext_get? fun k => by rw [get?_merge, get?_ofList, get?_foldl_insert]

namespace Header

/-- Merging inserts all entries of all headers, one after another. -/
theorem mergeAll_ofList (given : List (List (String × Json))) :
    mergeAll (given.map KeyMap.ofList) = KeyMap.ofList given.flatten := by
  suffices ∀ first : Header, (given.map KeyMap.ofList).foldl KeyMap.merge first =
      given.flatten.foldl (fun m e => m.insert e.1 e.2) first from this .empty
  induction given with
  | nil => exact fun _ => rfl
  | cons entries given ih =>
    intro first
    rw [List.map_cons, List.foldl_cons, KeyMap.merge_ofList, ih, List.flatten_cons,
      List.foldl_append]

/-- **The merged header depends on the last values alone.** -/
theorem mergeAll_ofList_eq {given given' : List (List (String × Json))}
    (h : ∀ key v, LastGiven given.flatten key v ↔ LastGiven given'.flatten key v) :
    mergeAll (given.map KeyMap.ofList) = mergeAll (given'.map KeyMap.ofList) := by
  rw [mergeAll_ofList, mergeAll_ofList]
  refine KeyMap.ext_get? fun k => Option.ext fun v => ?_
  rw [KeyMap.get?_ofList_eq_some_iff, KeyMap.get?_ofList_eq_some_iff]
  exact h k v

end Header

/-! ## Packers -/

namespace Packer

variable {p : Packer}

/-- A message with the merged header is packed like its parts. -/
theorem packMessage_mergeAll (p : Packer) (id : Int32) (body : Option Json) (hs : List Header) :
    p.packMessage ⟨id, Header.mergeAll hs, body⟩ =
      (userHeader hs).bind fun h => Message.pack p.marshaller ⟨id, h, body⟩ := by
  rw [packMessage, userHeader]
  cases Header.check (Header.mergeAll hs) <;> rfl

/-- A pipeline of one message is that message: it announces nothing. -/
theorem packPipeline_singleton (p : Packer) (m : Message) :
    p.packPipeline [m] = p.packMessage m := by
  rw [packPipeline_eq p (List.cons_ne_nil m [])]
  change joined [p.packMessage m] = p.packMessage m
  cases p.packMessage m with
  | error e => rfl
  | ok frame => exact congrArg Except.ok (List.append_nil frame)

/-- A body that comes encoded is packed like the value it encodes. -/
theorem packRaw_of_encode {body : Json} {encoded : Bytes}
    (h : p.marshaller.encode body = .ok encoded) (id : Int32) (hs : List Header) :
    p.packRaw id encoded hs = p.pack id body hs := by
  rw [packRaw, pack]
  simp only [Message.pack, h]
  rfl

/-- All packers do the same with one body, and with none. -/
structure PathsAgree (p : Packer) (id : Int32) (body : Json) (hs : List Header) : Prop where
  message : p.packMessage ⟨id, Header.mergeAll hs, some body⟩ = p.pack id body hs
  pipeline : p.packPipeline [⟨id, Header.mergeAll hs, some body⟩] = p.pack id body hs
  raw (encoded : Bytes) (h : p.marshaller.encode body = .ok encoded) :
    p.packRaw id encoded hs = p.pack id body hs
  bare : p.packMessage ⟨id, Header.mergeAll hs, none⟩ = p.packEmpty id hs
  rawEmpty : p.packRaw id [] hs = p.packEmpty id hs

theorem pathsAgree (p : Packer) (id : Int32) (body : Json) (hs : List Header) :
    p.PathsAgree id body hs where
  message := packMessage_mergeAll p id (some body) hs
  pipeline := (packPipeline_singleton p _).trans (packMessage_mergeAll p id (some body) hs)
  raw _ h := packRaw_of_encode h id hs
  bare := packMessage_mergeAll p id none hs
  rawEmpty := rfl

/-- Two lists of headers that every packer packs alike, whatever the body. -/
structure PackAlike (p : Packer) (hs hs' : List Header) : Prop where
  pack (id : Int32) (body : Json) : p.pack id body hs = p.pack id body hs'
  empty (id : Int32) : p.packEmpty id hs = p.packEmpty id hs'
  raw (id : Int32) (body : Bytes) : p.packRaw id body hs = p.packRaw id body hs'
  url (pattern : String) (body : Json) : p.packUrl pattern body hs = p.packUrl pattern body hs'
  pipeline (id : Int32) (body : Option Json) (rest : List Message) :
    p.packPipeline (⟨id, Header.mergeAll hs, body⟩ :: rest) =
      p.packPipeline (⟨id, Header.mergeAll hs', body⟩ :: rest)

theorem packAlike_of_mergeAll_eq {hs hs' : List Header}
    (h : Header.mergeAll hs = Header.mergeAll hs') : p.PackAlike hs hs' := by
  have huser : userHeader hs = userHeader hs' := by rw [userHeader, userHeader, h]
  refine ⟨fun id body => ?_, fun id => ?_, fun id body => ?_, fun pattern body => ?_,
    fun id body rest => by rw [h]⟩
  · rw [pack, pack, huser]
  · rw [packEmpty, packEmpty, huser]
  · rw [packRaw, packRaw, huser]
  · rw [packUrl, packUrl, huser]

/-- **The packing paths agree, and frames are canonical.**  A body and headers are packed to the
same block, or refused for the same reason, as a message, as a pipeline of one, and once encoded;
and of the headers only the last value that is given for each key counts, however the entries are
grouped and in whatever order they come. -/
theorem packings_canonical (p : Packer) :
    (∀ id body hs, p.PathsAgree id body hs) ∧
      ∀ given given' : List (List (String × Json)),
        (∀ key v, LastGiven given.flatten key v ↔ LastGiven given'.flatten key v) →
          p.PackAlike (given.map KeyMap.ofList) (given'.map KeyMap.ofList) :=
  ⟨pathsAgree p, fun _ _ h => packAlike_of_mergeAll_eq (Header.mergeAll_ofList_eq h)⟩

/-- A value that is given twice, and the same entries in another order and in one header. -/
theorem packings_canonical_regrouped :
    (∀ key v, LastGiven [("b", Json.null), ("a", .bool true), ("b", .bool false)] key v ↔
      LastGiven [("b", .bool false), ("a", .bool true)] key v) ∧
      (⟨.json⟩ : Packer).PackAlike
        [.ofList [("b", .null), ("a", .bool true)], .ofList [("b", .bool false)]]
        [.ofList [("b", .bool false), ("a", .bool true)]] ∧
      Marshaller.encode .json .null = .ok [0x6e, 0x75, 0x6c, 0x6c] ∧
      (⟨.json⟩ : Packer).packRaw 7 [0x6e, 0x75, 0x6c, 0x6c] [.ofList [("b", .null)]] =
        (⟨.json⟩ : Packer).pack 7 .null [.ofList [("b", .null)]] := by
  have hlast : ∀ key v, LastGiven [("b", Json.null), ("a", .bool true), ("b", .bool false)] key v ↔
      LastGiven [("b", .bool false), ("a", .bool true)] key v := fun key v => by
    rw [← KeyMap.get?_ofList_eq_some_iff, ← KeyMap.get?_ofList_eq_some_iff]
    rfl
  have hencode : Marshaller.encode .json .null = .ok [0x6e, 0x75, 0x6c, 0x6c] := by rfl
  exact ⟨hlast, (packings_canonical ⟨.json⟩).2
    [[("b", .null), ("a", .bool true)], [("b", .bool false)]]
    [[("b", .bool false), ("a", .bool true)]] hlast, hencode,
    ((packings_canonical ⟨.json⟩).1 7 .null [.ofList [("b", .null)]]).raw _ hencode⟩

end Packer

end Switchboard
