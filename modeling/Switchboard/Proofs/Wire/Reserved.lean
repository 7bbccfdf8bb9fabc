import Switchboard.Proofs.Json.Extent
import Switchboard.Proofs.Wire.RoundTrip
import Switchboard.Wire.Packer

/-!
# Proofs/Wire/Reserved — users set no reserved key

The header that a receiver decodes has the keys that were packed (`Header.contains_of_decode`), so
a key that the sender was refused is not there on the other side: without `Router-Type` a block is
routed by its id, and without `Pipe` it announces no followers.  Every packer checks the merged
header of its user before it does anything else (`Packer.Guarded`), and only two set reserved keys
themselves: `packUrl`, which never announces followers, and `packPipeline`, whose first block alone
announces some and of whose blocks none is routed by a URL pattern (`Packer.PipelineGuarded`).
-/

namespace Switchboard

namespace Header

variable {h h' : Header} {hs : List Header} {key : String}

/-! ## Keys on the other side -/

/-- **A header is decoded with the keys it had**, if it is decoded at all. -/
theorem contains_of_decode (hdecode : decode h.bytes = .ok h') (k : String) :
    h'.contains k = h.contains k := by
  rw [bytes] at hdecode
  split at hdecode
  · rename_i hempty
    have hentries : h.entries = [] := List.isEmpty_iff.mp hempty
    rw [decode, if_pos rfl] at hdecode
    rw [← Except.ok.inj hdecode, ← KeyMap.ofList_entries h, hentries]
    rfl
  · rw [decode, if_neg (Json.bytes_ne_nil _)] at hdecode
    split at hdecode
    · rename_i hparse
      rw [← Except.ok.inj hdecode]
      exact Json.contains_of_parseObject hparse k
    · cases hdecode

/-- What a header does not contain, it has no text for. -/
theorem text?_eq_none (h : Header) (hkey : h.contains key = false) : text? h key = none := by
  rw [text?, Option.isSome_eq_false_iff.mp hkey |> Option.isNone_iff_eq_none.mp, Option.bind_none]

/-- Without a router entry, a block is routed by its message id. -/
theorem route_eq_messageId (hkey : h.contains routerKey = false) : route h = .messageId := by
  rw [route, text?_eq_none h hkey, if_neg (by simp)]

/-- Without a pipe entry, no followers are announced. -/
theorem followers?_eq_none (hkey : h.contains pipeKey = false) : followers? h = none := by
  rw [followers?, text?_eq_none h hkey, Option.bind_none]

/-! ## Merging -/

/-- A merged header contains what either contains. -/
@[simp] theorem contains_merge (h h' : Header) (k : String) :
    (h.merge h').contains k = (h'.contains k || h.contains k) := by
  rw [KeyMap.contains, KeyMap.get?_merge, Option.isSome_or]
  rfl

/-- **The merged header has the keys of all headers**; what later ones overwrite are values. -/
theorem contains_mergeAll :
    (mergeAll hs).contains key = true ↔ ∃ h ∈ hs, h.contains key = true := by
  suffices ∀ first : Header, (hs.foldl KeyMap.merge first).contains key = true ↔
      first.contains key = true ∨ ∃ h ∈ hs, h.contains key = true from
    (this .empty).trans (or_iff_right (nomatch ·))
  induction hs with
  | nil => simp
  | cons h hs ih => intro first; simp [ih, or_assoc, or_comm (a := first.contains key = true)]

theorem mergeAll_singleton (h : Header) : mergeAll [h] = h :=
  KeyMap.ext_get? fun k => (KeyMap.get?_merge .empty h k).trans (Option.or_none ..)

/-! ## The check -/

/-- Does the header set a reserved key? -/
def Forges (h : Header) : Prop := ∃ key, isReserved key = true ∧ h.contains key = true

/-- The reserved key of a header that comes first, octet by octet. -/
structure FirstReserved (h : Header) (key : String) : Prop where
  reserved : isReserved key = true
  contained : h.contains key = true
  first : ∀ k, isReserved k = true → h.contains k = true → Bytes.ofText key ≤ Bytes.ofText k

/-- The reserved key that comes first is one. -/
theorem FirstReserved.forges (h : FirstReserved h' key) : h'.Forges :=
  ⟨key, h.reserved, h.contained⟩

/-- Three keys are reserved. -/
theorem isReserved_iff :
    isReserved key = true ↔ key = routerKey ∨ key = patternKey ∨ key = pipeKey := by
  simp [isReserved, or_assoc]

/-- The octets of reserved keys are in the order of the keys. -/
theorem ofText_le_of_reserved {k j : String} (hk : isReserved k = true) (hj : isReserved j = true)
    (hle : ¬j < k) : Bytes.ofText k ≤ Bytes.ofText j := by
  rcases isReserved_iff.mp hk with rfl | rfl | rfl <;>
    rcases isReserved_iff.mp hj with rfl | rfl | rfl <;> revert hle <;> decide

/-- **The key that is named is the first reserved one**, octet by octet. -/
theorem firstReserved_of_reserved? (hkey : reserved? h = some key) : FirstReserved h key := by
  obtain ⟨hreserved, before, after, hkeys, hbefore⟩ := List.find?_eq_some_iff_append.mp hkey
  have hrising : h.keys.Pairwise (· < ·) := List.pairwise_map.mpr h.rising
  refine ⟨hreserved, KeyMap.mem_keys_iff.mp (hkeys ▸ by simp), fun k hk hcontains => ?_⟩
  refine ofText_le_of_reserved hreserved hk fun hlt => ?_
  -- what comes earlier among the keys is not reserved, and what comes later is not below
  have hmem : k ∈ before ++ key :: after := hkeys ▸ KeyMap.mem_keys_iff.mpr hcontains
  rw [hkeys, List.pairwise_append, List.pairwise_cons] at hrising
  rcases List.mem_append.mp hmem with hmem | hmem
  · exact absurd hk (by simpa using hbefore k hmem)
  · rcases List.mem_cons.mp hmem with rfl | hmem
    · exact Std.lt_irrefl hlt
    · exact Std.lt_irrefl (Std.lt_trans hlt (hrising.2.1.1 k hmem))

/-- **The check refuses just the headers that set a reserved key**, and names the first one. -/
theorem check_cases (h : Header) :
    (∃ key, FirstReserved h key ∧ check h = .error (.reservedKey key)) ∨
      ¬h.Forges ∧ check h = .ok () := by
  unfold check
  cases hkey : reserved? h with
  | some key => exact .inl ⟨key, firstReserved_of_reserved? hkey, rfl⟩
  | none =>
    refine .inr ⟨fun ⟨k, hk, hcontains⟩ => ?_, rfl⟩
    exact List.find?_eq_none.mp hkey k (KeyMap.mem_keys_iff.mpr hcontains) hk

/-- A header passes exactly if it sets no reserved key. -/
theorem check_eq_ok_iff : check h = .ok () ↔ ¬h.Forges := by
  rcases check_cases h with ⟨key, hfirst, hcheck⟩ | ⟨hforges, hcheck⟩
  · rw [hcheck]
    exact iff_of_false nofun (not_not_intro hfirst.forges)
  · exact iff_of_true hcheck hforges

theorem not_contains_of_not_forges (h : ¬h'.Forges) (hkey : isReserved key = true) :
    h'.contains key = false :=
  Bool.eq_false_iff.mpr fun hcontains => h ⟨key, hkey, hcontains⟩

/-- Among merged headers a reserved key is set if one of them sets it. -/
theorem forges_mergeAll : (mergeAll hs).Forges ↔ ∃ h ∈ hs, Forges h := by
  simp only [Forges, contains_mergeAll]
  grind

end Header

/-! ## Blocks -/

namespace Block

variable {id : Int32} {body packed : Bytes} {header : Header}

/-- Whatever follows it, is the block in front never routed by a URL pattern? -/
def ById (packed : Bytes) : Prop :=
  ∀ rest pattern, routeOf (packed ++ rest) ≠ .ok (.urlPattern pattern)

/-- Whatever follows it, does the header of the block in front announce no followers? -/
def Alone (packed : Bytes) : Prop :=
  ∀ rest h, headerOf (packed ++ rest) = .ok h → Header.followers? h = none

/-- Neither routed by a URL pattern nor announcing followers. -/
structure Unmarked (packed : Bytes) : Prop where
  byId : ById packed
  alone : Alone packed

/-- A whole block that is not routed by a URL pattern and announces followers only if it leads. -/
structure PartOf (leads : Prop) (frame : Bytes) : Prop where
  whole : ∀ rest, trim (frame ++ rest) = .ok frame
  byId : ById frame
  alone : ¬leads → Alone frame

theorem PartOf.mono {leads leads' : Prop} (h : PartOf leads packed) (hleads : leads → leads') :
    PartOf leads' packed :=
  ⟨h.whole, h.byId, fun hnot => h.alone (mt hleads hnot)⟩

/-- The header of a packed block is decoded with the keys it had. -/
theorem contains_of_headerOf (h : pack id body header = .ok packed) {rest : Bytes} {h' : Header}
    (hheader : headerOf (packed ++ rest) = .ok h') (k : String) :
    h'.contains k = header.contains k := by
  obtain ⟨hfits, rfl⟩ := eq_bytes_of_pack h
  rw [headerOf_bytes_append hfits] at hheader
  exact Header.contains_of_decode hheader k

/-- A packed header without a router entry cannot route by a URL pattern. -/
theorem byId_of_pack (h : pack id body header = .ok packed)
    (hkey : header.contains Header.routerKey = false) : ById packed := by
  intro rest pattern hroute
  obtain ⟨h', hheader, hpattern⟩ : ∃ h', headerOf (packed ++ rest) = .ok h' ∧
      Header.route h' = .urlPattern pattern := by
    rw [routeOf] at hroute
    cases hheader : headerOf (packed ++ rest) <;> rw [hheader] at hroute
    · cases hroute
    · exact ⟨_, rfl, Except.ok.inj hroute⟩
  rw [Header.route_eq_messageId ((contains_of_headerOf h hheader _).trans hkey)] at hpattern
  cases hpattern

/-- A packed header without a pipe entry announces nobody. -/
theorem alone_of_pack (h : pack id body header = .ok packed)
    (hkey : header.contains Header.pipeKey = false) : Alone packed := fun _ _ hheader =>
  Header.followers?_eq_none ((contains_of_headerOf h hheader _).trans hkey)

/-- A packed header without a reserved key is neither. -/
theorem unmarked_of_pack (h : pack id body header = .ok packed) (hforges : ¬header.Forges) :
    Unmarked packed where
  byId := byId_of_pack h (Header.not_contains_of_not_forges hforges rfl)
  alone := alone_of_pack h (Header.not_contains_of_not_forges hforges rfl)

theorem pack_ne_reservedKey (id : Int32) (body : Bytes) (header : Header) (key : String) :
    pack id body header ≠ .error (.reservedKey key) := by
  unfold pack
  dsimp only
  split <;> exact nofun

end Block

namespace Message

variable {m : Message} {marshaller : Marshaller} {packed : Bytes}

/-- What is packed is a block with the header of the message, whatever encodes the body. -/
theorem exists_of_pack (h : m.pack marshaller = .ok packed) :
    ∃ body, Block.pack m.id body m.header = .ok packed := by
  unfold pack at h
  split at h
  · exact ⟨[], h⟩
  · rename_i v _
    cases hbody : marshaller.encode v with
    | error e => rw [hbody] at h; exact nomatch h
    | ok body => rw [hbody] at h; exact ⟨body, h⟩

theorem pack_ne_reservedKey (m : Message) (marshaller : Marshaller) (key : String) :
    m.pack marshaller ≠ .error (.reservedKey key) := by
  unfold pack Marshaller.encode
  split
  · exact Block.pack_ne_reservedKey _ _ _ key
  · split
    · exact Block.pack_ne_reservedKey _ _ _ key
    · exact nofun

end Message

/-! ## Packers -/

namespace Packer

variable {p : Packer} {headers : List Header} {ms : List Message} {packed : Bytes}

/-- What comes of packing with headers of a user: nothing if one of them sets a reserved key, and
else, if anything, a block that is sound. -/
structure Guarded (headers : List Header) (packing : Except WireError Bytes)
    (sound : Bytes → Prop) : Prop where
  refused_iff : (∃ key, packing = .error (.reservedKey key)) ↔ ∃ h ∈ headers, Header.Forges h
  named : ∀ key, packing = .error (.reservedKey key) →
    Header.FirstReserved (Header.mergeAll headers) key
  block : ∀ packed, packing = .ok packed → sound packed

theorem Guarded.mono {packing : Except WireError Bytes} {sound sound' : Bytes → Prop}
    (h : Guarded headers packing sound) (hsound : ∀ packed, sound packed → sound' packed) :
    Guarded headers packing sound' :=
  ⟨h.refused_iff, h.named, fun packed hpacked => hsound packed (h.block packed hpacked)⟩

/-- **Checking first guards**, whatever is done with the merged header afterwards. -/
theorem guarded_userHeader {f : Header → Except WireError Bytes} {sound : Bytes → Prop}
    (hf : ∀ h key, f h ≠ .error (.reservedKey key))
    (hsound : ∀ h packed, ¬h.Forges → f h = .ok packed → sound packed) :
    Guarded headers ((userHeader headers).bind f) sound := by
  rcases Header.check_cases (Header.mergeAll headers) with ⟨key, hfirst, hcheck⟩ | ⟨hforges, hcheck⟩
  · have hrefused : (userHeader headers).bind f = .error (.reservedKey key) := by
      rw [userHeader, hcheck]
      rfl
    rw [hrefused]
    refine ⟨iff_of_true ⟨key, rfl⟩ (Header.forges_mergeAll.mp hfirst.forges), fun k hk => ?_, nofun⟩
    obtain rfl := WireError.reservedKey.inj (Except.error.inj hk)
    exact hfirst
  · have hpassed : (userHeader headers).bind f = f (Header.mergeAll headers) := by
      rw [userHeader, hcheck]
      rfl
    rw [hpassed]
    exact ⟨iff_of_false (fun ⟨key, hkey⟩ => hf _ key hkey) (mt Header.forges_mergeAll.mpr hforges),
      fun key hkey => absurd hkey (hf _ key), fun packed => hsound _ packed hforges⟩

/-- **Packing a value is guarded**: no header of a user forges a mark in the block. -/
theorem guarded_pack (p : Packer) (id : Int32) (body : Json) (headers : List Header) :
    Guarded headers (p.pack id body headers) Block.Unmarked :=
  guarded_userHeader (fun _ => Message.pack_ne_reservedKey _ _) fun _ _ hforges hpack =>
    have ⟨_, hblock⟩ := Message.exists_of_pack hpack
    Block.unmarked_of_pack hblock hforges

/-- A later header does not hide what an earlier one sets, nor does an encoding that is not built
in. -/
example : Packer.pack ⟨.yaml⟩ 1 .null [.ofList [("Router-Type", .null)], .ofList [("Pipe", .null)],
    .ofList [("Pipe", .bool true)]] = .error (.reservedKey "Pipe") := by rfl

/-- Packing without a body is guarded. -/
theorem guarded_packEmpty (p : Packer) (id : Int32) (headers : List Header) :
    Guarded headers (p.packEmpty id headers) Block.Unmarked :=
  guarded_userHeader (fun _ => Block.pack_ne_reservedKey _ _ _) fun _ _ hforges hpack =>
    Block.unmarked_of_pack hpack hforges

/-- Packing a raw body is guarded. -/
theorem guarded_packRaw (p : Packer) (id : Int32) (body : Bytes) (headers : List Header) :
    Guarded headers (p.packRaw id body headers) Block.Unmarked :=
  guarded_userHeader (fun _ => Block.pack_ne_reservedKey _ _ _) fun _ _ hforges hpack =>
    Block.unmarked_of_pack hpack hforges

/-- The keys of a URL pattern announce no followers. -/
theorem guarded_packUrl (p : Packer) (pattern : String) (body : Json) (headers : List Header) :
    Guarded headers (p.packUrl pattern body headers) Block.Alone := by
  refine guarded_userHeader (fun _ => Message.pack_ne_reservedKey _ _) fun h _ hforges hpack => ?_
  obtain ⟨_, hblock⟩ := Message.exists_of_pack hpack
  have hpipe : h.contains Header.pipeKey = false := Header.not_contains_of_not_forges hforges rfl
  refine Block.alone_of_pack hblock (Bool.eq_false_iff.mpr fun hcontains => ?_)
  rw [Header.withPattern, KeyMap.contains_insert, KeyMap.contains_insert, hpipe] at hcontains
  revert hcontains
  decide

/-! ## Pipelines -/

/-- What comes of packing one block after another: the octets of all, or the first error. -/
def joined : List (Except WireError Bytes) → Except WireError Bytes
  | [] => .ok []
  | .error e :: _ => .error e
  | .ok frame :: rest => (joined rest).map (frame ++ ·)

/-- Blocks that were all packed are put one behind the other. -/
theorem joined_map_ok : ∀ frames : List Bytes, joined (frames.map .ok) = .ok frames.flatten
  | [] => rfl
  | frame :: rest => by
    rw [List.map_cons, joined, joined_map_ok rest]
    rfl

/-- Either all are packed, or there is a first that fails. -/
theorem joined_cases : ∀ rs : List (Except WireError Bytes),
    (∃ frames : List Bytes, rs = frames.map .ok ∧ joined rs = .ok frames.flatten) ∨
      ∃ (frames : List Bytes) (e : WireError) (after : List (Except WireError Bytes)),
        rs = frames.map .ok ++ .error e :: after ∧ joined rs = .error e
  | [] => .inl ⟨[], rfl, rfl⟩
  | .error e :: rest => .inr ⟨[], e, rest, rfl, rfl⟩
  | .ok frame :: rest => by
    rcases joined_cases rest with ⟨frames, rfl, hjoined⟩ | ⟨frames, e, after, rfl, hjoined⟩
    · exact .inl ⟨frame :: frames, rfl, joined_map_ok (frame :: frames)⟩
    · exact .inr ⟨frame :: frames, e, after, rfl, by rw [joined, hjoined]; rfl⟩

/-- The message with the mark of `n` followers, if there are any. -/
def leading (m : Message) (n : Nat) : Message :=
  if n = 0 then m else { m with header := m.header.withFollowers n }

/-- A block of a message that `n` followers come after. -/
def packLeading (p : Packer) (m : Message) (n : Nat) : Except WireError Bytes :=
  (Header.check m.header).bind fun _ => (leading m n).pack p.marshaller

/-- What comes of each message of a pipeline. -/
def packings (p : Packer) : List Message → List (Except WireError Bytes)
  | [] => []
  | head :: rest => p.packLeading head rest.length :: rest.map p.packMessage

theorem length_packings (p : Packer) (ms : List Message) : (p.packings ms).length = ms.length := by
  cases ms <;> simp [packings]

/-- The followers of a pipeline are packed one after another. -/
theorem packRest_eq (p : Packer) :
    ∀ ms : List Message, p.packRest ms = joined (ms.map p.packMessage)
  | [] => rfl
  | m :: rest => by
    rw [packRest, packRest_eq p rest, List.map_cons]
    cases p.packMessage m with
    | error e => rfl
    | ok frame => rw [joined]; cases joined (rest.map p.packMessage) <;> rfl

/-- **A pipeline is packed message by message.** -/
theorem packPipeline_eq (p : Packer) (hne : ms ≠ []) :
    p.packPipeline ms = joined (p.packings ms) := by
  obtain ⟨head, rest, rfl⟩ := List.exists_cons_of_ne_nil hne
  have hleading : Message.pack p.marshaller { head with
      header := if rest.isEmpty then head.header else head.header.withFollowers rest.length } =
        (leading head rest.length).pack p.marshaller := by
    cases rest <;> rfl
  rw [packPipeline, packings, packLeading, ← hleading, packRest_eq]
  rcases Header.check head.header with e | ⟨⟩
  · rfl
  · change (Message.pack _ _ >>= _) = joined (Message.pack _ _ :: _)
    generalize Message.pack _ _ = packing
    cases packing with
    | error e => rfl
    | ok frame => rw [joined]; cases joined (rest.map p.packMessage) <;> rfl

/-- The head of a pipeline is guarded as any message is, though its block announces the rest. -/
theorem guarded_packLeading (p : Packer) (m : Message) (n : Nat) :
    Guarded [m.header] (p.packLeading m n) (Block.PartOf (n ≠ 0)) := by
  have heq : p.packLeading m n = (userHeader [m.header]).bind fun h =>
      Message.pack p.marshaller (leading { m with header := h } n) := by
    rw [packLeading, userHeader, Header.mergeAll_singleton]
    cases Header.check m.header <;> rfl
  rw [heq]
  refine guarded_userHeader (fun _ => Message.pack_ne_reservedKey _ _) fun h _ hforges hpack => ?_
  obtain ⟨_, hblock⟩ := Message.exists_of_pack hpack
  refine ⟨fun rest => ?_, Block.byId_of_pack hblock ?_, fun hn => ?_⟩
  · obtain ⟨hfits, rfl⟩ := Block.eq_bytes_of_pack hblock
    exact Block.trim_bytes_append hfits rest
  · have hrouter : h.contains Header.routerKey = false :=
      Header.not_contains_of_not_forges hforges rfl
    unfold leading
    split
    · exact hrouter
    · refine Bool.eq_false_iff.mpr fun hcontains => ?_
      rw [Header.withFollowers, KeyMap.contains_insert, hrouter] at hcontains
      revert hcontains
      decide
  · obtain rfl : n = 0 := Decidable.not_not.mp hn
    exact Block.alone_of_pack hblock (Header.not_contains_of_not_forges hforges rfl)

/-- A follower is guarded as any message is. -/
theorem guarded_packMessage (p : Packer) (m : Message) :
    Guarded [m.header] (p.packMessage m) Block.Unmarked :=
  (guarded_packLeading p m 0).mono fun _ h => ⟨h.byId, h.alone (· rfl)⟩

/-- Each message of a pipeline is guarded, and only the first of several may announce followers. -/
theorem guarded_packings (p : Packer) {i : Nat} {m : Message} (hm : ms[i]? = some m) :
    ∃ packing, (p.packings ms)[i]? = some packing ∧
      Guarded [m.header] packing (Block.PartOf (i = 0 ∧ 2 ≤ ms.length)) := by
  cases ms with
  | nil => exact nomatch hm
  | cons head rest =>
    cases i with
    | zero =>
      obtain rfl : head = m := Option.some.inj hm
      refine ⟨_, rfl, (guarded_packLeading p head rest.length).mono fun _ h => h.mono fun hne => ?_⟩
      exact ⟨rfl, Nat.succ_le_succ (Nat.pos_of_ne_zero hne)⟩
    | succ i =>
      have hrest : rest[i]? = some m := hm
      refine ⟨p.packMessage m, ?_,
        (guarded_packLeading p m 0).mono fun _ h => h.mono (absurd rfl ·)⟩
      rw [packings, List.getElem?_cons_succ, List.getElem?_map, hrest]
      rfl

/-- What comes of packing a pipeline: nothing if one of its messages sets a reserved key, the error
naming such a key unless an earlier message fails for another reason; and else, if anything, one
block for each message, of which only the first of several may announce followers and none is routed
by a URL pattern. -/
structure PipelineGuarded (p : Packer) (ms : List Message) : Prop where
  refuses : ∀ m ∈ ms, m.header.Forges → ∃ e, p.packPipeline ms = .error e
  named : ∀ (i : Nat) (m : Message), ms[i]? = some m → m.header.Forges →
    (∀ j < i, ∀ e, (p.packings ms)[j]? = some (.error e) → ∃ key, e = .reservedKey key) →
      ∃ w ∈ ms, ∃ key, w.header.FirstReserved key ∧ p.packPipeline ms = .error (.reservedKey key)
  frames : ∀ packed, p.packPipeline ms = .ok packed → ∃ frames : List Bytes,
    frames.length = ms.length ∧ packed = frames.flatten ∧ ∀ (i : Nat) (frame : Bytes),
      frames[i]? = some frame → Block.PartOf (i = 0 ∧ 2 ≤ frames.length) frame

/-- A message that sets a reserved key leaves an error where it stands. -/
theorem exists_error_packings (p : Packer) {i : Nat} {m : Message} (hm : ms[i]? = some m)
    (hforges : m.header.Forges) :
    ∃ key, (p.packings ms)[i]? = some (.error (.reservedKey key)) := by
  obtain ⟨packing, hi, hguarded⟩ := guarded_packings p hm
  obtain ⟨key, rfl⟩ := hguarded.refused_iff.mpr ⟨_, List.mem_singleton_self _, hforges⟩
  exact ⟨key, hi⟩

/-- A reserved key that is named where a message stands is the first one of that message. -/
theorem exists_firstReserved (p : Packer) {i : Nat} {key : String}
    (hi : (p.packings ms)[i]? = some (.error (.reservedKey key))) :
    ∃ m ∈ ms, m.header.FirstReserved key := by
  have hlt : i < ms.length := by
    rw [← length_packings p]
    exact (List.getElem?_eq_some_iff.mp hi).1
  obtain ⟨packing, hpacking, hguarded⟩ := guarded_packings p (List.getElem?_eq_getElem hlt)
  refine ⟨ms[i], List.getElem_mem hlt, ?_⟩
  have hfirst := hguarded.named key (Option.some.inj (hpacking.symm.trans hi))
  rwa [Header.mergeAll_singleton] at hfirst

/-- A pipeline that was packed is what came of its messages, one after another. -/
theorem packings_of_packPipeline (h : p.packPipeline ms = .ok packed) :
    ∃ frames : List Bytes, p.packings ms = frames.map .ok ∧ packed = frames.flatten := by
  have hne : ms ≠ [] := by rintro rfl; exact nomatch h
  rw [packPipeline_eq p hne] at h
  rcases joined_cases (p.packings ms) with ⟨frames, hall, hjoined⟩ | ⟨_, _, _, _, hjoined⟩
  · exact ⟨frames, hall, Except.ok.inj (h.symm.trans hjoined)⟩
  · exact nomatch h.symm.trans hjoined

/-- A pipeline that was refused has the error of the first message that was. -/
theorem packings_of_refused {e : WireError} (hne : ms ≠ []) (h : p.packPipeline ms = .error e) :
    ∃ i : Nat, (p.packings ms)[i]? = some (.error e) ∧
      ∀ j < i, ∃ frame, (p.packings ms)[j]? = some (.ok frame) := by
  rw [packPipeline_eq p hne] at h
  rcases joined_cases (p.packings ms) with ⟨_, _, hjoined⟩ | ⟨before, e', after, hfirst, hjoined⟩
  · exact nomatch h.symm.trans hjoined
  · obtain rfl := Except.error.inj (h.symm.trans hjoined)
    rw [hfirst]
    refine ⟨before.length, by simp, fun j hj => ⟨before[j], ?_⟩⟩
    rw [List.getElem?_append_left (by simpa using hj), List.getElem?_map,
      List.getElem?_eq_getElem hj]
    rfl

/-- **Every pipeline is guarded.** -/
theorem pipelineGuarded (p : Packer) (ms : List Message) : p.PipelineGuarded ms := by
  have hrefuses : ∀ m ∈ ms, m.header.Forges → ∃ e, p.packPipeline ms = .error e := by
    intro m hm hforges
    obtain ⟨i, hi⟩ := List.mem_iff_getElem?.mp hm
    obtain ⟨key, hkey⟩ := exists_error_packings p hi hforges
    cases hpacked : p.packPipeline ms with
    | error e => exact ⟨e, rfl⟩
    | ok packed =>
      obtain ⟨frames, hall, -⟩ := packings_of_packPipeline hpacked
      simp [hall] at hkey
  refine ⟨hrefuses, fun i m hi hforges hearlier => ?_, fun packed hpacked => ?_⟩
  · have hmem : m ∈ ms := List.mem_of_getElem? hi
    obtain ⟨e, he⟩ := hrefuses m hmem hforges
    obtain ⟨first, hfirst, hbefore⟩ := packings_of_refused (List.ne_nil_of_mem hmem) he
    obtain ⟨key, hkey⟩ := exists_error_packings p hi hforges
    obtain ⟨key, rfl⟩ : ∃ key, e = .reservedKey key := by
      rcases Nat.lt_trichotomy first i with hlt | rfl | hlt
      · exact hearlier first hlt e hfirst
      · exact ⟨key, Except.error.inj (Option.some.inj (hfirst.symm.trans hkey))⟩
      · obtain ⟨frame, hframe⟩ := hbefore i hlt
        exact nomatch Option.some.inj (hframe.symm.trans hkey)
    obtain ⟨w, hw, hnamed⟩ := exists_firstReserved p hfirst
    exact ⟨w, hw, key, hnamed, he⟩
  · obtain ⟨frames, hall, rfl⟩ := packings_of_packPipeline hpacked
    have hlength : frames.length = ms.length := by
      rw [← length_packings p, hall, List.length_map]
    refine ⟨frames, hlength, rfl, fun i frame hi => ?_⟩
    obtain ⟨hlt, -⟩ := List.getElem?_eq_some_iff.mp hi
    obtain ⟨packing, hpacking, hguarded⟩ :=
      guarded_packings p (List.getElem?_eq_getElem (hlength ▸ hlt))
    rw [hall, List.getElem?_map, hi] at hpacking
    exact hlength ▸ hguarded.block frame (Option.some.inj hpacking).symm

end Packer

end Switchboard
