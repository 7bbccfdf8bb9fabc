import Switchboard.Proofs.Json.Texts
import Switchboard.Proofs.Routing.Registry
import Switchboard.Proofs.Routing.Targets
import Switchboard.Proofs.Wire.Reserved

/-!
# Proofs/Routing/Reach — a route that was accepted is reached

A packer makes blocks for a message id or for a pattern (`Packer.PacksFor`).  A pattern goes through
the header and its JSON text before it is compared, and comes out as it went in, whatever the other
fields of the header are (`keyOf_packUrl`): the text of a finite header that does not nest too deep
is accepted, with its strings.  So a block made for a route that a router accepted runs through the
chain of just that route (`Router.reached_run_iff`) — except for the empty pattern, which is
registered like any other and routed like none.
-/

namespace Switchboard

/-! ## Blocks made for a route -/

/-- **Blocks that a packer makes for a route.**  The header of a block made for a pattern has to be
read before the pattern is known: its doubles are finite, as those of all values are, and it does
not nest too deep. -/
inductive Packer.PacksFor (p : Packer) : RouteKey → Bytes → Prop where
  | pack {id : Int32} {body : Json} {headers : List Header} {packed : Bytes}
      (h : p.pack id body headers = .ok packed) : PacksFor p (.messageId id) packed
  | packEmpty {id : Int32} {headers : List Header} {packed : Bytes}
      (h : p.packEmpty id headers = .ok packed) : PacksFor p (.messageId id) packed
  | packRaw {id : Int32} {body : Bytes} {headers : List Header} {packed : Bytes}
      (h : p.packRaw id body headers = .ok packed) : PacksFor p (.messageId id) packed
  | packMessage {m : Message} {packed : Bytes} (h : p.packMessage m = .ok packed) :
      PacksFor p (.messageId m.id) packed
  | packUrl {pattern : String} {body : Json} {headers : List Header} {packed : Bytes}
      (hfinite : (Json.object (Header.mergeAll headers).entries).Finite)
      (hdepth : (Json.object (Header.mergeAll headers).entries).depth ≤ 127)
      (h : p.packUrl pattern body headers = .ok packed) : PacksFor p (.urlPattern pattern) packed

namespace Header

variable {h h' : Header} {pattern : String}

/-! ## The pattern on the other side -/

/-- What is put into a header or was there before. -/
theorem mem_withPattern {e : String × Json} (he : e ∈ (h.withPattern pattern).entries) :
    e ∈ h.entries ∨ ∃ s, e.2 = .string s := by
  rcases KeyMap.mem_place he with rfl | he
  · exact .inr ⟨_, rfl⟩
  rcases KeyMap.mem_place he with rfl | he
  · exact .inr ⟨_, rfl⟩
  · exact .inl he

theorem finite_withPattern (hfinite : (Json.object h.entries).Finite) :
    (Json.object (h.withPattern pattern).entries).Finite := by
  rw [Json.Finite, Json.finiteFields_iff] at hfinite ⊢
  intro e he
  rcases mem_withPattern he with he | ⟨s, hs⟩
  · exact hfinite e he
  · rw [hs]
    trivial

theorem depth_withPattern_le {n : Nat} (hdepth : (Json.object h.entries).depth ≤ n + 1) :
    (Json.object (h.withPattern pattern).entries).depth ≤ n + 1 := by
  rw [Json.depth, Nat.add_le_add_iff_right, Json.depthFields_le_iff] at hdepth ⊢
  intro e he
  rcases mem_withPattern he with he | ⟨s, hs⟩
  · exact hdepth e he
  · rw [hs]
    exact Nat.zero_le n

/-- **A finite header is decoded with its strings.** -/
theorem exists_decode (hfinite : (Json.object h.entries).Finite)
    (hdepth : (Json.object h.entries).depth ≤ 127) :
    ∃ h', decode h.bytes = .ok h' ∧ ∀ key, text? h key = text? h' key := by
  rw [bytes]
  split
  · rename_i hempty
    have hentries : h.entries = [] := List.isEmpty_iff.mp hempty
    refine ⟨_, if_pos rfl, fun key => ?_⟩
    rw [← KeyMap.ofList_entries h, hentries]
    rfl
  · obtain ⟨h', hparse, hsame⟩ := Json.exists_of_finite hfinite hdepth
    refine ⟨h', ?_, hsame.bind_text?⟩
    rw [decode, if_neg (Json.bytes_ne_nil _), hparse]

theorem text?_withPattern (h : Header) (pattern : String) :
    text? (h.withPattern pattern) routerKey = some byPattern ∧
      text? (h.withPattern pattern) patternKey = some pattern := by
  rw [text?, text?, withPattern, KeyMap.get?_insert, if_neg (by decide), KeyMap.get?_insert,
    if_pos rfl, KeyMap.get?_insert, if_pos rfl]
  exact ⟨rfl, rfl⟩

end Header

/-- What a packer makes with the header of a user. -/
theorem Packer.of_userHeader {headers : List Header} {f : Header → Except WireError Bytes}
    {packed : Bytes} (h : (userHeader headers).bind f = .ok packed) :
    ¬(Header.mergeAll headers).Forges ∧ f (Header.mergeAll headers) = .ok packed := by
  rw [userHeader] at h
  rcases Header.check_cases (Header.mergeAll headers) with ⟨key, -, hcheck⟩ | ⟨hforges, hcheck⟩
  · rw [hcheck] at h
    cases h
  · rw [hcheck] at h
    exact ⟨hforges, h⟩

namespace Router

/-! ## Keys of packed blocks -/

variable {H : Type} {p : Packer} {pattern : String} {packed : Bytes}

/-- A block without a reserved key is routed by its message id. -/
theorem keyOf_pack {id : Int32} {body : Bytes} {header : Header}
    (h : Block.pack id body header = .ok packed) (hforges : ¬header.Forges) :
    keyOf packed = some (.messageId id) := by
  obtain ⟨hfits, rfl⟩ := Block.eq_bytes_of_pack h
  have hkey := keyOf_of_not_asksFor hfits (fun ⟨_, _, hdecode, hrouter, _⟩ => ?_) []
  · rwa [List.append_nil] at hkey
  · have hcontains := Header.contains_of_decode hdecode Header.routerKey
    rw [Header.not_contains_of_not_forges hforges rfl, KeyMap.contains, Header.routerKey,
      hrouter] at hcontains
    cases hcontains

/-- **A block made for a pattern is routed by this pattern**, or by the message id `0` if it is
empty. -/
theorem keyOf_packUrl {body : Json} {headers : List Header}
    (hfinite : (Json.object (Header.mergeAll headers).entries).Finite)
    (hdepth : (Json.object (Header.mergeAll headers).entries).depth ≤ 127)
    (h : p.packUrl pattern body headers = .ok packed) :
    keyOf packed = some (if pattern = "" then .messageId 0 else .urlPattern pattern) := by
  obtain ⟨-, hpack⟩ := Packer.of_userHeader h
  obtain ⟨bytes, hblock⟩ := Message.exists_of_pack hpack
  obtain ⟨hfits, rfl⟩ := Block.eq_bytes_of_pack hblock
  have hdepth' :
      (Json.object ((Header.mergeAll headers).withPattern pattern).entries).depth ≤ 127 :=
    Header.depth_withPattern_le hdepth
  obtain ⟨h', hdecode, htexts⟩ :=
    Header.exists_decode (Header.finite_withPattern hfinite) hdepth'
  obtain ⟨hrouter, hpattern⟩ := Header.text?_withPattern (Header.mergeAll headers) pattern
  rw [htexts] at hrouter hpattern
  rw [← List.append_nil (Block.bytes _)]
  split
  · rename_i hempty
    refine keyOf_of_not_asksFor hfits (fun ⟨_, _, hdecode', _, hasked, hne⟩ => hne ?_) []
    cases hdecode.symm.trans hdecode'
    have := Header.text?_eq_some_iff.mpr hasked
    exact (Option.some.inj (hpattern.symm.trans this)).symm.trans hempty
  · rename_i hne
    exact keyOf_of_asksFor hfits ⟨h', hdecode, Header.text?_eq_some_iff.mp hrouter,
      Header.text?_eq_some_iff.mp hpattern, hne⟩ []

/-- **What a block made for a route is routed by.** -/
theorem keyOf_packsFor {key : RouteKey} (h : p.PacksFor key packed) :
    keyOf packed = some (if key = .urlPattern "" then .messageId 0 else key) := by
  cases h with
  | pack h =>
    obtain ⟨hforges, hpack⟩ := Packer.of_userHeader h
    obtain ⟨_, hblock⟩ := Message.exists_of_pack hpack
    rw [if_neg nofun]
    exact keyOf_pack hblock hforges
  | packEmpty h | packRaw h =>
    obtain ⟨hforges, hblock⟩ := Packer.of_userHeader h
    rw [if_neg nofun]
    exact keyOf_pack hblock hforges
  | @packMessage m _ h =>
    rw [Packer.packMessage] at h
    rcases Header.check_cases m.header with ⟨key, -, hcheck⟩ | ⟨hforges, hcheck⟩
    · rw [hcheck] at h
      cases h
    · rw [hcheck] at h
      obtain ⟨_, hblock⟩ := Message.exists_of_pack h
      rw [if_neg nofun]
      exact keyOf_pack hblock hforges
  | @packUrl pattern _ _ _ hfinite hdepth h =>
    simp only [keyOf_packUrl hfinite hdepth h, RouteKey.urlPattern.injEq]

/-! ## Accepted routes -/

/-- What a call registers, if it is accepted under the number `n`. -/
def Call.registration? (n : Nat) : Call H → Option (Registration H)
  | add key own handler => some ⟨key, n, own, handler, true⟩
  | addBare key handler => some ⟨key, n, [], handler, false⟩
  | useGlobal _ | activate .. | deactivate _ | setRaw _ => none

variable {r : Router H} {before after : List (Call H)} {c : Call H} {n : Nat}
  {g : Registration H}

/-- **The octets run through the chain of this registration** and of no other one. -/
structure Reaches (r : Router H) (g : Registration H) (input : Bytes) : Prop where
  registration : r.registrationFor? input = some g
  resolve : r.resolve input = some (r.chainOf g)

theorem find?_of_register {key : RouteKey} {own : List H} {handler : H} {through : Bool}
    (h : (r.register key own handler through).1 = .ok n) :
    (r.register key own handler through).2.find? key =
      some ⟨key, n, own, handler, through⟩ := by
  rw [find?_register, if_pos rfl]
  unfold register at h
  cases hfind : r.find? key with
  | some g =>
    rw [hfind] at h
    cases h
  | none =>
    rw [hfind] at h
    cases h
    rfl

theorem eq_ok_of_map_some {ε α : Type} {x : Except ε α} {a : α} (h : x.map some = .ok (some a)) :
    x = .ok a := by
  cases x with
  | error e => cases h
  | ok b =>
    cases h
    rfl

/-- **What was accepted stays registered**, whatever is called afterwards. -/
theorem find?_of_answer (hanswer : c.answer (run before) = .ok (some n))
    (hg : c.registration? n = some g) : (run (before ++ c :: after)).find? g.key = some g := by
  rw [run, List.foldl_append, List.foldl_cons]
  refine find?_foldl_of_some ?_ after
  cases c with
  | add key own handler | addBare key handler =>
    cases hg
    exact find?_of_register (eq_ok_of_map_some hanswer)
  | useGlobal f | activate key f | deactivate key | setRaw f => cases hg

/-- **An accepted route is reached** by a block made for it, exactly if it is not the empty pattern.
What is made for the empty pattern goes to the message id `0`, if anything is registered there. -/
theorem reached_run_iff (hraw : (run (before ++ c :: after)).raw = none)
    (hanswer : c.answer (run before) = .ok (some n)) (hg : c.registration? n = some g)
    {p : Packer} {packed : Bytes} (hpacks : p.PacksFor g.key packed) :
    ((run (before ++ c :: after)).Reaches g packed ↔ g.key ≠ .urlPattern "") ∧
      (g.key = .urlPattern "" → (run (before ++ c :: after)).registrationFor? packed =
        (run (before ++ c :: after)).find? (.messageId 0)) := by
  have hfind : (run (before ++ c :: after)).find? g.key = some g := find?_of_answer hanswer hg
  generalize run (before ++ c :: after) = r at hraw hfind ⊢
  have hkey := keyOf_packsFor hpacks
  by_cases hempty : g.key = .urlPattern ""
  · rw [if_pos hempty] at hkey
    have hzero : r.registrationFor? packed = r.find? (.messageId 0) := by
      rw [registrationFor?, hkey, Option.bind_some]
    refine ⟨iff_of_false (fun hreaches => ?_) (not_not_intro hempty), fun _ => hzero⟩
    have hother := key_of_find? (hzero.symm.trans hreaches.registration)
    rw [hempty] at hother
    cases hother
  · rw [if_neg hempty] at hkey
    have hregistration : r.registrationFor? packed = some g := by
      rw [registrationFor?, hkey, Option.bind_some, hfind]
    refine ⟨iff_of_true ⟨hregistration, ?_⟩ hempty, fun h => absurd h hempty⟩
    rw [resolve_of_no_raw hraw, hregistration, Option.map_some]

/-- Here the pattern needs escapes, and the header of the user has a double in it. -/
theorem reached_run_iff_escaped :
    let r : Router Nat := run [.add (.messageId 0) [] 1, .add (.urlPattern "/\"\n") [2] 3]
    ∃ packed, (⟨.json⟩ : Packer).packUrl "/\"\n" .null
        [.ofList [("Rate", .number (.real 0x3FB999999999999A))]] = .ok packed ∧
      r.Reaches ⟨.urlPattern "/\"\n", 1, [2], 3, true⟩ packed := by
  obtain ⟨packed, hpacked⟩ : ∃ packed, (⟨.json⟩ : Packer).packUrl "/\"\n" .null
      [.ofList [("Rate", .number (.real 0x3FB999999999999A))]] = .ok packed := ⟨_, rfl⟩
  have hfinite : (Json.object (Header.mergeAll
      [.ofList [("Rate", .number (.real 0x3FB999999999999A))]]).entries).Finite :=
    ⟨show Shortest.biased _ ≠ 0x7FF by decide, trivial⟩
  have hraw : (run ([.add (.messageId 0) [] 1] ++ .add (.urlPattern "/\"\n") [2] 3 :: [])).raw =
    none := rfl
  exact ⟨packed, hpacked, (reached_run_iff (n := 1) hraw rfl rfl
    (.packUrl hfinite (by decide) hpacked)).1.mpr nofun⟩

/-- Without a raw handler every accepted route is reached by every block made for it. -/
def AllReached (calls : List (Call H)) : Prop :=
  (run calls).raw = none → ∀ before c after n g, calls = before ++ c :: after →
    c.answer (run before) = .ok (some n) → c.registration? n = some g →
      ∀ (p : Packer) (packed : Bytes), p.PacksFor g.key packed → (run calls).Reaches g packed

/-- **The empty pattern is accepted and never reached**: what is made for it goes to the message id
`0`. -/
theorem not_allReached_empty_pattern :
    ¬AllReached [.add (.messageId 0) [] 1, .add (.urlPattern "") [] 2] := by
  obtain ⟨packed, hpacked⟩ : ∃ packed, (⟨.json⟩ : Packer).packUrl "" .null [] = .ok packed :=
    ⟨_, rfl⟩
  have hfinite : (Json.object (Header.mergeAll []).entries).Finite := trivial
  have hpacks := Packer.PacksFor.packUrl hfinite (by decide) hpacked
  intro h
  have hreaches := h rfl [.add (.messageId 0) [] 1] (.add (.urlPattern "") [] 2) [] 1
    ⟨.urlPattern "", 1, [], 2, true⟩ rfl rfl rfl ⟨.json⟩ packed hpacks
  have hresolve := hreaches.resolve
  rw [resolve_of_no_raw rfl, registrationFor?, keyOf_packsFor hpacks] at hresolve
  -- the chain is the one of the message id
  exact absurd hresolve (by decide)

end Router

end Switchboard
