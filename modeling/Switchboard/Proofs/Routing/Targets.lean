import Switchboard.Proofs.Json.ReadBack
import Switchboard.Proofs.Wire.Answers
import Switchboard.Routing.Router

/-!
# Proofs/Routing/Targets — which handler any octets go to

Octets that do not start with a block have no key to be routed by.  Those that do are routed by the
URL pattern their header asks for (`Header.AsksFor`), and by the message id if it asks for none,
whatever is wrong with it (`Router.keyOf_bytes_append`).  What follows the block does not count.
-/

namespace Switchboard

namespace Header

/-- **The octets of a header ask for a pattern**: they write an object in which the router type is
the one of patterns and the pattern is a nonempty text. -/
def AsksFor (header : Bytes) (pattern : String) : Prop :=
  ∃ h, decode header = .ok h ∧ h.get? "Router-Type" = some (.string "URL_PATTERN") ∧
    h.get? "Router-Pattern-Value" = some (.string pattern) ∧ pattern ≠ ""

theorem route_eq_urlPattern_iff {h : Header} {pattern : String} :
    route h = .urlPattern pattern ↔
      h.get? "Router-Type" = some (.string "URL_PATTERN") ∧
        h.get? "Router-Pattern-Value" = some (.string pattern) ∧ pattern ≠ "" := by
  rw [← text?_eq_some_iff, ← text?_eq_some_iff]
  unfold route
  by_cases htype : text? h routerKey = some byPattern
  · rw [if_pos htype]
    show _ ↔ text? h routerKey = some byPattern ∧ text? h patternKey = _ ∧ _
    cases hpattern : text? h patternKey with
    | none => exact ⟨nofun, fun h => nomatch h.2.1⟩
    | some p =>
      by_cases hempty : p = ""
      · dsimp only
        rw [if_pos hempty]
        exact ⟨nofun, fun h => absurd ((Option.some.inj h.2.1).symm.trans hempty) h.2.2⟩
      · dsimp only
        rw [if_neg hempty]
        exact ⟨fun h => by cases h; exact ⟨htype, rfl, hempty⟩, fun h => by cases h.2.1; rfl⟩
  · rw [if_neg htype]
    exact ⟨nofun, fun h => absurd h.1 htype⟩

/-- A header asks for one pattern at most. -/
theorem AsksFor.unique {header : Bytes} {p q : String} (hp : AsksFor header p)
    (hq : AsksFor header q) : p = q := by
  obtain ⟨h, hdecode, -, hpattern, -⟩ := hp
  obtain ⟨h', hdecode', -, hpattern', -⟩ := hq
  cases hdecode.symm.trans hdecode'
  cases hpattern.symm.trans hpattern'
  rfl

/-- **The last field of a key counts** in the octets of a header. -/
theorem decode_fields {fs : List (String × Json)}
    (h : ∀ e ∈ fs, e.2.Plain (Json.Reader.maxDepth - 1)) :
    decode (Json.object fs).bytes = .ok (.ofList fs) := by
  have hne : (Json.object fs).bytes ≠ [] := by
    rw [Json.bytes]
    exact List.cons_ne_nil _ _
  rw [decode, if_neg hne, Json.parseObject_ofList h]

/-- What the last field of a key in a list holds. -/
def lastField (fs : List (String × Json)) (key : String) : Option Json :=
  (fs.reverse.find? fun e => e.1 == key).map Prod.snd

/-- A header asks for a pattern with the last fields of the two keys. -/
theorem asksFor_object_iff {fs : List (String × Json)}
    (h : ∀ e ∈ fs, e.2.Plain (Json.Reader.maxDepth - 1)) {pattern : String} :
    AsksFor (Json.object fs).bytes pattern ↔
      lastField fs "Router-Type" = some (.string "URL_PATTERN") ∧
        lastField fs "Router-Pattern-Value" = some (.string pattern) ∧ pattern ≠ "" := by
  rw [lastField, lastField, ← KeyMap.get?_ofList, ← KeyMap.get?_ofList]
  constructor
  · rintro ⟨header, hdecode, hasks⟩
    cases hdecode.symm.trans (decode_fields h)
    exact hasks
  · exact fun hasks => ⟨_, decode_fields h, hasks⟩

end Header

namespace Router

variable {H : Type}

/-- Octets without a block in front have no key. -/
theorem keyOf_of_not_begins {input : Bytes} (h : ¬∃ b rest, Block.Begins input b rest) :
    keyOf input = none := by
  obtain ⟨why, hwhy⟩ := Block.fields_eq_error_of_not_begins h
  rw [keyOf, Block.read, Block.fieldsOf, hwhy]
  rfl

/-- **The pattern asked for is the key.** -/
theorem keyOf_of_asksFor {b : Block} (hb : b.Fits) {pattern : String}
    (h : Header.AsksFor b.header pattern) (rest : Bytes) :
    keyOf (b.bytes ++ rest) = some (.urlPattern pattern) := by
  obtain ⟨header, hdecode, hasks⟩ := h
  rw [keyOf, Block.read_bytes_append hb]
  dsimp only
  rw [hdecode]
  dsimp only
  rw [Header.route_eq_urlPattern_iff.mpr hasks]

/-- **Without a pattern the message id is the key.** -/
theorem keyOf_of_not_asksFor {b : Block} (hb : b.Fits)
    (h : ¬∃ pattern, Header.AsksFor b.header pattern) (rest : Bytes) :
    keyOf (b.bytes ++ rest) = some (.messageId b.id) := by
  rw [keyOf, Block.read_bytes_append hb]
  dsimp only
  cases hdecode : Header.decode b.header with
  | error e => rfl
  | ok header =>
    dsimp only
    cases hroute : Header.route header with
    | messageId => rfl
    | urlPattern p => exact absurd ⟨p, header, hdecode, Header.route_eq_urlPattern_iff.mp hroute⟩ h

/-- What follows a block does not count. -/
theorem keyOf_bytes_append {b : Block} (hb : b.Fits) (rest : Bytes) :
    keyOf (b.bytes ++ rest) = keyOf b.bytes := by
  have hbytes := Block.read_bytes_append hb []
  rw [List.append_nil] at hbytes
  rw [keyOf, keyOf, Block.read_bytes_append hb, hbytes]

/-- The handler that octets go to, while there is no raw one. -/
def registrationFor? (r : Router H) (input : Bytes) : Option (Registration H) :=
  (keyOf input).bind r.find?

theorem resolve_of_no_raw {r : Router H} (h : r.raw = none) (input : Bytes) :
    r.resolve input = (r.registrationFor? input).map r.chainOf := by
  rw [resolve, h]
  rfl

theorem resolve_of_raw {r : Router H} {f : H} (h : r.raw = some f) (input : Bytes) :
    r.resolve input = some (r.globals ++ r.anchors.map Anchor.latest ++ [f]) := by
  rw [resolve, h]

end Router

end Switchboard
