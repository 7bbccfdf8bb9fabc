import Switchboard.Command.Result
import Switchboard.Proofs.Service.Units
import Switchboard.Proofs.Wire.Reserved

/-!
# Proofs/Command/Typed — what is packed of what was typed

A message is packed with the id and the text that were typed (`Content.exists_of_pack`).  Entries
may not set a reserved key, and a URL pattern sets only those of the route; so whatever was typed,
no block announces followers.
-/

namespace Switchboard

/-- What succeeds one after another. -/
theorem exists_of_bind_eq_ok {ε α β : Type} {r : Except ε α} {f : α → Except ε β} {b : β}
    (h : r >>= f = .ok b) : ∃ a, r = .ok a ∧ f a = .ok b := by
  cases r with
  | error e => exact nomatch h
  | ok a => exact ⟨a, rfl, h⟩

/-- A header without the directive announces no followers. -/
theorem Block.Alone.not_announces {packed : Bytes} (h : Block.Alone packed) (n : Nat) :
    ¬Intake.Announces packed n := by
  rintro ⟨b, header, text, hb, rfl, hheader, htext, hdirects, hpos, hmax⟩
  have hnone := h [] header ((Block.headerOf_bytes_append hb []).trans hheader)
  have hsome := Header.followers?_eq_some_iff.mpr ⟨⟨hpos, hmax⟩, text, htext, hdirects⟩
  exact nomatch hnone.symm.trans hsome

namespace Content

variable {c : Content} {block body : Bytes}

/-- The text of the body as it was typed, empty if none was. -/
def typed (c : Content) : String := (c.json.or c.data).getD ""

/-- **A body is what was typed**, octet by octet. -/
theorem body_eq (h : c.body = .ok body) : body = Bytes.ofText c.typed := by
  unfold Content.body at h
  unfold typed
  cases hjson : c.json with
  | some text =>
    rw [hjson] at h
    dsimp only at h
    split at h
    · exact (Except.ok.inj h).symm
    · cases h
  | none =>
    rw [hjson] at h
    cases hdata : c.data with
    | some text =>
      rw [hdata] at h
      exact (Except.ok.inj h).symm
    | none =>
      rw [hdata] at h
      exact (Except.ok.inj h).symm

/-- The header of what was typed, given that of the entries. -/
def routed (c : Content) (header : Header) : Header :=
  match c.url with
  | some pattern => Header.withPattern header pattern
  | none => header

/-- A URL pattern announces no followers. -/
theorem contains_routed (c : Content) {header : Header} (h : ¬header.Forges) :
    (c.routed header).contains Header.pipeKey = false := by
  have hpipe : header.contains Header.pipeKey = false := Header.not_contains_of_not_forges h rfl
  unfold routed
  split
  · refine Bool.eq_false_iff.mpr fun hcontains => ?_
    rw [Header.withPattern, KeyMap.contains_insert, KeyMap.contains_insert, hpipe] at hcontains
    revert hcontains
    decide
  · exact hpipe

/-- **A block packs what was typed.** -/
structure Packs (c : Content) (block : Bytes) (b : Block) : Prop where
  fits : b.Fits
  bytes : block = b.bytes
  id : b.id = c.id
  body : b.body = Bytes.ofText c.typed
  alone : Block.Alone block

/-- **Whatever is packed** of what was typed announces no followers. -/
theorem exists_of_pack (h : c.pack = .ok block) : ∃ b, c.Packs block b := by
  unfold Content.pack at h
  obtain ⟨body, hbody, h⟩ := exists_of_bind_eq_ok h
  obtain ⟨header, -, h⟩ := exists_of_bind_eq_ok h
  rcases Header.check_cases header with ⟨key, -, hcheck⟩ | ⟨hforges, hcheck⟩
  · rw [hcheck] at h
    exact nomatch h
  · have hpack : Block.pack c.id body (c.routed header) = .ok block := by
      rw [hcheck] at h
      dsimp only at h
      unfold routed
      generalize Block.pack c.id body _ = packed at h ⊢
      cases packed with
      | error e => exact nomatch h
      | ok packed => exact congrArg Except.ok (Except.ok.inj h)
    obtain ⟨hfits, hbytes⟩ := Block.eq_bytes_of_pack hpack
    exact ⟨_, hfits, hbytes, rfl, body_eq hbody,
      Block.alone_of_pack hpack (c.contains_routed hforges)⟩

end Content

end Switchboard
