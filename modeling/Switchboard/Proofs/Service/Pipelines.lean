import Switchboard.Proofs.Service.Dispatch
import Switchboard.Proofs.Wire.Directive
import Switchboard.Proofs.Wire.Reserved

/-!
# Proofs/Service/Pipelines — a pipeline is received as it was sent

A pipeline is packed into one frame for each of its messages, and the first frame announces the
others.  So the frames are a unit (`Packer.isUnit_frames`), and whoever has read whole units before
them reads them as one unit more and what follows as if nothing had come before it
(`Reading.append_fresh`).  What a line dispatches is determined by how its stream is read, so it
dispatches the pipeline as it was sent, whatever came before it, whatever comes after it, and
whatever pieces all of it came in (`Line.History.dispatches_pipeline`).
-/

namespace Switchboard

/-! ## Frames of a pipeline -/

namespace Message

variable {m : Message}

theorem pack_of_fits (h : m.block.Fits) : m.pack .json = .ok m.block.bytes := by
  rw [pack_json, Block.pack]
  exact if_neg (Nat.not_lt.mpr h)

theorem followersOf_bytes (hplain : m.header.Plain) (hfits : m.block.Fits) :
    Intake.followersOf m.block.bytes = m.header.followers? := by
  have hheader : Block.headerOf m.block.bytes = Header.decode m.header.bytes :=
    List.append_nil m.block.bytes ▸ Block.headerOf_bytes_append hfits []
  rw [Intake.followersOf, hheader, Header.decode_bytes hplain]

end Message

namespace Packer

variable {head m : Message} {rest ms : List Message} {n limit : Nat}

theorem plain_leading (h : m.Plain) (n : Nat) : (leading m n).Plain := by
  unfold Packer.leading
  split
  · exact h
  · exact ⟨h.header.withFollowers n, h.body⟩

theorem followers?_leading (h : ¬m.header.Forges) (hn : n ≤ Header.maxFollowers) :
    (leading m n).header.followers? = if n = 0 then none else some n := by
  unfold leading
  split
  · exact Header.followers?_eq_none (Header.not_contains_of_not_forges h rfl)
  · exact Header.followers?_withFollowers _ (Nat.pos_of_ne_zero ‹_›) hn

theorem packLeading_of_fits (h : ¬m.header.Forges) (hfits : (leading m n).block.Fits) :
    packLeading ⟨.json⟩ m n = .ok (leading m n).block.bytes := by
  rw [packLeading, Header.check_eq_ok_iff.mpr h]
  exact Message.pack_of_fits hfits

/-- The messages of a pipeline as they are sent: the first announces the others. -/
def pipelined (head : Message) (rest : List Message) : List Message :=
  leading head rest.length :: rest

/-- The frames of a pipeline. -/
def framesOf (head : Message) (rest : List Message) : List Bytes :=
  (pipelined head rest).map fun m => m.block.bytes

/-- A pipeline whose messages a receiver gets back.  Each of its frames fits the words of a block
and the limit of the receiver, however large that is. -/
structure Sendable (maxFrame limit : Nat) (head : Message) (rest : List Message) : Prop where
  unreserved : ∀ m ∈ head :: rest, ¬m.header.Forges
  plain : ∀ m ∈ head :: rest, m.Plain
  count : rest.length ≤ limit
  directive : rest.length ≤ Header.maxFollowers
  words : ∀ m ∈ pipelined head rest, m.block.Fits
  fits : ∀ m ∈ pipelined head rest, m.block.declared ≤ maxFrame

variable {maxFrame : Nat}

theorem length_framesOf (head : Message) (rest : List Message) :
    (framesOf head rest).length = (head :: rest).length :=
  List.length_map ..

theorem Sendable.plain_pipelined (h : Sendable maxFrame limit head rest) :
    ∀ m ∈ pipelined head rest, m.Plain := by
  obtain ⟨hhead, hrest⟩ := List.forall_mem_cons.mp h.plain
  exact List.forall_mem_cons.mpr ⟨plain_leading hhead _, hrest⟩

/-- **A pipeline is packed as its frames.** -/
theorem Sendable.packPipeline_eq (h : Sendable maxFrame limit head rest) :
    packPipeline ⟨.json⟩ (head :: rest) = .ok (framesOf head rest).flatten := by
  obtain ⟨hhead, hrest⟩ := List.forall_mem_cons.mp h.unreserved
  obtain ⟨hhead', hrest'⟩ := List.forall_mem_cons.mp h.words
  have hpackings : packings ⟨.json⟩ (head :: rest) = (framesOf head rest).map .ok := by
    rw [packings, packLeading_of_fits hhead hhead', framesOf, pipelined, List.map_cons,
      List.map_cons, List.map_map]
    refine congrArg (_ :: ·) (List.map_congr_left fun m hm => ?_)
    exact packLeading_of_fits (n := 0) (hrest m hm) (hrest' m hm)
  rw [Packer.packPipeline_eq _ (List.cons_ne_nil _ _), hpackings, joined_map_ok]

/-- **The frames of a pipeline are a unit.** -/
theorem Sendable.isUnit_frames (h : Sendable maxFrame limit head rest) :
    Intake.IsUnit limit (framesOf head rest) := by
  obtain ⟨hhead, hrest⟩ := List.forall_mem_cons.mp h.words
  have hwell : WellFormed (leading head rest.length).block.bytes := ⟨_, hhead, rfl⟩
  have hcount : Intake.followersOf (leading head rest.length).block.bytes =
      if rest.length = 0 then none else some rest.length :=
    (Message.followersOf_bytes (h.plain_pipelined _ List.mem_cons_self).header hhead).trans
      (followers?_leading (h.unreserved _ List.mem_cons_self) h.directive)
  rw [framesOf, pipelined, List.map_cons]
  by_cases hnil : rest = []
  · subst hnil
    exact .alone hwell ((Intake.followersOf_eq_none_iff hwell).mp hcount)
  · rw [if_neg (mt List.length_eq_zero_iff.mp hnil)] at hcount
    have hannounces := (Intake.followersOf_eq_some_iff hwell).mp hcount
    refine .pipeline hwell (by rwa [List.length_map]) (by rw [List.length_map]; exact h.count)
      fun f hf => ?_
    obtain ⟨m, hm, rfl⟩ := List.mem_map.mp hf
    exact ⟨_, hrest m hm, rfl⟩

theorem Sendable.isFrame (h : Sendable maxFrame limit head rest) :
    ∀ f ∈ framesOf head rest, IsFrame maxFrame f := fun f hf => by
  obtain ⟨m, hm, rfl⟩ := List.mem_map.mp hf
  exact isFrame_bytes (h.words m hm) (h.fits m hm)

theorem Sendable.reading (h : Sendable maxFrame limit head rest) :
    Reading maxFrame limit (framesOf head rest).flatten [framesOf head rest] [] [] :=
  .unit h.isUnit_frames h.isFrame

end Packer

/-! ## What is dispatched -/

namespace Line.History

variable {maxFrame limit : Nat} {h : History} {units : List (List Bytes)} {held : List Bytes}
  {tail : Bytes}

/-- The line dispatches these units: at any time the first few of them, each whole; and as long as
nobody else closes the connection, a read leaves none of them out and ends reading just if nothing
can come after them, or the peer has finished. -/
structure Dispatches (maxFrame limit : Nat) (h : History) (units : List (List Bytes))
    (held : List Bytes) (tail : Bytes) : Prop where
  inTurn : ∃ n, h.dispatched = requestsOf h.line.place (units.take n)
  all : h.foundClosed = false → ∀ x, h.line.stage = .served → h.line.isClosed x = false →
    (h.read x).dispatched = requestsOf h.line.place units ∧
      ((h.read x).line.intake = none ↔
        Dead maxFrame limit held tail ∨ h.line.socket.peerFinished = true)

theorem Sound.dispatches (hs : Sound maxFrame limit h)
    (hread : Reading maxFrame limit h.received units held tail) :
    Dispatches maxFrame limit h units held tail where
  inTurn := hs.dispatched_eq_take hread
  all hopen x hserved hclosed := by
    obtain ⟨hfound, hplace, hfinished, hdone, hend⟩ := read_of_open hserved hclosed
    obtain ⟨hall, hended, hdead⟩ := (hs.read x).dispatched_eq hread (hfound.trans hopen) hdone
    rw [hplace] at hall
    rw [hfinished] at hended
    exact ⟨hall, hended, fun hor => hor.elim hdead hend⟩

/-- **A pipeline is received as it was sent.**  It is packed into one frame for each message, and
each frame is read back as its message, of which only the first has a directive more, if others
follow it.  A line that receives the frames after whole units dispatches them together, in order and
after those units; and with what follows them it goes on as a line that received nothing else. -/
theorem dispatches_pipeline {head : Message} {rest : List Message} (network : Network)
    (peer : String) (x₀ : Exchange) (steps : List Step)
    (hsend : Packer.Sendable x₀.plan.settings.maxFrame x₀.plan.settings.maxFollowers head rest) :
    let maxFrame := x₀.plan.settings.maxFrame
    let limit := x₀.plan.settings.maxFollowers
    let h := (start network peer x₀).run steps
    ∃ frames : List Bytes, Packer.packPipeline ⟨.json⟩ (head :: rest) = .ok frames.flatten ∧
      frames.length = (head :: rest).length ∧
      (∀ (i : Nat) (m : Message), (Packer.pipelined head rest)[i]? = some m →
        ∃ frame, frames[i]? = some frame ∧
          ∀ s, Message.unpack .json .value (frame ++ s) = .ok m) ∧
      ∀ before further units, h.received = before ++ frames.flatten ++ further →
        Reading maxFrame limit before units [] [] →
        ∃ more held tail, Reading maxFrame limit further more held tail ∧
          Dispatches maxFrame limit h (units ++ frames :: more) held tail ∧
          ∀ (network' : Network) (peer' : String) (x₁ : Exchange) (steps' : List Step),
            x₁.plan.settings.maxFrame = maxFrame → x₁.plan.settings.maxFollowers = limit →
            ((start network' peer' x₁).run steps').received = further →
            Dispatches maxFrame limit ((start network' peer' x₁).run steps') more held tail := by
  intro maxFrame limit h
  refine ⟨Packer.framesOf head rest, hsend.packPipeline_eq, Packer.length_framesOf head rest,
    fun i m hm => ?_, fun before further units hreceived hbefore => ?_⟩
  · have hmem : m ∈ Packer.pipelined head rest := List.mem_of_getElem? hm
    refine ⟨m.block.bytes, by rw [Packer.framesOf, List.getElem?_map, hm]; rfl, fun s => ?_⟩
    exact Message.unpack_bytes_append (hsend.plain_pipelined m hmem) (hsend.words m hmem) s
  · obtain ⟨more, held, tail, hfurther⟩ : ∃ more held tail,
        Reading maxFrame limit further more held tail := Reading.nil.extend further
    have hread : Reading maxFrame limit h.received (units ++ Packer.framesOf head rest :: more) held
        tail := by
      have := (hbefore.append_fresh hsend.reading).append_fresh hfurther
      rwa [List.append_assoc units, List.singleton_append, ← hreceived] at this
    refine ⟨more, held, tail, hfurther, ((sound_start network peer x₀).run steps).dispatches hread,
      fun network' peer' x₁ steps' hframe hlimit hreceived' => ?_⟩
    have hs := (sound_start network' peer' x₁).run steps'
    rw [hframe, hlimit] at hs
    exact hs.dispatches (hreceived'.symm ▸ hfurther)

/-- A pipeline of two messages that comes in two pieces, the first with a block in front. -/
theorem dispatches_pipeline_torn :
    let x₀ : Exchange := .ofPlan ⟨.empty, .standard, none, none, .none⟩
    let x := (Line.accept .tcp "peer" x₀).2
    let first : Bytes := (Message.bare 7).block.bytes
    let head : Message := ⟨1, .empty, some (.array [.null])⟩
    let follower : Message := ⟨2, .ofList [("k", .null)], none⟩
    Packer.Sendable x₀.plan.settings.maxFrame x₀.plan.settings.maxFollowers head [follower] ∧
      ∃ (packed : Bytes) (frames : List Bytes),
        Packer.packPipeline ⟨.json⟩ [head, follower] = .ok packed ∧
        packed = frames.flatten ∧ frames.length = 2 ∧
        let h := (start .tcp "peer" x₀).run
          [.greets x, .arrives (first ++ packed.take 9), .arrives (packed.drop 9)]
        (h.read x).dispatched = (0, first) :: frames.map fun frame => (0, frame) := by
  intro x₀ x first head follower
  have hplain : ∀ m ∈ [head, follower], m.Plain := by
    have hbody : Json.Plain Json.Reader.maxDepth (.array [.null]) :=
      Json.plain_array_iff.mpr fun v hv => by
        rw [List.mem_singleton.mp hv]
        exact ⟨trivial, trivial, Nat.zero_le _⟩
    have hheader : Header.Plain (.ofList [("k", .null)]) :=
      Json.plain_object_iff.mpr ⟨KeyMap.rising _, fun e he => by
        obtain rfl : e = ("k", .null) := List.mem_singleton.mp he
        exact ⟨trivial, trivial, Nat.zero_le _⟩⟩
    refine List.forall_mem_cons.mpr ⟨⟨?_, fun v hv => Option.some.inj hv ▸ hbody⟩,
      List.forall_mem_singleton.mpr ⟨hheader, nofun⟩⟩
    exact Json.plain_object_iff.mpr ⟨KeyMap.rising _, nofun⟩
  have hsend : Packer.Sendable x₀.plan.settings.maxFrame x₀.plan.settings.maxFollowers head
      [follower] :=
    { unreserved := List.forall_mem_cons.mpr ⟨Header.check_eq_ok_iff.mp rfl,
        List.forall_mem_singleton.mpr (Header.check_eq_ok_iff.mp rfl)⟩
      plain := hplain
      count := by decide
      directive := by decide
      words := by decide +kernel
      fits := by decide +kernel }
  generalize hpacked : (Packer.framesOf head [follower]).flatten = packed
  obtain ⟨frames, hpack, hlength, -, hall⟩ := dispatches_pipeline .tcp "peer" x₀
    [.greets x, .arrives (first ++ packed.take 9), .arrives (packed.drop 9)] hsend
  have hpack' := hsend.packPipeline_eq
  rw [hpacked] at hpack'
  obtain rfl : packed = frames.flatten := Except.ok.inj (hpack'.symm.trans hpack)
  refine ⟨hsend, frames.flatten, frames, hpack, rfl, hlength, ?_⟩
  have hfirst : Reading x₀.plan.settings.maxFrame x₀.plan.settings.maxFollowers first [[first]]
      [] [] := by
    have hempty : Header.Plain .empty := Json.plain_object_iff.mpr ⟨KeyMap.rising _, nofun⟩
    have hfits : (Message.bare 7).block.Fits := by decide
    have hwell : WellFormed first := ⟨_, hfits, rfl⟩
    have hunit : Intake.IsUnit x₀.plan.settings.maxFollowers [first] :=
      .alone hwell ((Intake.followersOf_eq_none_iff hwell).mp
        (Message.followersOf_bytes hempty hfits))
    have hframe : IsFrame x₀.plan.settings.maxFrame first := isFrame_bytes hfits (by decide)
    have hread := Reading.unit hunit (List.forall_mem_singleton.mpr hframe)
    rwa [List.flatten_singleton] at hread
  obtain ⟨more, held, tail, hmore, hdispatches, -⟩ := hall first [] [[first]]
    (by
      show (first ++ frames.flatten.take 9) ++ frames.flatten.drop 9 = _
      rw [List.append_assoc, List.take_append_drop, List.append_nil]) hfirst
  obtain ⟨rfl, -, -⟩ := Reading.nil.unique hmore
  refine (hdispatches.all rfl x rfl rfl).1.trans ?_
  show requestsOf 0 [[first], frames] = _
  simp [requestsOf]

end Line.History

end Switchboard
