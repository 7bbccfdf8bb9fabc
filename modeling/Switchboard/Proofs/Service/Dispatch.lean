import Switchboard.Proofs.Service.Quiet
import Switchboard.Proofs.Service.Reading
import Switchboard.Proofs.Wire.RoundTrip

/-!
# Proofs/Service/Dispatch — what a line dispatches

A line is followed through any schedule (`Line.History.run`): its peer sends octets and finishes,
and the line is greeted, read, watched, written and ended in any order, each time with whatever the
others have made of what they share.  Besides the line, its history keeps the octets received, the
requests dispatched, and whether reading ever found the connection closed.  A piece is read at one
go; that the connection is closed between two blocks of it is the schedule in which the piece came
in two.

`Line.History.Sound` is what every step preserves.  Its consequence `dispatched_run` says that the
requests are always the frames of whole units, and which of them there are as long as nobody else
closes the connection.
-/

namespace Switchboard

namespace Socket

theorem arrived_receive (bs : Bytes) (s : Socket) :
    (s.receive bs).2.arrived = s.arrived ++ if (s.receive bs).1 then bs else [] := by
  unfold receive
  split
  · exact (List.append_nil _).symm
  · rfl

/-- Nothing arrives after the peer has finished. -/
theorem receive_of_finished (bs : Bytes) {s : Socket} (h : s.peerFinished = true) :
    (s.receive bs).1 = false ∧ (s.receive bs).2.peerFinished = true := by
  unfold receive
  rw [h, Bool.true_or, Bool.true_or, if_pos rfl]
  exact ⟨rfl, h⟩

end Socket

namespace Line

/-! ## One read -/

/-- Does reading find the connection closed, before it has ended? -/
def findsClosed (l : Line) (x : Exchange) : Bool :=
  l.stage = .served && l.intake.isSome && l.isClosed x

/-- **What reading comes to**: nothing, the end because the connection is closed, or what has
arrived is taken in. -/
inductive Looks (l : Line) (x : Exchange) : Line × Exchange → Prop where
  /-- There is nothing to be read, or nobody to read it. -/
  | idle (hfound : l.findsClosed x = false) (hidle : l.stage = .served → l.intake = none) :
      Looks l x (l, x)
  /-- The connection is closed. -/
  | closed {i : Intake} (hi : l.intake = some i) (hfound : l.findsClosed x = true) :
      Looks l x ({ l with intake := none }, x)
  /-- What has arrived is taken in. -/
  | takes {i : Intake} (hi : l.intake = some i) (hfound : l.findsClosed x = false) :
      Looks l x (l.takeIn i x)

theorem looks_read (l : Line) (x : Exchange) : l.Looks x (l.read x) := by
  unfold read
  split
  case h_1 i hstage hi =>
    cases hclosed : l.isClosed x with
    | true => exact .closed hi (by simp only [findsClosed, hstage, hi, hclosed]; rfl)
    | false =>
      rw [if_neg Bool.false_ne_true]
      exact .takes hi (by rw [findsClosed, hclosed, Bool.and_false])
  case h_2 hnot =>
    have hidle : l.stage = .served → l.intake = none := by
      intro hstage
      cases hi : l.intake with
      | none => rfl
      | some i => exact absurd hi (hnot i hstage)
    refine .idle ?_ hidle
    by_cases hstage : l.stage = .served
    · rw [findsClosed, hidle hstage, Option.isSome_none, Bool.and_false, Bool.false_and]
    · rw [findsClosed, decide_eq_false hstage, Bool.false_and, Bool.false_and]

/-- What the intake is after a piece, if the peer may have finished. -/
def intakeAfter (peerFinished : Bool) : Except WireError Intake → Option Intake
  | .ok i => if peerFinished then none else some i
  | .error _ => none

/-- **What is dispatched is added to the requests that wait.** -/
theorem requests_takeIn (l : Line) (i : Intake) (x : Exchange) :
    (l.takeIn i x).2.requests =
      x.requests ++ (i.feed l.socket.arrived).1.map fun frame => (l.place, frame) := by
  unfold takeIn
  generalize i.feed l.socket.arrived = r
  obtain ⟨blocks, next⟩ := r
  cases next with
  | error e => rfl
  | ok i' =>
    dsimp only
    split <;> rfl

/-- Everything that has arrived is taken in. -/
theorem line_takeIn (l : Line) (i : Intake) (x : Exchange) :
    (l.takeIn i x).1 =
      { l with
        intake := intakeAfter l.socket.peerFinished (i.feed l.socket.arrived).2
        socket := { l.socket with arrived := [] } } := by
  unfold takeIn
  generalize i.feed l.socket.arrived = r
  obtain ⟨blocks, next⟩ := r
  cases next with
  | error e => rfl
  | ok i' =>
    dsimp only [intakeAfter]
    split <;> rfl

/-! ## Schedules -/

/-- What can happen to a line, with what all lines share at that moment. -/
inductive Step where
  /-- The peer sends octets. -/
  | arrives (bs : Bytes)
  /-- The peer finishes sending. -/
  | finishes
  /-- The peer goes away. -/
  | leaves
  /-- The peer reads what waits for it. -/
  | takes
  /-- The peer is greeted. -/
  | greets (x : Exchange)
  /-- What has arrived is read. -/
  | reads (x : Exchange)
  /-- The watches are looked at. -/
  | watches (x : Exchange)
  /-- Replies are written. -/
  | writes (x : Exchange)
  /-- The connection leaves the pool, if it can. -/
  | parts (x : Exchange)
  /-- The line ends, if it can. -/
  | ends (x : Exchange)

/-- A line and its past. -/
structure History where
  /-- The line. -/
  line : Line
  /-- The octets the peer sent. -/
  received : Bytes
  /-- The requests the line dispatched. -/
  dispatched : List (Place × Bytes)
  /-- Did reading ever find the connection closed? -/
  foundClosed : Bool

namespace History

/-- The history of a line that was just accepted. -/
def start (network : Network) (peer : String) (x : Exchange) : History :=
  ⟨(Line.accept network peer x).1, [], [], false⟩

/-- The history with the stream changed. -/
def onSocket (h : History) (f : Socket → Socket) : History :=
  { h with line := { h.line with socket := f h.line.socket } }

/-- The peer sends octets, unless it cannot any more. -/
def receive (h : History) (bs : Bytes) : History :=
  { h.onSocket (fun s => (s.receive bs).2) with
    received := h.received ++ if (h.line.socket.receive bs).1 then bs else [] }

/-- The history with a step of the line, which may dispatch further requests. -/
def follow (h : History) (x : Exchange) (r : Line × Exchange) : History :=
  { h with line := r.1, dispatched := h.dispatched ++ r.2.requests.drop x.requests.length }

/-- What has arrived is read. -/
def read (h : History) (x : Exchange) : History :=
  { h.follow x (h.line.read x) with foundClosed := h.foundClosed || h.line.findsClosed x }

/-- **One step.** -/
def perform (h : History) : Step → History
  | .arrives bs => h.receive bs
  | .finishes => h.onSocket Socket.finishPeer
  | .leaves => h.onSocket Socket.losePeer
  | .takes => h.onSocket fun s => s.readByPeer.2
  | .greets x => h.follow x (h.line.greet x)
  | .reads x => h.read x
  | .watches x => h.follow x (h.line.watch x)
  | .writes x => h.follow x (h.line.write x)
  | .parts x => h.follow x (h.line.leave x)
  | .ends x => h.follow x (h.line.finish x)

/-- **A schedule**, one step after another. -/
def run (h : History) (steps : List Step) : History := steps.foldl perform h

/-! ## What every step preserves -/

/-- The requests for the frames of some units. -/
def requestsOf (place : Place) (units : List (List Bytes)) : List (Place × Bytes) :=
  units.flatten.map fun frame => (place, frame)

/-- **The line has dispatched the units of what it has read.**  While it reads it has read all but
what waits, and was never found closed; if it ended without being found closed, either no further
unit could come, or the peer had finished and everything was read. -/
def Sound (maxFrame limit : Nat) (h : History) : Prop :=
  ∃ units readUp rest, h.received = readUp ++ rest ∧
    h.dispatched = requestsOf h.line.place units ∧
    match h.line.intake with
    | some i => rest = h.line.socket.arrived ∧ i.Follows maxFrame limit readUp units ∧
        h.foundClosed = false
    | none => ∃ held tail, Reading maxFrame limit readUp units held tail ∧
        (h.foundClosed = false →
          Dead maxFrame limit held tail ∨ h.line.socket.peerFinished = true ∧ rest = [])

variable {maxFrame limit : Nat} {h : History}

theorem sound_start (network : Network) (peer : String) (x : Exchange) :
    Sound x.plan.settings.maxFrame x.plan.settings.maxFollowers (start network peer x) :=
  ⟨[], [], [], rfl, rfl, rfl, Intake.follows_start _ _, rfl⟩

/-- A step of the peer or a quiet step preserves soundness. -/
theorem Sound.of_quiet (hs : Sound maxFrame limit h) {h' : History} (more : Bytes)
    (hplace : h'.line.place = h.line.place) (hintake : h'.line.intake = h.line.intake)
    (harrived : h.line.intake ≠ none → h'.line.socket.arrived = h.line.socket.arrived ++ more)
    (hreceived : h'.received = h.received ++ more)
    (hfinished : h.line.socket.peerFinished = true →
      h'.line.socket.peerFinished = true ∧ more = [])
    (hdispatched : h'.dispatched = h.dispatched) (hclosed : h'.foundClosed = h.foundClosed) :
    Sound maxFrame limit h' := by
  obtain ⟨units, readUp, rest, hall, hunits, hstate⟩ := hs
  refine ⟨units, readUp, rest ++ more, ?_, ?_, ?_⟩
  · rw [hreceived, hall, List.append_assoc]
  · rw [hdispatched, hunits, hplace]
  · rw [hintake, hclosed]
    cases hi : h.line.intake with
    | some i =>
      rw [hi] at hstate
      obtain ⟨rfl, hfollows, hopen⟩ := hstate
      exact ⟨(harrived (by rw [hi]; exact Option.some_ne_none i)).symm, hfollows, hopen⟩
    | none =>
      rw [hi] at hstate
      obtain ⟨held, tail, hread, hend⟩ := hstate
      refine ⟨held, tail, hread, fun hopen => (hend hopen).imp_right ?_⟩
      rintro ⟨hfin, rfl⟩
      obtain ⟨hfin', rfl⟩ := hfinished hfin
      exact ⟨hfin', rfl⟩

theorem Sound.follow_quiet (hs : Sound maxFrame limit h) {x : Exchange} {r : Line × Exchange}
    (hq : Quiet h.line x r) : Sound maxFrame limit (h.follow x r) := by
  refine Sound.of_quiet hs [] hq.place hq.intake (fun hne => ?_) ?_ (fun hfin => ?_) ?_ rfl
  · rw [List.append_nil]
    exact hq.arrived hne
  · exact (List.append_nil _).symm
  · exact ⟨hq.finished.trans hfin, rfl⟩
  · show h.dispatched ++ r.2.requests.drop x.requests.length = h.dispatched
    rw [hq.requests, List.drop_length, List.append_nil]

theorem Sound.receive (hs : Sound maxFrame limit h) (bs : Bytes) :
    Sound maxFrame limit (h.receive bs) := by
  refine hs.of_quiet _ rfl rfl (fun _ => Socket.arrived_receive bs _) rfl (fun hfin => ?_) rfl rfl
  obtain ⟨hrefused, hfin'⟩ := Socket.receive_of_finished bs hfin
  exact ⟨hfin', if_neg (by rw [hrefused]; exact Bool.false_ne_true)⟩

/-- What the peer does to the stream without sending. -/
theorem Sound.onSocket (hs : Sound maxFrame limit h) {f : Socket → Socket}
    (harrived : (f h.line.socket).arrived = h.line.socket.arrived)
    (hfinished : h.line.socket.peerFinished = true → (f h.line.socket).peerFinished = true) :
    Sound maxFrame limit (h.onSocket f) :=
  hs.of_quiet [] rfl rfl (fun _ => harrived.trans (List.append_nil _).symm)
    (List.append_nil _).symm (fun hfin => ⟨hfinished hfin, rfl⟩) rfl rfl

/-- Reading takes in a piece. -/
theorem Sound.takeIn (hs : Sound maxFrame limit h) {i : Intake} (hi : h.line.intake = some i)
    (x : Exchange) : Sound maxFrame limit (h.follow x (h.line.takeIn i x)) := by
  obtain ⟨units, readUp, rest, hall, hunits, hstate⟩ := hs
  rw [hi] at hstate
  obtain ⟨rfl, hfollows, hopen⟩ := hstate
  obtain ⟨units', hnow, hnext⟩ := hfollows.feed h.line.socket.arrived
  refine ⟨units ++ units', readUp ++ h.line.socket.arrived, [], ?_, ?_, ?_⟩
  · rw [List.append_nil]
    exact hall
  · show h.dispatched ++ (h.line.takeIn i x).2.requests.drop x.requests.length = _
    rw [requests_takeIn, List.drop_left, hnow, hunits, follow, line_takeIn, requestsOf,
      requestsOf, List.flatten_append, List.map_append]
  · simp only [follow, line_takeIn]
    cases hfed : (i.feed h.line.socket.arrived).2 with
    | error e =>
      rw [hfed] at hnext
      obtain ⟨held, tail, hread, hdead⟩ := hnext
      exact ⟨held, tail, hread, fun _ => .inl hdead⟩
    | ok i' =>
      rw [hfed] at hnext
      dsimp only [intakeAfter] at hnext ⊢
      cases hfin : h.line.socket.peerFinished with
      | false => exact ⟨trivial, hnext, hopen⟩
      | true =>
        obtain ⟨held, hread, -⟩ := hnext.keeps
        exact ⟨held, _, hread, fun _ => .inr ⟨rfl, trivial⟩⟩

theorem Sound.read (hs : Sound maxFrame limit h) (x : Exchange) :
    Sound maxFrame limit (h.read x) := by
  have hlooks := h.line.looks_read x
  unfold History.read
  generalize h.line.read x = r at hlooks ⊢
  cases hlooks with
  | idle hfound _ =>
    rw [hfound, Bool.or_false]
    exact hs.follow_quiet (quiet_of_same ⟨rfl, rfl, rfl⟩ rfl)
  | closed hi hfound =>
    rw [hfound, Bool.or_true]
    obtain ⟨units, readUp, rest, hall, hunits, hstate⟩ := hs
    rw [hi] at hstate
    obtain ⟨-, hfollows, -⟩ := hstate
    obtain ⟨held, hread, -⟩ := hfollows.keeps
    refine ⟨units, readUp, rest, hall, ?_, held, _, hread, fun hopen => nomatch hopen⟩
    show h.dispatched ++ x.requests.drop x.requests.length = _
    rw [List.drop_length, List.append_nil]
    exact hunits
  | takes hi hfound =>
    rw [hfound, Bool.or_false]
    exact hs.takeIn hi x

/-- **Every step preserves soundness.** -/
theorem Sound.perform (hs : Sound maxFrame limit h) (step : Step) :
    Sound maxFrame limit (h.perform step) := by
  cases step with
  | arrives bs => exact hs.receive bs
  | finishes => exact hs.onSocket rfl fun _ => rfl
  | leaves => exact hs.onSocket rfl fun _ => rfl
  | takes => exact hs.onSocket rfl id
  | greets x => exact hs.follow_quiet (quiet_greet _ x)
  | reads x => exact hs.read x
  | watches x => exact hs.follow_quiet (quiet_watch _ x)
  | writes x => exact hs.follow_quiet (quiet_write _ x)
  | parts x => exact hs.follow_quiet (quiet_leave _ x)
  | ends x => exact hs.follow_quiet (quiet_finish _ x)

theorem Sound.run (hs : Sound maxFrame limit h) (steps : List Step) :
    Sound maxFrame limit (h.run steps) := by
  induction steps generalizing h with
  | nil => exact hs
  | cons step rest ih => exact ih (hs.perform step)

/-! ## What was dispatched -/

/-- What was dispatched is the units of a first part of what was received. -/
theorem Sound.exists_reading (hs : Sound maxFrame limit h) :
    ∃ units readUp rest held tail, h.received = readUp ++ rest ∧
      h.dispatched = requestsOf h.line.place units ∧
      Reading maxFrame limit readUp units held tail := by
  obtain ⟨units, readUp, rest, hall, hunits, hstate⟩ := hs
  cases hi : h.line.intake with
  | some i =>
    rw [hi] at hstate
    obtain ⟨held, hread, -⟩ := hstate.2.1.keeps
    exact ⟨units, readUp, rest, held, _, hall, hunits, hread⟩
  | none =>
    rw [hi] at hstate
    obtain ⟨held, tail, hread, -⟩ := hstate
    exact ⟨units, readUp, rest, held, tail, hall, hunits, hread⟩

/-- **Whole units only**, at any time: a first part of those of the octets received. -/
theorem Sound.dispatched_eq_take (hs : Sound maxFrame limit h) {units : List (List Bytes)}
    {held : List Bytes} {tail : Bytes}
    (hread : Reading maxFrame limit h.received units held tail) :
    ∃ n, h.dispatched = requestsOf h.line.place (units.take n) := by
  obtain ⟨done, readUp, rest, _, _, hall, hunits, hread'⟩ := hs.exists_reading
  obtain ⟨more, _, _, hlonger⟩ := hread'.extend rest
  rw [← hall] at hlonger
  obtain ⟨rfl, -, -⟩ := hread.unique hlonger
  refine ⟨done.length, ?_⟩
  rw [List.take_left]
  exact hunits

/-- **All units** are dispatched once everything has been read, and reading has ended if the octets
are dead. -/
theorem Sound.dispatched_eq (hs : Sound maxFrame limit h) {units : List (List Bytes)}
    {held : List Bytes} {tail : Bytes} (hread : Reading maxFrame limit h.received units held tail)
    (hopen : h.foundClosed = false) (hdone : h.line.intake = none ∨ h.line.socket.arrived = []) :
    h.dispatched = requestsOf h.line.place units ∧
      (h.line.intake = none → Dead maxFrame limit held tail ∨ h.line.socket.peerFinished = true) ∧
      (Dead maxFrame limit held tail → h.line.intake = none) := by
  obtain ⟨done, readUp, rest, hall, hunits, hstate⟩ := hs
  cases hi : h.line.intake with
  | some i =>
    rw [hi] at hstate
    obtain ⟨hrest, hfollows, -⟩ := hstate
    have hnothing : rest = [] := hrest.trans (hdone.resolve_left (by rw [hi]; exact nofun))
    rw [hnothing, List.append_nil] at hall
    rw [hall] at hread
    obtain ⟨held', hread', -⟩ := hfollows.keeps
    obtain ⟨rfl, -, -⟩ := hread.unique hread'
    exact ⟨hunits, nofun, fun hdead => absurd hdead (hfollows.not_dead hread)⟩
  | none =>
    rw [hi] at hstate
    obtain ⟨held', tail', hread', hend⟩ := hstate
    rw [hall] at hread
    rcases hend hopen with hdead | ⟨hfin, rfl⟩
    · obtain ⟨held'', tail'', hread'', hdead'⟩ := hread'.dead_append hdead rest
      obtain ⟨rfl, rfl, rfl⟩ := hread.unique hread''
      exact ⟨hunits, fun _ => .inl hdead', fun _ => rfl⟩
    · rw [List.append_nil] at hread
      obtain ⟨rfl, -, -⟩ := hread.unique hread'
      exact ⟨hunits, fun _ => .inr hfin, fun _ => rfl⟩

/-- A read of an open line leaves nothing unread, and ends if the peer has finished. -/
theorem read_of_open {x : Exchange} (hserved : h.line.stage = .served)
    (hclosed : h.line.isClosed x = false) :
    (h.read x).foundClosed = h.foundClosed ∧ (h.read x).line.place = h.line.place ∧
      (h.read x).line.socket.peerFinished = h.line.socket.peerFinished ∧
      ((h.read x).line.intake = none ∨ (h.read x).line.socket.arrived = []) ∧
      (h.line.socket.peerFinished = true → (h.read x).line.intake = none) := by
  have hopen : h.line.findsClosed x = false := by rw [findsClosed, hclosed, Bool.and_false]
  have hlooks := h.line.looks_read x
  unfold History.read
  generalize h.line.read x = r at hlooks ⊢
  rw [hopen, Bool.or_false]
  cases hlooks with
  | idle _ hidle => exact ⟨rfl, rfl, rfl, .inl (hidle hserved), fun _ => hidle hserved⟩
  | closed _ hfound => exact nomatch hopen.symm.trans hfound
  | takes hi _ =>
    simp only [follow, line_takeIn]
    refine ⟨trivial, trivial, trivial, .inr trivial, fun hfin => ?_⟩
    rw [hfin]
    unfold intakeAfter
    split <;> rfl

/-- **What a line dispatches is determined by the octets received.**  They are units, frames held
back and a tail in one way, whatever pieces they came in and whatever happened in between.  At any
time the requests dispatched are the frames of a first part of the units, each unit whole and in
order.  As long as nobody else closes the connection, a read leaves no unit out, and it ends reading
exactly if no further unit could come or the peer has finished; what is held back and the tail are
never dispatched. -/
theorem dispatched_run (network : Network) (peer : String) (x₀ : Exchange) (steps : List Step) :
    let maxFrame := x₀.plan.settings.maxFrame
    let limit := x₀.plan.settings.maxFollowers
    let h := (start network peer x₀).run steps
    ∃ units held tail, Reading maxFrame limit h.received units held tail ∧
      (∀ units' held' tail', Reading maxFrame limit h.received units' held' tail' →
        units' = units ∧ held' = held ∧ tail' = tail) ∧
      (∃ n, h.dispatched = requestsOf h.line.place (units.take n)) ∧
      (h.foundClosed = false → ∀ x, h.line.stage = .served → h.line.isClosed x = false →
        (h.read x).received = h.received ∧
          (h.read x).dispatched = requestsOf h.line.place units ∧
          ((h.read x).line.intake = none ↔
            Dead maxFrame limit held tail ∨ h.line.socket.peerFinished = true)) := by
  intro maxFrame limit h
  have hs : Sound maxFrame limit h := (sound_start network peer x₀).run steps
  obtain ⟨units, held, tail, hread⟩ : ∃ units held tail,
      Reading maxFrame limit h.received units held tail := Reading.nil.extend h.received
  refine ⟨units, held, tail, hread, fun _ _ _ h' => hread.unique h', hs.dispatched_eq_take hread,
    fun hopen x hserved hclosed => ?_⟩
  obtain ⟨hfound, hplace, hfinished, hdone, hend⟩ := read_of_open hserved hclosed
  obtain ⟨hall, hended, hdead⟩ :=
    (hs.read x).dispatched_eq hread (hfound.trans hopen) hdone
  rw [hplace] at hall
  rw [hfinished] at hended
  exact ⟨rfl, hall, hended, fun hor => hor.elim hdead hend⟩

/-- The header that announces one follower. -/
theorem announces_withFollowers :
    Intake.Announces (⟨1, (Header.withFollowers .empty 1).bytes, []⟩ : Block).bytes 1 := by
  have hplain : Header.Plain (Header.withFollowers .empty 1) :=
    Json.plain_object_iff.mpr ⟨KeyMap.rising _, fun e he => by
      obtain rfl : e = ("Pipe", .string "enable;1") := List.mem_singleton.mp he
      exact ⟨trivial, trivial, Nat.zero_le _⟩⟩
  have hcount : (Header.withFollowers .empty 1).followers? = some 1 :=
    Header.followers?_withFollowers _ (by decide) (by decide)
  obtain ⟨⟨hpos, hmax⟩, text, htext, hdirects⟩ := Header.followers?_eq_some_iff.mp hcount
  exact ⟨_, _, text, by decide +kernel, rfl, Header.decode_bytes hplain, htext, hdirects, hpos,
    hmax⟩

/-- A pipeline of two blocks, read one after the other: nothing is dispatched after the head. -/
theorem dispatched_run_pipeline :
    let x₀ : Exchange := .ofPlan ⟨.empty, .standard, none, none, .none⟩
    let x := (Line.accept .tcp "peer" x₀).2
    let head : Block := ⟨1, (Header.withFollowers .empty 1).bytes, []⟩
    let follower : Block := ⟨2, [], []⟩
    let early := (start .tcp "peer" x₀).run [.greets x, .arrives head.bytes]
    let late := (early.read x).perform (.arrives follower.bytes)
    (early.read x).dispatched = [] ∧
      (late.read x).dispatched = [(0, head.bytes), (0, follower.bytes)] := by
  intro x₀ x head follower early late
  have hhead : head.Fits := by decide +kernel
  have hfollower : follower.Fits := by decide +kernel
  have hcount : Intake.Announces head.bytes 1 := announces_withFollowers
  have hheadFrame : IsFrame Block.defaultMax head.bytes := isFrame_bytes hhead (by decide +kernel)
  have hheadRead : Reading Block.defaultMax 64 head.bytes [] [head.bytes] [] := by
    have hholding : Intake.Holding 64 (some ⟨[head.bytes], 1⟩) [head.bytes] :=
      .pipeline ⟨head, hhead, rfl⟩ hcount (by decide) Nat.one_pos nofun
    refine ⟨?_, .nil fun u s hu => hholding.not_unit hu⟩
    have hframes := Cut.flatten (fun _ hf => IsFrame.ne_nil hf)
      (List.forall_mem_singleton.mpr hheadFrame)
    rwa [List.flatten_singleton] at hframes
  have hunit : Intake.IsUnit 64 [head.bytes, follower.bytes] := by
    refine .pipeline ⟨head, hhead, rfl⟩ hcount (by decide) fun f hf => ?_
    rw [List.mem_singleton.mp hf]
    exact ⟨follower, hfollower, rfl⟩
  have hread : Reading Block.defaultMax 64 (head.bytes ++ follower.bytes)
      [[head.bytes, follower.bytes]] [] [] := by
    have hframes := Reading.unit hunit (List.forall_mem_cons.mpr
      ⟨hheadFrame, List.forall_mem_singleton.mpr (isFrame_bytes hfollower (by decide +kernel))⟩)
    rwa [List.flatten_cons, List.flatten_singleton] at hframes
  obtain ⟨units, held, tail, -, hunique, -, hall⟩ := dispatched_run .tcp "peer" x₀
    [.greets x, .arrives head.bytes]
  obtain ⟨rfl, rfl, rfl⟩ := hunique _ _ _ hheadRead
  refine ⟨(hall rfl x rfl rfl).2.1, ?_⟩
  -- reading has left the stream as it was, with nothing in it
  have hline : (early.read x).line = { early.line with
      intake := intakeAfter false ((Intake.start Block.defaultMax 64).feed head.bytes).2
      socket := { early.line.socket with arrived := [] } } :=
    line_takeIn early.line (.start Block.defaultMax 64) x
  have hlate : late.received = head.bytes ++ follower.bytes := by
    show head.bytes ++ (if ((early.read x).line.socket.receive follower.bytes).1
      then follower.bytes else []) = _
    rw [hline]
    rfl
  have hserved : late.line.stage = .served := congrArg Line.stage hline
  have hopen : late.line.isClosed x = false := congrArg (isClosed · x) hline
  obtain ⟨units, held, tail, -, hunique, -, hall⟩ := dispatched_run .tcp "peer" x₀
    [.greets x, .arrives head.bytes, .reads x, .arrives follower.bytes]
  obtain ⟨rfl, rfl, rfl⟩ := hunique _ _ _ (hlate ▸ hread)
  have hplace : late.line.place = 0 := congrArg Line.place hline
  exact (hall rfl x hserved hopen).2.1.trans (congrArg (requestsOf · _) hplace)

end History

end Line

end Switchboard
