import Switchboard.Proofs.Service.Handling
import Switchboard.Service.Line

/-!
# Proofs/Service/Replies — how a connection answers those who send it replies

The connection of a line is followed through any interleaving of acts (`Outlet.History.run`):
somebody sends it a block or closes it, its outlet makes one step, or sees late that the connection
is closed, and the peer reads or goes away.  Besides the outlet and what it works on, a history
keeps the blocks sent with their answers.  What a line does when it writes is such an interleaving
(`Outlet.History.ofLine_write`).

What every act preserves is that the queue is bounded and has a reader as long as the connection is
open (`Hub.Tended`, `Outlet.History.Sound`).  So the answer to a sender follows from whether the
connection is closed and how many replies are queued (`Outlet.History.Sound.answers`).
-/

namespace Switchboard

/-! ## A queue and its reader -/

namespace Hub

variable {hub hub' : Hub} {c : Place} {capacity : Nat} {serving serving' : Bool}

/-- **A bounded queue, with a reader as long as the connection is open.** -/
structure Tended (hub : Hub) (c : Place) (capacity : Nat) (serving : Bool) : Prop where
  seated : hub.Seated c
  bound : (hub.queueOf c).capacity = capacity
  length : (hub.queueOf c).replies.length ≤ capacity
  reader : (hub.connection c).closed = false → (hub.queueOf c).hasReader = true ∧ serving = true

/-- Who does not serve any more has a closed connection. -/
theorem Tended.closed (h : hub.Tended c capacity false) : (hub.connection c).closed = true := by
  cases hclosed : (hub.connection c).closed with
  | true => rfl
  | false => exact nomatch (h.reader hclosed).2

/-- Once the connection is closed, it no longer matters who reads the queue. -/
theorem Tended.of_closed (h : hub.Tended c capacity serving)
    (hclosed : (hub.connection c).closed = true) : hub.Tended c capacity serving' :=
  ⟨h.seated, h.bound, h.length, fun hopen => nomatch hclosed.symm.trans hopen⟩

theorem Tended.close (h : hub.Tended c capacity serving) :
    (hub.close c).Tended c capacity serving' where
  seated := h.seated.close c
  bound := by rw [queueOf_close]; exact h.bound
  length := by rw [queueOf_close]; exact h.length
  reader hopen := nomatch h.seated.closed_close.symm.trans hopen

/-- Another queue of the same capacity may take the place of the one there is. -/
theorem Tended.replace (h : hub.Tended c capacity serving) (f : ReplyQueue → ReplyQueue)
    (hbound : (f (hub.queueOf c)).capacity = capacity)
    (hlength : (f (hub.queueOf c)).replies.length ≤ capacity)
    (hreader : (hub.connection c).closed = false → (f (hub.queueOf c)).hasReader = true) :
    (hub.modifyQueue (hub.connection c).queue f).Tended c capacity serving where
  seated := h.seated.modifyQueue _ f
  bound := by rw [queueOf_modifyQueue h.seated]; exact hbound
  length := by rw [queueOf_modifyQueue h.seated]; exact hlength
  reader hopen := by
    rw [queueOf_modifyQueue h.seated]
    exact ⟨hreader hopen, (h.reader hopen).2⟩

/-- What is left when the oldest reply was taken. -/
theorem Tended.takeReply (h : hub.Tended c capacity serving) {reply : Reply}
    (htaken : hub.takeReply c = some (reply, hub')) :
    hub'.Tended c capacity serving ∧ (hub.queueOf c).replies = reply :: (hub'.queueOf c).replies ∧
      hub'.connection c = hub.connection c := by
  obtain ⟨rest, hreplies, rfl⟩ := takeReply_eq_some_iff.mp htaken
  have hlength := h.length
  rw [hreplies, List.length_cons] at hlength
  refine ⟨h.replace _ h.bound (Nat.le_of_succ_le hlength) fun hopen => (h.reader hopen).1, ?_,
    rfl⟩
  rw [queueOf_modifyQueue h.seated, hreplies]

/-- An outlet that serves no more abandons its queue. -/
theorem Tended.abandon (h : hub.Tended c capacity false) :
    (hub.abandonQueue c).Tended c capacity false ∧
      ((hub.abandonQueue c).queueOf c).replies = [] := by
  refine ⟨h.replace _ h.bound (Nat.zero_le _) fun hopen => ?_, ?_⟩
  · exact nomatch h.closed.symm.trans hopen
  · rw [abandonQueue, queueOf_modifyQueue h.seated]
    rfl

end Hub

namespace Outlet

/-! ## Acts -/

/-- What can happen to a connection and its outlet. -/
inductive Act where
  /-- Somebody sends a block. -/
  | sends (block : Bytes)
  /-- Somebody closes the connection. -/
  | closes
  /-- The outlet makes a step, if there is one. -/
  | steps (now : Nat)
  /-- The outlet, which was ready and found nothing queued, sees only now that the connection is
  closed; by now something may have been queued. -/
  | looks (now : Nat)
  /-- The peer reads so many octets, or all there are. -/
  | reads (n : Nat)
  /-- The peer goes away. -/
  | leaves
deriving Repr, DecidableEq

/-- A connection with its outlet, and its past. -/
structure History where
  /-- The place of the connection. -/
  place : Place
  /-- The outlet. -/
  outlet : Outlet
  /-- What it moves replies between. -/
  channel : Channel
  /-- The blocks sent, with the answers. -/
  answers : List (Bytes × Except SessionError Unit)

namespace History

/-- The connection. -/
def connection (h : History) : Connection := h.channel.hub.connection h.place

/-- The blocks that are queued, oldest first. -/
def queued (h : History) : List Bytes := (h.channel.hub.queueOf h.place).replies.map Reply.block

/-- What was written for the peer. -/
def sent (h : History) : Bytes := h.channel.socket.sent

/-- The blocks whose sender was told that all is well, oldest first. -/
def accepted (h : History) : List Bytes :=
  h.answers.filterMap fun
    | (block, .ok _) => some block
    | (_, .error _) => none

/-- The history with another hub. -/
def withHub (h : History) (hub : Hub) : History :=
  { h with channel := { h.channel with hub := hub } }

/-- The history with the stream changed. -/
def onSocket (h : History) (f : Socket → Socket) : History :=
  { h with channel := { h.channel with socket := f h.channel.socket } }

/-- The history with one more answer. -/
def answer (h : History) (block : Bytes) (a : Except SessionError Unit) : History :=
  { h with answers := h.answers ++ [(block, a)] }

/-- The history with one more block queued. -/
def enqueue (h : History) (block : Bytes) : History :=
  h.withHub (h.channel.hub.enqueue h.place block)

/-- Somebody sends a block. -/
def send (h : History) (block : Bytes) : History :=
  let (a, hub) := h.channel.hub.send h.place block
  (h.withHub hub).answer block a

/-- Once the outlet has ended nobody takes replies any more. -/
def settle (h : History) : History :=
  if h.outlet.phase = .ended then h.withHub (h.channel.hub.abandonQueue h.place) else h

/-- The history with a step of the outlet, if there is one. -/
def advance (h : History) (r : Option (Outlet × Channel)) : History :=
  match r with
  | some (o, c) => settle { h with outlet := o, channel := c }
  | none => h.settle

/-- **One act.** -/
def perform (h : History) : Act → History
  | .sends block => h.send block
  | .closes => h.withHub (h.channel.hub.close h.place)
  | .steps now => h.advance (h.outlet.step now h.place h.channel)
  | .looks now => h.advance (h.outlet.look now h.place h.channel)
  | .reads n => h.onSocket fun s => { s with taken := min s.sent.length (s.taken + n) }
  | .leaves => h.onSocket Socket.losePeer

/-- **An interleaving**, one act after another. -/
def run (h : History) (acts : List Act) : History := acts.foldl perform h

/-- The history of a line, given its past. -/
def ofLine (l : Line) (x : Exchange) (answers : List (Bytes × Except SessionError Unit)) :
    History :=
  ⟨l.place, l.outlet, ⟨x.hub, l.socket⟩, answers⟩

/-- The history of a line that was just accepted. -/
def start (network : Network) (peer : String) (x : Exchange) : History :=
  ofLine (Line.accept network peer x).1 (Line.accept network peer x).2 []

/-- Is nothing cut off in this act?  When the outlet acts, the peer is there; and if its time is up,
the stream takes all it has in hand. -/
def InTime (h : History) : Act → Prop
  | .steps now | .looks now =>
    h.channel.socket.peerGone = false ∧
      (h.outlet.isDue now = true → (h.channel.socket.write h.outlet.left).1 = [])
  | .sends _ | .closes | .reads _ | .leaves => True

/-- **Is nothing cut off in any of these acts?** -/
def AllInTime (h : History) : List Act → Prop
  | [] => True
  | act :: rest => h.InTime act ∧ AllInTime (h.perform act) rest

instance (h : History) (act : Act) : Decidable (h.InTime act) := by
  cases act <;> unfold InTime <;> infer_instance

instance decidableAllInTime (h : History) : (acts : List Act) → Decidable (h.AllInTime acts)
  | [] => inferInstanceAs (Decidable True)
  | act :: rest =>
    have := decidableAllInTime (h.perform act) rest
    inferInstanceAs (Decidable (h.InTime act ∧ (h.perform act).AllInTime rest))

/-! ## The queue -/

variable {h : History} {capacity maxFrame : Nat}

/-- **The queue is tended**, and the outlet keeps its limit on lengths. -/
structure Sound (capacity maxFrame : Nat) (h : History) : Prop where
  tended : h.channel.hub.Tended h.place capacity h.outlet.isServing
  maxFrame : h.outlet.maxFrame = maxFrame

/-- A connection that is accepted is fresh, with a queue of its own. -/
theorem connection_start (network : Network) (peer : String) (x : Exchange) :
    (start network peer x).connection =
      .ofPeer x.nextId network peer x.plan.settings.marshaller x.hub.queues.length false true :=
  Hub.connection_addConnection ..

/-- The queue of a fresh connection is empty and has its reader. -/
theorem queueOf_start (network : Network) (peer : String) (x : Exchange) :
    (start network peer x).channel.hub.queueOf (start network peer x).place =
      .ofCapacity x.plan.settings.queueCapacity := by
  show Hub.queue _ (start network peer x).connection.queue = _
  rw [connection_start]
  exact Hub.queue_addQueue ..

/-- The queue of a fresh connection is tended. -/
theorem sound_start (network : Network) (peer : String) (x : Exchange) :
    Sound x.plan.settings.queueCapacity x.plan.settings.maxFrame (start network peer x) := by
  have hqueue := queueOf_start network peer x
  refine ⟨⟨⟨?_, ?_⟩, ?_, ?_, fun _ => ⟨?_, rfl⟩⟩, rfl⟩
  · exact List.length_append ▸ Nat.lt_succ_self _
  · show (start network peer x).connection.queue < _
    rw [connection_start]
    exact List.length_append ▸ Nat.lt_succ_self _
  · rw [hqueue]
    rfl
  · rw [hqueue]
    exact Nat.zero_le _
  · rw [hqueue]
    rfl

/-- **Once the outlet has ended the connection is closed**, so the queue may be abandoned. -/
theorem Sound.settle (hs : Sound capacity maxFrame h) :
    Sound capacity maxFrame h.settle ∧ h.settle.connection = h.connection := by
  unfold History.settle
  split
  · rename_i hended
    have hserving : h.outlet.isServing = false := by simp [isServing, hended]
    have htended := hserving ▸ hs.tended
    exact ⟨⟨hserving ▸ htended.abandon.1, hs.maxFrame⟩, rfl⟩
  · exact ⟨hs, rfl⟩

/-- Whatever a step does, the queue stays tended and a closed connection closed. -/
theorem Sound.handles {now : Nat} {o : Outlet} {c : Channel} (hs : Sound capacity maxFrame h)
    (hstep : Handles now h.place h.outlet h.channel o c) :
    c.hub.Tended h.place capacity o.isServing ∧
      (h.connection.closed = true → (c.hub.connection h.place).closed = true) := by
  have htended := hs.tended
  cases hstep with
  | takes reply taken socket left serving idle =>
    obtain ⟨htended', -, hsame⟩ := htended.takeReply taken
    exact ⟨serving ▸ htended', fun hclosed => hsame ▸ hclosed⟩
  | refuses reply hub taken long hub' =>
    obtain ⟨htended', -, hsame⟩ := htended.takeReply taken
    rcases hub' with heq | ⟨heq, hserving⟩
    · exact heq ▸ ⟨htended'.close, fun _ => htended'.seated.closed_close⟩
    · have hclosed := (hserving ▸ htended').closed
      exact heq ▸ ⟨htended'.of_closed hclosed, fun _ => hclosed⟩
  | writes hub bytes serving idle nearer => exact hub ▸ serving ▸ ⟨htended, id⟩
  | turns same left serving idle nearer =>
    subst same
    rcases serving with hserving | hclosed
    · exact hserving ▸ ⟨htended, id⟩
    · exact ⟨htended.of_closed hclosed, id⟩
  | givesUp why hub =>
    rcases hub with heq | ⟨heq, hwhy⟩
    · exact heq ▸ ⟨htended.close, fun _ => htended.seated.closed_close⟩
    · have hclosed : (h.channel.hub.connection h.place).closed = true :=
        hwhy.elim id fun hserving => (hserving ▸ htended).closed
      exact heq ▸ ⟨htended.of_closed hclosed, id⟩

/-- A step of the outlet leaves the queue tended, and a closed connection closed. -/
theorem Sound.advance {now : Nat} {r : Option (Outlet × Channel)} (hs : Sound capacity maxFrame h)
    (hr : ∀ o c, r = some (o, c) →
      Handles now h.place h.outlet h.channel o c ∧ o.maxFrame = h.outlet.maxFrame) :
    Sound capacity maxFrame (h.advance r) ∧
      (h.connection.closed = true → (h.advance r).connection.closed = true) := by
  cases r with
  | none =>
    obtain ⟨hsettled, hsame⟩ := hs.settle
    exact ⟨hsettled, fun hclosed => (congrArg Connection.closed hsame).trans hclosed⟩
  | some r =>
    obtain ⟨o, c⟩ := r
    obtain ⟨hstep, hmax⟩ := hr o c rfl
    obtain ⟨htended, hclosed'⟩ := hs.handles hstep
    have hs' : Sound capacity maxFrame { h with outlet := o, channel := c } :=
      ⟨htended, hmax.trans hs.maxFrame⟩
    obtain ⟨hsettled, hsame⟩ := hs'.settle
    exact ⟨hsettled, fun hclosed => (congrArg Connection.closed hsame).trans (hclosed' hclosed)⟩

/-! ### Sending -/

theorem length_queued (h : History) :
    h.queued.length = (h.channel.hub.queueOf h.place).replies.length := List.length_map _

/-- A closed connection queues nothing. -/
theorem sends_of_closed (hclosed : h.connection.closed = true) (block : Bytes) :
    h.perform (.sends block) = h.answer block (.error (.closed h.connection.id)) := by
  rw [perform, send, Hub.send_of_closed hclosed]
  rfl

/-- A full queue closes the connection and queues nothing. -/
theorem Sound.sends_of_full (hs : Sound capacity maxFrame h) (hopen : h.connection.closed = false)
    (hfull : h.queued.length = capacity) (block : Bytes) :
    h.perform (.sends block) =
      (h.perform .closes).answer block (.error (.queueFull h.connection.id)) := by
  have hbound := hs.tended.bound
  have hcapacity : (h.channel.hub.queueOf h.place).capacity ≤
      (h.channel.hub.queueOf h.place).replies.length :=
    Nat.le_of_eq (by rw [hbound, ← length_queued, hfull])
  rw [perform, send, Hub.send_of_full hopen (hs.tended.reader hopen).1 hcapacity]
  rfl

/-- A queue with room takes the block. -/
theorem Sound.sends_of_room (hs : Sound capacity maxFrame h) (hopen : h.connection.closed = false)
    (hroom : h.queued.length < capacity) (block : Bytes) :
    h.perform (.sends block) = (h.enqueue block).answer block (.ok ()) := by
  have hcapacity : (h.channel.hub.queueOf h.place).replies.length <
      (h.channel.hub.queueOf h.place).capacity := by
    rw [hs.tended.bound, ← length_queued]
    exact hroom
  rw [perform, send, Hub.send_of_room hopen (hs.tended.reader hopen).1 hcapacity]
  rfl

/-- What is queued afterwards. -/
theorem Sound.enqueue (hs : Sound capacity maxFrame h) (hroom : h.queued.length < capacity)
    (block : Bytes) :
    Sound capacity maxFrame (h.enqueue block) ∧ (h.enqueue block).queued = h.queued ++ [block] := by
  have hlength : ((h.channel.hub.queueOf h.place).replies ++
      [(⟨block, h.connection.receiver⟩ : Reply)]).length ≤ capacity := by
    rw [List.length_append, ← length_queued]
    exact hroom
  refine ⟨⟨hs.tended.replace _ hs.tended.bound hlength fun hopen => (hs.tended.reader hopen).1,
    hs.maxFrame⟩, ?_⟩
  show ((h.channel.hub.enqueue h.place block).queueOf h.place).replies.map Reply.block = _
  rw [Hub.queueOf_enqueue hs.tended.seated, List.map_append]
  rfl

/-- A close leaves what is queued. -/
theorem Sound.closes (hs : Sound capacity maxFrame h) :
    Sound capacity maxFrame (h.perform .closes) ∧ (h.perform .closes).connection.closed = true ∧
      (h.perform .closes).queued = h.queued :=
  ⟨⟨hs.tended.close, hs.maxFrame⟩, hs.tended.seated.closed_close,
    congrArg (fun queue => queue.replies.map Reply.block) (Hub.queueOf_close ..)⟩

/-- No more than the capacity is ever queued. -/
theorem Sound.length_le (hs : Sound capacity maxFrame h) : h.queued.length ≤ capacity :=
  h.length_queued ▸ hs.tended.length

/-- A send leaves the queue tended: it is refused where there is no room. -/
theorem Sound.sends (hs : Sound capacity maxFrame h) (block : Bytes) :
    Sound capacity maxFrame (h.perform (.sends block)) ∧
      (h.connection.closed = true → (h.perform (.sends block)).connection.closed = true) := by
  cases hclosed : h.connection.closed with
  | true =>
    rw [sends_of_closed hclosed]
    exact ⟨⟨hs.tended, hs.maxFrame⟩, fun _ => hclosed⟩
  | false =>
    refine ⟨?_, nofun⟩
    rcases Nat.lt_or_eq_of_le hs.length_le with hroom | hfull
    · rw [hs.sends_of_room hclosed hroom]
      obtain ⟨hs', -⟩ := hs.enqueue hroom block
      exact ⟨hs'.tended, hs'.maxFrame⟩
    · rw [hs.sends_of_full hclosed hfull]
      obtain ⟨hs', -⟩ := hs.closes
      exact ⟨hs'.tended, hs'.maxFrame⟩

/-- **Every act keeps the queue tended and a closed connection closed.** -/
theorem Sound.perform (hs : Sound capacity maxFrame h) (act : Act) :
    Sound capacity maxFrame (h.perform act) ∧
      (h.connection.closed = true → (h.perform act).connection.closed = true) := by
  cases act with
  | sends block => exact hs.sends block
  | closes => exact ⟨hs.closes.1, fun _ => hs.closes.2.1⟩
  | steps now => exact hs.advance fun o c hstep => ⟨handles_step hstep, maxFrame_step hstep⟩
  | looks now => exact hs.advance fun o c hlook => ⟨handles_look hlook, maxFrame_look hlook⟩
  | reads n | leaves => exact ⟨⟨hs.tended, hs.maxFrame⟩, id⟩

/-- The queue is tended through every interleaving, and a connection that was closed stays so. -/
theorem Sound.run (hs : Sound capacity maxFrame h) (acts : List Act) :
    Sound capacity maxFrame (h.run acts) ∧
      (h.connection.closed = true → (h.run acts).connection.closed = true) := by
  induction acts generalizing h with
  | nil => exact ⟨hs, id⟩
  | cons act rest ih =>
    obtain ⟨hs', hclosed⟩ := hs.perform act
    exact ⟨(ih hs').1, fun h => (ih hs').2 (hclosed h)⟩

/-! ### All answers -/

/-- **What a connection answers**, and what becomes of its queue. -/
structure Answers (capacity : Nat) (h : History) : Prop where
  /-- No more than its capacity is queued. -/
  length_le : h.queued.length ≤ capacity
  /-- A block that finds room in an open connection is queued behind the others. -/
  room : h.connection.closed = false → h.queued.length < capacity → ∀ block,
    h.perform (.sends block) = (h.enqueue block).answer block (.ok ()) ∧
      (h.enqueue block).queued = h.queued ++ [block]
  /-- The first that finds the queue full is refused and closes the connection, -/
  full : h.connection.closed = false → h.queued.length = capacity → ∀ block,
    h.perform (.sends block) =
      (h.perform .closes).answer block (.error (.queueFull h.connection.id))
  /-- which leaves what is queued. -/
  close : (h.perform .closes).connection.closed = true ∧ (h.perform .closes).queued = h.queued
  /-- A closed connection takes nothing, -/
  closed : h.connection.closed = true → ∀ block,
    h.perform (.sends block) = h.answer block (.error (.closed h.connection.id))
  /-- and is never open again. -/
  stays : h.connection.closed = true → ∀ later, (h.run later).connection.closed = true

/-- **A tended queue answers as a bounded queue does.** -/
theorem Sound.answers (hs : Sound capacity maxFrame h) : Answers capacity h where
  length_le := hs.length_le
  room hopen hroom block := ⟨hs.sends_of_room hopen hroom block, (hs.enqueue hroom block).2⟩
  full := hs.sends_of_full
  close := hs.closes.2
  closed := sends_of_closed
  stays hclosed later := (hs.run later).2 hclosed

/-! ## The line as it is served -/

/-- To settle twice is to settle. -/
theorem settle_settle (h : History) : h.settle.settle = h.settle := by
  by_cases hended : h.outlet.phase = .ended
  · have hsettle : h.settle = h.withHub (h.channel.hub.abandonQueue h.place) := if_pos hended
    have hagain : (h.withHub (h.channel.hub.abandonQueue h.place)).settle =
        h.withHub ((h.channel.hub.abandonQueue h.place).abandonQueue h.place) := if_pos hended
    rw [hsettle, hagain, Hub.abandonQueue_abandonQueue]
  · have hsettle : h.settle = h := if_neg hended
    rw [hsettle, hsettle]

theorem settle_advance (h : History) (r : Option (Outlet × Channel)) :
    (h.advance r).settle = h.advance r := by
  cases r with
  | none => exact settle_settle h
  | some r => exact settle_settle _

/-- The history after so many steps of the outlet, before it is seen whether it has ended. -/
def afterSteps (h : History) (n now : Nat) : History :=
  let (o, c) := h.outlet.run n now h.place h.channel
  { h with outlet := o, channel := c }

/-- An outlet that can make no step makes none. -/
theorem afterSteps_of_none {now : Nat} (h : History)
    (hnone : h.outlet.step now h.place h.channel = none) (n : Nat) : h.afterSteps n now = h := by
  cases n with
  | zero => rfl
  | succ n => simp only [afterSteps, Outlet.run, hnone]

/-- It does not matter to the outlet when it is seen that it has ended. -/
theorem settle_afterSteps_settle (h : History) (n now : Nat) :
    (h.settle.afterSteps n now).settle = (h.afterSteps n now).settle := by
  by_cases hended : h.outlet.phase = .ended
  · have hnone : ∀ c, h.outlet.step now h.place c = none := fun c => by rw [Outlet.step, hended]
    have hsettle : h.settle = h.withHub (h.channel.hub.abandonQueue h.place) := if_pos hended
    rw [afterSteps_of_none h (hnone _), afterSteps_of_none h.settle (hsettle ▸ hnone _),
      settle_settle]
  · have hsettle : h.settle = h := if_neg hended
    rw [hsettle]

/-- **A run of the outlet is one step after another**, and whether it has ended may be seen at the
end. -/
theorem settle_run_steps (h : History) (n now : Nat) :
    (h.run (List.replicate n (.steps now))).settle = (h.afterSteps n now).settle := by
  induction n generalizing h with
  | zero => rfl
  | succ n ih =>
    show ((h.perform (.steps now)).run (List.replicate n (.steps now))).settle = _
    rw [ih, perform]
    cases hstep : h.outlet.step now h.place h.channel with
    | none =>
      rw [advance, settle_afterSteps_settle, afterSteps_of_none h hstep, afterSteps_of_none h hstep]
    | some r =>
      rw [advance, settle_afterSteps_settle]
      simp only [afterSteps, Outlet.run, hstep]

/-- **A line writes by steps of its outlet**, so what it does is among the interleavings. -/
theorem ofLine_write (l : Line) (x : Exchange) (answers : List (Bytes × Except SessionError Unit)) :
    ofLine (l.write x).1 (l.write x).2 answers =
      (ofLine l x answers).run
        (List.replicate (budgetOf l.place ⟨x.hub, l.socket⟩) (.steps x.clock)) := by
  have hwrite : ofLine (l.write x).1 (l.write x).2 answers =
      ((ofLine l x answers).afterSteps (budgetOf l.place ⟨x.hub, l.socket⟩) x.clock).settle := by
    have hafter : (ofLine l x answers).afterSteps (budgetOf l.place ⟨x.hub, l.socket⟩) x.clock =
        ⟨l.place, (l.outlet.proceed x.clock l.place ⟨x.hub, l.socket⟩).1,
          (l.outlet.proceed x.clock l.place ⟨x.hub, l.socket⟩).2, answers⟩ := rfl
    rw [hafter, Line.write, settle]
    generalize l.outlet.proceed x.clock l.place ⟨x.hub, l.socket⟩ = r
    dsimp only
    split <;> rfl
  -- the last of these steps is one at least
  have hsettled : ∀ (h : History) (n now : Nat),
      (h.run (List.replicate (n + 1) (.steps now))).settle =
        h.run (List.replicate (n + 1) (.steps now)) := by
    intro h n now
    rw [List.replicate_succ', run, List.foldl_append]
    exact settle_advance ..
  rw [hwrite, ← settle_run_steps]
  exact hsettled ..

end History

end Outlet

end Switchboard
