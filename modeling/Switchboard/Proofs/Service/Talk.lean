import Switchboard.Proofs.Service.Echoes
import Switchboard.Proofs.Service.Undisturbed

/-!
# Proofs/Service/Talk — one block sent to the echo service over a stream

A peer connects to the echo service, sends one block in any pieces and reads what comes back
(`Talk`).  Its line is greeted, read, watched and written, its request runs, and anything else
happens to the service, in any order (`Talk.perform`).

`Talk.Sound` is what every act preserves unless a heartbeat is missed, and `Talk.Later` says what
never goes back.  So what the peer reads is always a first part of its reply
(`Talk.Sound.got_prefix`), and it is all of it once everybody has had their turn often enough
(`Talk.Sound.got_turns`).
-/

namespace Switchboard

/-- A peer that sends one block over a stream, and what has come of it. -/
structure Talk where
  /-- The service. -/
  service : Service
  /-- The number of the line. -/
  line : Nat
  /-- The place of its connection. -/
  place : Place
  /-- The block. -/
  block : Bytes
  /-- What has come of it. -/
  visit : Line.Visit
  /-- Did a watch close the connection? -/
  timedOut : Bool

namespace Talk

/-- What can happen to the talk, and around it. -/
inductive Act where
  /-- The peer sends so many further octets of its block, or all there are. -/
  | sends (n : Nat)
  /-- The peer reads so many octets, or all there are. -/
  | takes (n : Nat)
  /-- The hook for connections that open runs. -/
  | welcomes
  /-- The watches are set up. -/
  | equips
  /-- What has arrived is read. -/
  | reads
  /-- The watches look. -/
  | watches
  /-- Replies are written. -/
  | writes
  /-- The connection leaves the pool, if it can. -/
  | leaves
  /-- The line ends, if it can. -/
  | departs
  /-- The next of the requests dispatched runs. -/
  | runs
  /-- Something else happens to the service. -/
  | passes (o : Service.Occurrence)

/-- The line. -/
def here (t : Talk) : Line := t.service.lines.getD t.line default

/-- Its connection. -/
def connection (t : Talk) : Connection := t.service.exchange.connection t.place

/-- What the peer has read. -/
def got (t : Talk) : Bytes := t.here.socket.sent.take t.here.socket.taken

/-- How many heartbeats were counted, or wait to be. -/
def beats (t : Talk) : Nat := t.visit.counted + t.connection.heartbeat.toNat

/-- A peer connects to a service. -/
def start (s : Service) (network : Network) (peer : String) (block : Bytes) : Talk :=
  ⟨(s.accept network peer).2, (s.accept network peer).1,
    (Line.accept network peer s.exchange).1.place, block, ⟨[], [], 0, 0⟩, false⟩

/-- The talk with a move of the service. -/
def move (t : Talk) (move : Service.Move) : Talk := { t with service := t.service.perform move }

/-- The peer sends some more of its block, unless it cannot any more. -/
def send (t : Talk) (n : Nat) : Talk :=
  let bs := (t.block.drop t.visit.received.length).take n
  { t.move (.peers t.line fun k => (k.receive bs).2) with
    visit := { t.visit with
      received := t.visit.received ++ if (t.here.socket.receive bs).1 then bs else [] } }

/-- What has arrived is read. -/
def read (t : Talk) : Talk :=
  let t' := t.move (.reads t.line)
  { t' with
    visit := { t.visit with
      dispatched := t.visit.dispatched ++
        t'.service.exchange.requests.drop t.service.exchange.requests.length } }

/-- The watches look; a heartbeat that was noted is counted. -/
def watch (t : Talk) : Talk :=
  let t' := t.move (.watches t.line)
  { t' with
    visit := { t.visit with
      counted := t.visit.counted +
        (t.connection.heartbeat && !t'.connection.heartbeat).toNat }
    timedOut := t.timedOut || t'.connection.closed }

/-- The next of the requests runs. -/
def serve (t : Talk) : Talk :=
  match t.visit.dispatched[t.visit.ran]? with
  | some (c, block) =>
    { t with
      service := t.service.onExchange fun x => x.serve c block
      visit := { t.visit with ran := t.visit.ran + 1 } }
  | none => t

/-- **One act**; what is not aside from the line does not happen elsewhere. -/
def perform (t : Talk) : Act → Talk
  | .sends n => t.send n
  | .takes n =>
    t.move (.peers t.line fun k => { k with taken := min k.sent.length (k.taken + n) })
  | .welcomes => t.move (.welcomes t.line)
  | .equips => t.move (.equips t.line)
  | .reads => t.read
  | .watches => t.watch
  | .writes => t.move (.writes t.line)
  | .leaves => t.move (.leaves t.line)
  | .departs => t.move (.departs t.line)
  | .runs => t.serve
  | .passes o =>
    if t.service.isAside t.line t.place o then { t with service := t.service.occur o } else t

/-- **Acts in any order**, one after another. -/
def run (t : Talk) (acts : List Act) : Talk := acts.foldl perform t

theorem run_append (t : Talk) (acts more : List Act) :
    t.run (acts ++ more) = (t.run acts).run more := List.foldl_append ..

/-! ## What every act preserves -/

/-- **The line has the connection for itself, and echoes the block.** -/
structure Sound (interval : Option Nat) (b : Block) (t : Talk) : Prop where
  hosts : t.service.Hosts t.line t.place
  block : t.block = b.bytes
  echoes : Line.Echoes interval b t.visit t.here t.service.exchange

/-- How far the line is from having written everything. -/
def togo (t : Talk) : Nat := t.here.togo t.service.exchange

/-- How many octets wait for the peer. -/
def waiting (t : Talk) : Nat := t.here.socket.waiting

/-- **What never goes back.** -/
structure Later (t t' : Talk) : Prop where
  line : t'.line = t.line
  block : t'.block = t.block
  visit : t.visit.Grows t'.visit
  served : t.here.stage = .served → t'.here.stage = .served
  writes : t.visit.ran ≠ 0 → t'.togo < t.togo ∨ t'.togo = t.togo ∧ t'.waiting ≤ t.waiting

variable {interval : Option Nat} {b : Block} {t t' t'' : Talk}

theorem Later.refl (t : Talk) : Later t t :=
  ⟨rfl, rfl, .refl _, id, fun _ => .inr ⟨rfl, Nat.le_refl _⟩⟩

theorem Later.trans (h : Later t t') (h' : Later t' t'') : Later t t'' where
  line := h'.line.trans h.line
  block := h'.block.trans h.block
  visit := h.visit.trans h'.visit
  served hserved := h'.served (h.served hserved)
  writes hran := by
    have hran' : t'.visit.ran ≠ 0 := fun hzero => hran (Nat.le_zero.mp (hzero ▸ h.visit.ran))
    rcases h.writes hran with hless | ⟨hsame, hle⟩
    · rcases h'.writes hran' with hless' | ⟨hsame', -⟩
      · exact .inl (Nat.lt_trans hless' hless)
      · exact .inl (hsame' ▸ hless)
    · rw [← hsame]
      exact (h'.writes hran').imp id (.imp id (Nat.le_trans · hle))

theorem Sound.line (hs : Sound interval b t) : t.service.lines[t.line]? = some t.here := by
  rw [here, List.getD_eq_getElem?_getD, List.getElem?_eq_getElem hs.hosts.here]
  rfl

theorem Sound.place (hs : Sound interval b t) : t.here.place = t.place :=
  (hs.hosts.lines _ _ hs.line).mpr rfl

theorem Sound.exchange_move (hs : Sound interval b t) {move : Service.Move}
    {f : Line → Exchange → Line × Exchange}
    (hmove : t.service.perform move = t.service.onLine t.line f) :
    (t.move move).service.exchange = (f t.here t.service.exchange).2 := by
  show (t.service.perform move).exchange = _
  rw [hmove, Service.exchange_onLine hs.line]

theorem Sound.here_move (hs : Sound interval b t) {move : Service.Move}
    {f : Line → Exchange → Line × Exchange}
    (hmove : t.service.perform move = t.service.onLine t.line f) :
    (t.move move).here = (f t.here t.service.exchange).1 := by
  show (t.service.perform move).lines.getD t.line default = _
  rw [hmove, Service.lines_onLine hs.line, List.getD_eq_getElem?_getD,
    List.getElem?_set_self hs.hosts.here]
  rfl

/-- **A step of the line.** -/
theorem Sound.onLine (hs : Sound interval b t) {move : Service.Move}
    {f : Line → Exchange → Line × Exchange}
    (hline : move.line? = some t.line) (hmove : t.service.perform move = t.service.onLine t.line f)
    {v : Line.Visit} {timedOut : Bool} (hvisit : t.visit.Grows v)
    (hechoes : Line.Echoes interval b v (f t.here t.service.exchange).1
      (f t.here t.service.exchange).2)
    (hon : t.here.GoesOn t.service.exchange (f t.here t.service.exchange)) :
    let t' : Talk := { t.move move with visit := v, timedOut := timedOut }
    Sound interval b t' ∧ Later t t' := by
  intro t'
  have hexchange : t'.service.exchange = (f t.here t.service.exchange).2 := hs.exchange_move hmove
  have hhere : t'.here = (f t.here t.service.exchange).1 := hs.here_move hmove
  rw [← hexchange, ← hhere] at hechoes
  have hon' : t.here.GoesOn t.service.exchange (t'.here, t'.service.exchange) := by
    rw [hhere, hexchange]
    exact hon
  have hhosts : t'.service.Hosts t.line t.place := hs.hosts.perform (by
    rintro network queue peer received rfl
    exact nomatch hline)
  exact ⟨⟨hhosts, hs.block, hechoes⟩,
    ⟨rfl, rfl, hvisit, hon'.served, fun _ => hon'.writes⟩⟩

/-- A step of the line by which nothing comes of the block. -/
theorem Sound.move (hs : Sound interval b t) {move : Service.Move}
    {f : Line → Exchange → Line × Exchange}
    (hline : move.line? = some t.line) (hmove : t.service.perform move = t.service.onLine t.line f)
    (h : Line.Echoes interval b t.visit (f t.here t.service.exchange).1
        (f t.here t.service.exchange).2 ∧
      t.here.GoesOn t.service.exchange (f t.here t.service.exchange)) :
    Sound interval b (t.move move) ∧ Later t (t.move move) :=
  hs.onLine hline hmove (.refl _) h.1 h.2

/-- The peer does something to the stream. -/
theorem Sound.perform_peers (hs : Sound interval b t) (f : Socket → Socket) :
    t.service.perform (.peers t.line f) =
      t.service.onLine t.line fun l x => ({ l with socket := f l.socket }, x) := by
  rw [Service.onLine, hs.line]
  show Service.modifySocket t.service t.line f = _
  rw [Service.modifySocket, List.modify_eq_set, hs.line]
  rfl

/-- The peer sends some more of the block. -/
theorem Sound.send (hs : Sound interval b t) (n : Nat) :
    Sound interval b (t.send n) ∧ Later t (t.send n) := by
  have hmore : t.visit.received ++ (t.block.drop t.visit.received.length).take n <+: b.bytes := by
    obtain ⟨rest, hrest⟩ := hs.echoes.received
    rw [hs.block, ← hrest, List.drop_left]
    exact (List.prefix_append_right_inj _).mpr (List.take_prefix ..)
  obtain ⟨hechoes, hon⟩ := hs.echoes.receive hmore
  unfold Talk.send
  dsimp only
  rw [hs.echoes.stream.receive, if_pos rfl]
  exact hs.onLine rfl (hs.perform_peers _)
    ⟨List.prefix_append .., List.prefix_refl _, Nat.le_refl _⟩ hechoes hon

theorem Sound.read (hs : Sound interval b t) (hb : Echo.Asks b) :
    Sound interval b t.read ∧ Later t t.read := by
  obtain ⟨hechoes, hon, -⟩ := hs.echoes.read hb
  have hmove : t.service.perform (.reads t.line) = t.service.onLine t.line Line.read := rfl
  have hexchange : (t.service.perform (.reads t.line)).exchange =
      (t.here.read t.service.exchange).2 := Service.exchange_onLine hs.line
  rw [← hexchange] at hechoes
  exact hs.onLine rfl hmove ⟨List.prefix_refl _, List.prefix_append .., Nat.le_refl _⟩
    (hexchange ▸ hechoes) hon

/-- A watch that misses no heartbeat. -/
theorem Sound.watch (hs : Sound interval b t) (htime : t.watch.timedOut = false) :
    Sound interval b t.watch ∧ Later t t.watch := by
  have hmove : t.service.perform (.watches t.line) = t.service.onLine t.line Line.watch := rfl
  have hexchange : (t.service.perform (.watches t.line)).exchange =
      (t.here.watch t.service.exchange).2 := Service.exchange_onLine hs.line
  have hconnection : (t.move (.watches t.line)).connection =
      (t.here.watch t.service.exchange).2.connection t.here.place := by
    rw [hs.place, ← hexchange]
    rfl
  have hopen : _ = false := (Bool.or_eq_false_iff.mp htime).2
  rw [hconnection] at hopen
  obtain ⟨hechoes, hon⟩ := hs.echoes.watch hopen
  rw [← hconnection, hs.place] at hechoes
  exact hs.onLine rfl hmove ⟨List.prefix_refl _, List.prefix_refl _, Nat.le_refl _⟩ hechoes hon

/-- A request of the block moves nobody in the pool. -/
theorem Sound.keeps_serve (hs : Sound interval b t) (hb : Echo.Asks b) :
    Service.Keeps t.service.exchange (t.service.exchange.serve t.place b.bytes) := by
  have hreach : t.service.exchange.hub.reachesPool t.place = false := by
    rw [Hub.reachesPool, hs.hosts.nobody]
    exact Bool.and_false _
  have honline : t.service.exchange.hub.SameOnline
      (t.service.exchange.serve t.place b.bytes).hub := by
    rw [Echo.serve_served hb.fits hs.echoes.plan]
    show t.service.exchange.hub.SameOnline (if _ then _ else _)
    split
    · exact Hub.sameOnline_modify _ _ (fun _ => rfl) (fun _ => rfl) (fun _ => rfl) fun _ => id
    · exact Hub.sameOnline_send ..
  exact Service.keeps_of_sameOnline (Exchange.works_serve _ hreach _).onlyAt honline
    (Exchange.nextId_serve ..) (Exchange.plan_serve ..)

/-- **The request of the block runs**, if it has not run. -/
theorem Sound.serve (hs : Sound interval b t) (hb : Echo.Asks b) :
    Sound interval b t.serve ∧ Later t t.serve := by
  unfold Talk.serve
  split
  case h_2 => exact ⟨hs, .refl t⟩
  rename_i c block hnext
  rcases hs.echoes.dispatched_eq hb with hnone | hone
  · rw [hnone] at hnext
    exact nomatch hnext
  · have hlt : t.visit.ran < 1 := by
      have hlt := (List.getElem?_eq_some_iff.mp hnext).1
      rwa [hone] at hlt
    have hran : t.visit.ran = 0 := Nat.lt_one_iff.mp hlt
    rw [hone, hran] at hnext
    obtain ⟨rfl, rfl⟩ := Prod.mk.inj (Option.some.inj hnext)
    have hechoes := hs.echoes.serve hb hran hone
    refine ⟨⟨?_, hs.block, ?_⟩, ⟨rfl, rfl, ⟨List.prefix_refl _, List.prefix_refl _,
      Nat.le_succ _⟩, id, fun hne => absurd hran hne⟩⟩
    · rw [hs.place]
      exact hs.hosts.keeps (hs.keeps_serve hb)
    · rw [hran]
      exact hechoes

/-- What happens elsewhere. -/
theorem Sound.passes (hs : Sound interval b t) (o : Service.Occurrence) :
    Sound interval b (t.perform (.passes o)) ∧ Later t (t.perform (.passes o)) := by
  unfold Talk.perform
  dsimp only
  split
  case isFalse => exact ⟨hs, .refl t⟩
  rename_i haside
  obtain ⟨hhosts, hline, hspares⟩ := hs.hosts.undisturbed haside
  have hhere : ({ t with service := t.service.occur o } : Talk).here = t.here := by
    rw [here, List.getD_eq_getElem?_getD, hline, ← List.getD_eq_getElem?_getD, ← here]
  have hconnection : (t.service.occur o).exchange.connection t.here.place =
      t.service.exchange.connection t.here.place := by
    rw [hs.place]
    exact hspares.connection t.place hs.hosts.place rfl
  have hqueue : (t.service.occur o).exchange.hub.queueOf t.here.place =
      t.service.exchange.hub.queueOf t.here.place := by
    rw [Hub.queueOf, Hub.queueOf, ← Exchange.connection, ← Exchange.connection, hconnection,
      hs.place]
    exact hspares.queue
  have hseated : (t.service.occur o).exchange.hub.Seated t.here.place := by
    rw [hs.place]
    exact ⟨hhosts.place, hhosts.queues t.place hhosts.place⟩
  obtain ⟨hechoes, hon⟩ := hs.echoes.spared (Service.plan_occur hs.hosts.placed o) hseated
    hconnection hqueue
  have hon' : t.here.GoesOn t.service.exchange
      (({ t with service := t.service.occur o } : Talk).here, (t.service.occur o).exchange) :=
    hhere.symm ▸ hon
  exact ⟨⟨hhosts, hs.block, hhere.symm ▸ hechoes⟩,
    ⟨rfl, rfl, .refl _, hon'.served, fun _ => hon'.writes⟩⟩

/-- **Every act keeps it** that misses no heartbeat, and nothing goes back. -/
theorem Sound.perform (hs : Sound interval b t) (hb : Echo.Asks b) {act : Act}
    (htime : (t.perform act).timedOut = false) :
    Sound interval b (t.perform act) ∧ Later t (t.perform act) := by
  have hsame : Line.Echoes interval b t.visit t.here t.service.exchange ∧
      t.here.GoesOn t.service.exchange (t.here, t.service.exchange) := ⟨hs.echoes, .refl ..⟩
  cases act with
  | sends n => exact hs.send n
  | takes n =>
    exact hs.move rfl (hs.perform_peers fun k =>
      { k with taken := min k.sent.length (k.taken + n) }) (hs.echoes.take n)
  | welcomes =>
    have hmove : t.service.perform (.welcomes t.line) = t.service.onLine t.line Line.welcome := rfl
    exact hs.move rfl hmove (hs.echoes.welcome ▸ hsame)
  | equips =>
    have hmove : t.service.perform (.equips t.line) = t.service.onLine t.line Line.equip := rfl
    obtain ⟨hechoes, hon, -⟩ := hs.echoes.equip
    exact hs.move rfl hmove ⟨hechoes, hon⟩
  | reads => exact hs.read hb
  | watches => exact hs.watch htime
  | writes =>
    have hmove : t.service.perform (.writes t.line) = t.service.onLine t.line Line.write := rfl
    obtain ⟨hechoes, hon, -⟩ := hs.echoes.write
    exact hs.move rfl hmove ⟨hechoes, hon⟩
  | leaves =>
    have hmove : t.service.perform (.leaves t.line) = t.service.onLine t.line Line.leave := rfl
    exact hs.move rfl hmove (hs.echoes.leave ▸ hsame)
  | departs =>
    have hmove : t.service.perform (.departs t.line) = t.service.onLine t.line Line.depart := rfl
    exact hs.move rfl hmove (hs.echoes.depart ▸ hsame)
  | runs => exact hs.serve hb
  | passes o => exact hs.passes o

/-- Only a watch finds that a heartbeat was missed. -/
theorem timedOut_perform_of_ne {act : Act} (hne : act ≠ .watches) :
    (t.perform act).timedOut = t.timedOut := by
  cases act with
  | watches => exact absurd rfl hne
  | runs =>
    show t.serve.timedOut = _
    unfold Talk.serve
    split <;> rfl
  | passes o =>
    unfold Talk.perform
    dsimp only
    split <;> rfl
  | _ => rfl

/-- A heartbeat that was missed stays missed. -/
theorem timedOut_perform (act : Act) (htimed : t.timedOut = true) :
    (t.perform act).timedOut = true := by
  cases act with
  | watches => exact (congrArg (· || _) htimed).trans (Bool.true_or _)
  | _ => exact (timedOut_perform_of_ne (by nofun)).trans htimed

theorem timedOut_run (acts : List Act) (htimed : t.timedOut = true) :
    (t.run acts).timedOut = true := by
  induction acts generalizing t with
  | nil => exact htimed
  | cons act acts ih => exact ih (timedOut_perform act htimed)

/-- Nobody is late in a first part of what nobody is late in. -/
theorem inTime_of_run {acts : List Act} (htime : (t.run acts).timedOut = false) :
    t.timedOut = false :=
  Bool.eq_false_iff.mpr fun htimed =>
    Bool.false_ne_true (htime.symm.trans (timedOut_run acts htimed))

/-- **Any run keeps it** that misses no heartbeat. -/
theorem Sound.run (hs : Sound interval b t) (hb : Echo.Asks b) {acts : List Act}
    (htime : (t.run acts).timedOut = false) :
    Sound interval b (t.run acts) ∧ Later t (t.run acts) := by
  induction acts generalizing t with
  | nil => exact ⟨hs, .refl t⟩
  | cons act acts ih =>
    have htime' : (t.perform act).timedOut = false := inTime_of_run htime
    obtain ⟨hs', hlater⟩ := hs.perform hb htime'
    obtain ⟨hs'', hlater'⟩ := ih hs' htime
    exact ⟨hs'', hlater.trans hlater'⟩

/-! ## Nobody waits for heartbeats -/

/-- Without an interval for heartbeats no watch closes the connection. -/
theorem Sound.timedOut_watch (hs : Sound none b t) : t.watch.timedOut = t.timedOut := by
  have hnone : t.service.exchange.plan.heartbeat = none := by
    rw [hs.echoes.plan]
    rfl
  have hwatch : t.here.watch t.service.exchange = (t.here, t.service.exchange) := by
    rw [hs.echoes.watch_eq, Line.watchHeartbeat, hnone]
    split <;> first | rfl | contradiction
  have hmove : t.service.perform (.watches t.line) = t.service.onLine t.line Line.watch := rfl
  have hexchange := hs.exchange_move hmove
  rw [hwatch] at hexchange
  have hopen : (t.move (.watches t.line)).connection.closed = false := by
    show ((t.move _).service.exchange.connection t.place).closed = false
    rw [hexchange, ← hs.place]
    exact hs.echoes.isClosed
  show (t.timedOut || (t.move (.watches t.line)).connection.closed) = t.timedOut
  rw [hopen, Bool.or_false]

/-- **Nobody is late** where no heartbeats are waited for. -/
theorem Sound.inTime (hs : Sound none b t) (hb : Echo.Asks b) (htime : t.timedOut = false)
    (acts : List Act) : (t.run acts).timedOut = false := by
  induction acts generalizing t with
  | nil => exact htime
  | cons act acts ih =>
    have htime' : (t.perform act).timedOut = false := by
      cases act with
      | watches => exact hs.timedOut_watch.trans htime
      | _ => exact (timedOut_perform_of_ne (by nofun)).trans htime
    exact ih (hs.perform hb htime').1 htime'

/-! ## What the peer has sent -/

theorem sound_start {s : Service} (h : s.Housed) (hplan : s.exchange.plan = Echo.served interval)
    (network : Network) (peer : String) (b : Block) :
    Sound interval b (start s network peer b.bytes) where
  hosts := Service.hosts_accept h network peer
  block := rfl
  echoes := by
    have hhere : (start s network peer b.bytes).here = (Line.accept network peer s.exchange).1 := by
      show (s.lines ++ [_]).getD s.lines.length default = _
      rw [List.getD_eq_getElem?_getD, List.getElem?_concat_length]
      rfl
    rw [hhere]
    exact Line.echoes_accept network peer hplan b

/-! ## Everybody has their turn -/

/-- The peer reads, and the line writes. -/
def round (size : Nat) : List Act := [.takes size, .writes]

/-- What is to be done for a reply of so many octets once the whole block was sent, whatever is done
in between: the watches are set up, what has arrived is read, the request runs, and the peer and the
line take turns in reading and writing. -/
def turns (size : Nat) : List Act :=
  [.equips, .reads, .runs] ++ (List.replicate (Line.work size) (round size)).flatten ++
    [.takes size]

/-- **Up to the first turn and through it.** -/
theorem Sound.first (hs : Sound interval b t) (hb : Echo.Asks b) {act : Act} {turns acts : List Act}
    (hturns : (act :: turns).Sublist acts) (htime : (t.run acts).timedOut = false) :
    ∃ t' rest, Sound interval b t' ∧ Later t t' ∧ Sound interval b (t'.perform act) ∧
      Later t' (t'.perform act) ∧ turns.Sublist rest ∧ t.run acts = (t'.perform act).run rest := by
  obtain ⟨before, after, rfl, hact, hafter⟩ := List.cons_sublist_iff.mp hturns
  obtain ⟨before, between, rfl⟩ := List.append_of_mem hact
  have hrun : t.run (before ++ act :: between ++ after) =
      ((t.run before).perform act).run (between ++ after) := by
    rw [List.append_assoc, run_append]
    rfl
  rw [hrun] at htime
  have htime' := inTime_of_run htime
  have htime'' : (t.run before).timedOut = false := by
    refine Bool.eq_false_iff.mpr fun htimed => ?_
    exact Bool.false_ne_true (htime'.symm.trans (timedOut_perform act htimed))
  obtain ⟨hs', hlater⟩ := hs.run hb htime''
  obtain ⟨hs'', hlater'⟩ := hs'.perform hb htime'
  exact ⟨_, _, hs', hlater, hs'', hlater', hafter.trans (List.sublist_append_right ..), hrun⟩

end Talk

end Switchboard
