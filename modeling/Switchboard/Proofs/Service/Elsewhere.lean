import Switchboard.Proofs.Service.Members
import Switchboard.Proofs.Session.Apart

/-!
# Proofs/Service/Elsewhere — what a move leaves alone

A move of a line touches the connection of the line, a handler touches the connection it serves and
whoever is online, and so on (`Service.Touches`).  All else stays as it is: a queue, with the
connections that have it, is spared by every move that touches none of them (`spares_perform`).

Only connections that may be registered in the pool are ever online there, and only those have
lines; each of them has a queue (`Service.Placed`).
-/

namespace Switchboard

/-! ## Steps of one line -/

namespace Outlet

variable {o o' : Outlet} {now : Nat} {place : Place} {c c' : Channel}

/-- A step of the writing task changes the line's own connection only. -/
theorem Handles.onlyAt (h : Handles now place o c o' c') : c.hub.OnlyAt (· = place) c'.hub := by
  cases h with
  | takes reply taken socket left serving idle => exact Hub.onlyAt_takeReply taken
  | refuses reply hub taken long hub' =>
    have htaken := Hub.onlyAt_takeReply taken
    rcases hub' with hclosed | ⟨hsame, -⟩
    · rw [hclosed]
      exact htaken.trans (Hub.onlyAt_close hub place)
    · rwa [hsame]
  | writes hub bytes serving idle nearer =>
    rw [hub]
    exact .refl _ _
  | turns same left serving idle nearer =>
    rw [same]
    exact .refl _ _
  | givesUp why hub =>
    rcases hub with hclosed | ⟨hsame, -⟩
    · rw [hclosed]
      exact Hub.onlyAt_close _ place
    · rw [hsame]
      exact .refl _ _

/-- A run of the writing task changes the line's own connection only. -/
theorem onlyAt_run (budget : Nat) (o : Outlet) (now : Nat) (place : Place) (c : Channel) :
    c.hub.OnlyAt (· = place) (o.run budget now place c).2.hub := by
  induction budget generalizing o c with
  | zero => exact .refl _ _
  | succ budget ih =>
    unfold run
    cases hstep : o.step now place c with
    | none => exact .refl _ _
    | some r => exact (handles_step hstep).onlyAt.trans (ih r.1 r.2)

end Outlet

namespace Line

variable (l : Line) (x : Exchange)

theorem onlyAt_welcome : x.hub.OnlyAt (· = l.place) (l.welcome x).2.hub := by
  unfold welcome runOpeningHook
  split
  · dsimp only
    split
    · exact .refl _ _
    · exact Hub.onlyAt_close ..
    · exact .refl _ _
    · exact .refl _ _
  · exact .refl _ _

theorem onlyAt_equip : x.hub.OnlyAt (· = l.place) (l.equip x).2.hub := by
  unfold equip
  split <;> exact .refl _ _

/-- What the intake brings is done at the connection that is read. -/
theorem onlyAt_takeIn (i : Intake) : x.hub.OnlyAt (· = l.place) (l.takeIn i x).2.hub := by
  unfold takeIn
  generalize i.feed l.socket.arrived = fed
  obtain ⟨blocks, next⟩ := fed
  cases next with
  | error e => exact Hub.onlyAt_close ..
  | ok i =>
    dsimp only
    split
    · exact Hub.onlyAt_close ..
    · exact .refl _ _

theorem onlyAt_read : x.hub.OnlyAt (· = l.place) (l.read x).2.hub := by
  unfold read
  split
  · split
    · exact .refl _ _
    · exact onlyAt_takeIn ..
  · exact .refl _ _

theorem onlyAt_watchHeartbeat : x.hub.OnlyAt (· = l.place) (l.watchHeartbeat x).2.hub := by
  unfold watchHeartbeat
  split
  · split
    · exact .refl _ _
    split
    · exact Hub.onlyAt_modify x.hub l.place (f := fun c => { c with heartbeat := false })
        fun _ => rfl
    split
    · exact .refl _ _
    · exact Hub.onlyAt_close ..
  · exact .refl _ _

/-- A peer who is turned away, or waits too long, is closed at its own place. -/
theorem onlyAt_watchAuth : x.hub.OnlyAt (· = l.place) (l.watchAuth x).2.hub := by
  unfold watchAuth
  split
  · split
    · exact .refl _ _
    split
    · exact .refl _ _
    · exact .refl _ _
    · unfold reject
      split
      · exact (Hub.acts_sendPacked ..).onlyAt.trans (Hub.onlyAt_close ..)
      · exact Hub.onlyAt_close ..
  · exact .refl _ _

theorem onlyAt_watchSignal : x.hub.OnlyAt (· = l.place) (l.watchSignal x).2.hub := by
  unfold watchSignal
  split
  · split
    · exact Hub.onlyAt_close ..
    · exact .refl _ _
  · exact .refl _ _

theorem onlyAt_watch : x.hub.OnlyAt (· = l.place) (l.watch x).2.hub := by
  have hplace := (tends_watchHeartbeat l x).place
  have hplace' := (tends_watchAuth (l.watchHeartbeat x).1 (l.watchHeartbeat x).2).place
  have hauth := onlyAt_watchAuth (l.watchHeartbeat x).1 (l.watchHeartbeat x).2
  have hsignal := onlyAt_watchSignal
    ((l.watchHeartbeat x).1.watchAuth (l.watchHeartbeat x).2).1
    ((l.watchHeartbeat x).1.watchAuth (l.watchHeartbeat x).2).2
  rw [hplace', hplace] at hsignal
  rw [hplace] at hauth
  exact ((onlyAt_watchHeartbeat l x).trans hauth).trans hsignal

theorem onlyAt_write : x.hub.OnlyAt (· = l.place) (l.write x).2.hub := by
  have hrun : x.hub.OnlyAt (· = l.place)
      (l.outlet.proceed x.clock l.place ⟨x.hub, l.socket⟩).2.hub :=
    Outlet.onlyAt_run _ _ _ _ ⟨x.hub, l.socket⟩
  unfold write
  dsimp only
  split
  · exact hrun.trans (Hub.onlyAt_modifyQueue ..)
  · exact hrun

/-- A line leaves with its own connection. -/
theorem onlyAt_leave : x.hub.OnlyAt (· = l.place) (l.leave x).2.hub := by
  unfold leave
  split
  · exact Hub.onlyAt_forget ..
  · exact .refl _ _

theorem onlyAt_depart : x.hub.OnlyAt (· = l.place) (l.depart x).2.hub := by
  unfold depart
  split
  · dsimp only
    split <;> exact .refl _ _
  · exact .refl _ _

end Line

/-! ## Moves -/

namespace Service

variable {s : Service} {move : Move} {q : Nat}

/-- **The places a move touches**; nobody is touched who joins by it. -/
def Touches (s : Service) : Move → Place → Prop
  | .welcomes i, c | .equips i, c | .reads i, c | .watches i, c | .writes i, c | .leaves i, c
  | .departs i, c => ∃ l, s.lines[i]? = some l ∧ c = l.place
  | .handles r _, c => c = r.place ∨
      s.exchange.hub.reachesPool r.place = true ∧ s.exchange.hub.IsOnline c
  | .closes d, c => c = d
  | .stops _, c => s.exchange.hub.IsOnline c
  | _, _ => False

/-- What a line does at its own place is, seen from the service, done at the place of line `i`. -/
theorem onlyAt_onLine {i : Nat} {f : Line → Exchange → Line × Exchange}
    (hf : ∀ l, s.exchange.hub.OnlyAt (· = l.place) (f l s.exchange).2.hub) :
    s.exchange.hub.OnlyAt (fun c => ∃ l, s.lines[i]? = some l ∧ c = l.place)
      (s.onLine i f).exchange.hub := by
  cases hi : s.lines[i]? with
  | none =>
    rw [onLine_of_none hi]
    exact .refl _ _
  | some l =>
    rw [exchange_onLine hi]
    exact (hf l).mono fun c hc => ⟨l, rfl, hc⟩

/-- A stop touches who is online, and nobody else. -/
theorem onlyAt_stop (s : Service) (closeAll : Bool) :
    s.exchange.hub.OnlyAt s.exchange.hub.IsOnline (s.stop closeAll).2.exchange.hub := by
  unfold Service.stop
  split
  · exact .refl _ _
  · cases closeAll with
    | false => exact .refl _ _
    | true =>
      show s.exchange.hub.OnlyAt _ s.exchange.closeAll.hub
      unfold Exchange.closeAll
      split
      · exact .refl _ _
      · exact Hub.onlyAt_closeAll _

/-- **What a move does to connections and queues.** -/
inductive Alters (s : Service) (move : Move) (hub : Hub) : Prop where
  /-- Only places change that the move touches. -/
  | touches (h : s.exchange.hub.OnlyAt (s.Touches move) hub)
  /-- The connection of a stream joins, and its queue. -/
  | accepts {network : Network} {peer : String} (hmove : move = .accepts network peer)
      (hconnections : hub.connections = s.exchange.hub.connections ++
        [.ofPeer s.exchange.nextId network peer s.exchange.plan.settings.marshaller
          s.exchange.hub.queues.length false true])
      (hqueues : hub.queues = s.exchange.hub.queues ++
        [.ofCapacity s.exchange.plan.settings.queueCapacity])
  /-- The connection of a datagram joins. -/
  | receives {network : Network} {queue : Nat} {peer : String} {received : Bytes}
      (hmove : move = .receives network queue peer received)
      (hconnections : hub.connections = s.exchange.hub.connections ++
        [.ofPeer s.exchange.nextId network peer s.exchange.plan.settings.marshaller queue true
          false])
      (hqueues : hub.queues = s.exchange.hub.queues)

/-- **Every move is one of these.** -/
theorem alters_perform (s : Service) (move : Move) :
    s.Alters move (s.perform move).exchange.hub := by
  cases move with
  | accepts network peer => exact .accepts rfl rfl rfl
  | receives network queue peer received =>
    show s.Alters _ (Datagram.receive network queue peer received s.exchange).hub
    unfold Datagram.receive
    split
    · exact .touches (.refl _ _)
    · exact .receives rfl rfl rfl
  | welcomes i => exact .touches (onlyAt_onLine fun l => l.onlyAt_welcome _)
  | equips i => exact .touches (onlyAt_onLine fun l => l.onlyAt_equip _)
  | reads i => exact .touches (onlyAt_onLine fun l => l.onlyAt_read _)
  | watches i => exact .touches (onlyAt_onLine fun l => l.onlyAt_watch _)
  | writes i => exact .touches (onlyAt_onLine fun l => l.onlyAt_write _)
  | leaves i => exact .touches (onlyAt_onLine fun l => l.onlyAt_leave _)
  | departs i => exact .touches (onlyAt_onLine fun l => l.onlyAt_depart _)
  | handles r a => exact .touches (Hub.onlyAt_perform ⟨s.exchange.desk, r, false⟩ a)
  | closes c => exact .touches (Hub.onlyAt_close s.exchange.hub c)
  | stops closeAll => exact .touches (onlyAt_stop s closeAll)
  | peers | ticks | becomes => exact .touches (.refl _ _)

/-- **No move makes a connection vanish**, or changes how one was made. -/
theorem grows_perform (s : Service) (move : Move) :
    s.exchange.hub.Grows (s.perform move).exchange.hub := by
  cases s.alters_perform move with
  | touches h => exact h.grows
  | accepts _ hconnections hqueues => exact Hub.grows_of_append hconnections hqueues
  | receives _ hconnections hqueues =>
    exact Hub.grows_of_append hconnections (hqueues.trans (List.append_nil _).symm)

/-- **A queue is spared** by a move that touches none of its connections. -/
theorem spares_perform (hq : q < s.exchange.hub.queues.length)
    (h : ∀ c, s.Touches move c → (s.exchange.connection c).queue ≠ q) :
    s.exchange.hub.Spares q (s.perform move).exchange.hub := by
  cases s.alters_perform move with
  | touches honly => exact honly.spares h
  | accepts _ hconnections hqueues => exact Hub.spares_of_append hconnections hqueues hq
  | receives _ hconnections hqueues =>
    exact Hub.spares_of_append hconnections (hqueues.trans (List.append_nil _).symm) hq

/-! ## Who can be in the pool -/

/-- **Connections are numbered in the order they join**, whoever is online may be registered in the
pool, as may the connections of lines, and each of those has a queue. -/
structure Placed (s : Service) : Prop where
  seated : s.Seated
  registered : s.exchange.Registered
  rising : ∀ c d, c < d → d < s.exchange.hub.connections.length →
    (s.exchange.connection c).id < (s.exchange.connection d).id
  online : ∀ c, s.exchange.hub.IsOnline c → (s.exchange.connection c).pooled = true
  lines : ∀ (i : Nat) (l : Line), s.lines[i]? = some l →
    (s.exchange.connection l.place).pooled = true
  queue : ∀ c < s.exchange.hub.connections.length, (s.exchange.connection c).pooled = true →
    (s.exchange.connection c).queue < s.exchange.hub.queues.length

/-- Whoever comes online may. -/
theorem Placed.online_perform (h : s.Placed) (move : Move) {c : Place}
    (hc : (s.perform move).exchange.hub.IsOnline c) :
    c < s.exchange.hub.connections.length ∧ (s.exchange.connection c).pooled = true := by
  obtain ⟨user, honline⟩ := hc
  rcases ((onlineAt_move h.seated h.registered move).2 user c).mp honline with hcall | ⟨-, hbefore⟩
  · rcases poolCall?_cases hcall with
      ⟨_, _, -, -, -, heq⟩ | ⟨r, u, -, hreach, heq⟩ | ⟨_, _, -, -, -, heq⟩
    · exact nomatch heq
    · obtain ⟨-, rfl⟩ := PoolCall.online.inj heq
      exact ⟨lt_of_reachesPool hreach, (Bool.and_eq_true_iff.mp hreach).1⟩
    · exact nomatch heq
  · exact ⟨(h.registered.named user c hbefore).1, h.online c ⟨user, hbefore⟩⟩

/-- Who joins has the next number. -/
theorem Placed.rising_of_joins (h : s.Placed) {hub : Hub} {conn : Connection}
    (hconnections : hub.connections = s.exchange.hub.connections ++ [conn])
    (hid : conn.id = s.exchange.nextId) (c d : Place) (hcd : c < d)
    (hd : d < hub.connections.length) : (hub.connection c).id < (hub.connection d).id := by
  rcases Hub.connection_of_concat hconnections hd with ⟨hd, hsame⟩ | ⟨rfl, hnew⟩
  · rw [hsame, Hub.connection_of_append hconnections (Nat.lt_trans hcd hd)]
    exact h.rising c d hcd hd
  · rw [hnew, hid, Hub.connection_of_append hconnections hcd]
    exact h.registered.below c hcd

/-- A connection that joins gets a number above all there are. -/
theorem Placed.rising_perform (h : s.Placed) (move : Move) (c d : Place) (hcd : c < d)
    (hd : d < (s.perform move).exchange.hub.connections.length) :
    ((s.perform move).exchange.connection c).id < ((s.perform move).exchange.connection d).id := by
  cases s.alters_perform move with
  | touches honly =>
    rw [Exchange.connection, Exchange.connection, (Connection.sameMake_of_made (honly.made c)).id,
      (Connection.sameMake_of_made (honly.made d)).id]
    exact h.rising c d hcd (honly.length ▸ hd)
  | accepts _ hconnections => exact h.rising_of_joins hconnections rfl c d hcd hd
  | receives _ hconnections => exact h.rising_of_joins hconnections rfl c d hcd hd

/-- A stream that joins brings its queue; a datagram that joins is not one to be registered. -/
theorem Placed.queue_perform (h : s.Placed) (move : Move) (c : Place)
    (hc : c < (s.perform move).exchange.hub.connections.length)
    (hpooled : ((s.perform move).exchange.connection c).pooled = true) :
    ((s.perform move).exchange.connection c).queue <
      (s.perform move).exchange.hub.queues.length := by
  rw [Exchange.connection] at hpooled ⊢
  cases s.alters_perform move with
  | touches honly =>
    have hmake := Connection.sameMake_of_made (honly.made c)
    rw [hmake.pooled] at hpooled
    rw [hmake.queue, honly.queues]
    exact h.queue c (honly.length ▸ hc) hpooled
  | accepts _ hconnections hqueues =>
    rw [hqueues, List.length_append, List.length_singleton]
    rcases Hub.connection_of_concat hconnections hc with ⟨hlt, hsame⟩ | ⟨-, hnew⟩
    · rw [hsame] at hpooled ⊢
      exact Nat.lt_succ_of_lt (h.queue c hlt hpooled)
    · rw [hnew]
      exact Nat.lt_succ_self _
  | receives _ hconnections hqueues =>
    rw [hqueues]
    rcases Hub.connection_of_concat hconnections hc with ⟨hlt, hsame⟩ | ⟨-, hnew⟩
    · rw [hsame] at hpooled ⊢
      exact h.queue c hlt hpooled
    · rw [hnew] at hpooled
      exact absurd hpooled Bool.false_ne_true

/-- **Every move keeps it.** -/
theorem Placed.perform (h : s.Placed) (move : Move) : (s.perform move).Placed := by
  have hpooled {c : Place} (hc : c < s.exchange.hub.connections.length)
      (hbefore : (s.exchange.connection c).pooled = true) :
      ((s.perform move).exchange.connection c).pooled = true :=
    (Connection.sameMake_of_made ((s.grows_perform move).made c hc)).pooled.trans hbefore
  refine ⟨seated_perform h.seated move, (onlineAt_move h.seated h.registered move).1,
    h.rising_perform move, fun c hc => ?_, fun i l hi => ?_, h.queue_perform move⟩
  · obtain ⟨hlt, hbefore⟩ := h.online_perform move hc
    exact hpooled hlt hbefore
  · rcases lines_perform h.seated hi with ⟨l₀, hl₀, hgoes⟩ | ⟨network, peer, rfl, rfl⟩
    · rw [hgoes.place]
      exact hpooled (h.seated i l₀ hl₀).place (h.lines i l₀ hl₀)
    · rw [Line.place_accept]
      show ((s.exchange.hub.connections ++ [_]).getD _ default).pooled = true
      rw [List.getD_eq_getElem?_getD, List.getElem?_concat_length]
      rfl

/-- **Nobody joins or leaves the pool**; those who may keep their names, and are not open again. -/
structure Keeps (x x' : Exchange) : Prop where
  length : x'.hub.connections.length = x.hub.connections.length
  made : ∀ c, (x'.connection c).made = (x.connection c).made
  username : ∀ c, (x.connection c).pooled = true →
    (x'.connection c).username = (x.connection c).username
  closed : ∀ c, (x.connection c).pooled = true → (x.connection c).closed = true →
    (x'.connection c).closed = true
  queues : x.hub.queues.length ≤ x'.hub.queues.length
  pool : x'.hub.pool = x.hub.pool
  nextId : x'.nextId = x.nextId
  plan : x'.plan = x.plan

theorem Keeps.refl (x : Exchange) : Keeps x x :=
  ⟨rfl, fun _ => rfl, fun _ _ => rfl, fun _ _ => id, Nat.le_refl _, rfl, rfl, rfl⟩

/-- Only queues change. -/
theorem keeps_of_connections {x : Exchange} {hub : Hub}
    (hconnections : hub.connections = x.hub.connections)
    (hqueues : x.hub.queues.length ≤ hub.queues.length) (hpool : hub.pool = x.hub.pool) :
    Keeps x (x.withHub hub) := by
  have hsame (c : Place) : hub.connection c = x.hub.connection c := by
    rw [Hub.connection, hconnections, ← Hub.connection]
  exact ⟨by rw [← hconnections]; rfl, fun c => congrArg Connection.made (hsame c),
    fun c _ => congrArg Connection.username (hsame c),
    fun c _ => (congrArg Connection.closed (hsame c)).trans, hqueues, hpool, rfl, rfl⟩

theorem keeps_addQueue (x : Exchange) : Keeps x x.addQueue.2 :=
  keeps_of_connections rfl (Hub.grows_addQueue ..).queues rfl

theorem keeps_modifyQueue (x : Exchange) (q : Nat) (f : ReplyQueue → ReplyQueue) :
    Keeps x (x.withHub (x.hub.modifyQueue q f)) :=
  keeps_of_connections rfl (Nat.le_of_eq (List.length_modify ..).symm) rfl

/-- Something is done at a place that may not be registered. -/
theorem keeps_of_onlyAt {x x' : Exchange} {c : Place}
    (honly : x.hub.OnlyAt (· = c) x'.hub) (hc : (x.connection c).pooled = false)
    (hpool : x'.hub.pool = x.hub.pool) (hnext : x'.nextId = x.nextId) (hplan : x'.plan = x.plan) :
    Keeps x x' where
  length := honly.length
  made := honly.made
  username d hd := congrArg Connection.username (hsame d hd)
  closed d hd := (congrArg Connection.closed (hsame d hd)).trans
  queues := Nat.le_of_eq honly.queues.symm
  pool := hpool
  nextId := hnext
  plan := hplan
where
  hsame (d : Place) (hd : (x.connection d).pooled = true) : x'.connection d = x.connection d :=
    honly.connection d fun heq => by
      subst heq
      exact nomatch hc.symm.trans hd

/-- Something is done that moves nobody in the pool. -/
theorem keeps_of_sameOnline {x x' : Exchange} {touched : Place → Prop}
    (honly : x.hub.OnlyAt touched x'.hub) (honline : x.hub.SameOnline x'.hub)
    (hnext : x'.nextId = x.nextId) (hplan : x'.plan = x.plan) : Keeps x x' where
  length := honly.length
  made := honly.made
  username d _ := honline.username d
  closed d _ := honline.closed d
  queues := Nat.le_of_eq honly.queues.symm
  pool := honline.pool
  nextId := hnext
  plan := hplan

/-- What moves nobody in the pool leaves the service well placed. -/
theorem Placed.keeps (h : s.Placed) {x : Exchange} (hk : Keeps s.exchange x) :
    ({ s with exchange := x } : Service).Placed := by
  have hmake (c : Place) := Connection.sameMake_of_made (hk.made c)
  have honline (user : String) : x.hub.onlineAt user = s.exchange.hub.onlineAt user := by
    rw [Hub.onlineAt, hk.pool, ← Hub.onlineAt]
  have hplaces : Hub.SamePlaces s.exchange.hub x.hub :=
    ⟨hk.length, fun c => (hmake c).id, fun c => (hmake c).pooled, by rw [hk.pool]⟩
  exact
    { seated i l hi := by
        have hsits := h.seated i l hi
        exact ⟨hk.length ▸ hsits.place, fun hnone =>
          hk.closed l.place (h.lines i l hi) (hsits.closed hnone)⟩
      registered := h.registered.of_same hplaces hk.nextId fun user c hc => by
        rw [honline] at hc
        obtain ⟨hlt, hname⟩ := h.registered.named user c hc
        exact ⟨hk.length ▸ hlt, (hk.username c (h.online c ⟨user, hc⟩)).trans hname⟩
      rising c d hcd hd := by
        show (x.connection c).id < (x.connection d).id
        rw [(hmake c).id, (hmake d).id]
        exact h.rising c d hcd (hk.length ▸ hd)
      online c hc := by
        obtain ⟨user, hc⟩ := hc
        exact (hmake c).pooled.trans (h.online c ⟨user, (honline user).symm.trans hc⟩)
      lines i l hi := (hmake l.place).pooled.trans (h.lines i l hi)
      queue c hc hpooled := by
        show (x.connection c).queue < x.hub.queues.length
        rw [(hmake c).queue]
        exact Nat.lt_of_lt_of_le
          (h.queue c (hk.length ▸ hc) ((hmake c).pooled.symm.trans hpooled)) hk.queues }

/-- Only the lines and what they share matter. -/
theorem Placed.of_keeps {s' : Service} (h : s.Placed) (hlines : s'.lines = s.lines)
    (hk : Keeps s.exchange s'.exchange) : s'.Placed := by
  obtain ⟨host, life, loops, x, lines, letters⟩ := s'
  obtain rfl : lines = s.lines := hlines
  have h' := h.keeps hk
  exact ⟨h'.seated, h'.registered, h'.rising, h'.online, h'.lines, h'.queue⟩

/-! ## The queue of a datagram socket -/

/-- **There is a queue that no connection has which may be registered in the pool.** -/
structure Apart (limits : Settings) (q : Nat) (s : Service) : Prop where
  placed : s.Placed
  settings : s.exchange.plan.settings = limits
  queue : q < s.exchange.hub.queues.length
  others : ∀ c < s.exchange.hub.connections.length, (s.exchange.connection c).pooled = true →
    (s.exchange.connection c).queue ≠ q

variable {limits : Settings}

/-- A queue just added is of that kind. -/
theorem Placed.apart {s' : Service} (h : s.Placed) (hlines : s'.lines = s.lines)
    (hexchange : s'.exchange = s.exchange.addQueue.2) :
    s'.Apart s.exchange.plan.settings s.exchange.hub.queues.length where
  placed := h.of_keeps hlines (hexchange ▸ keeps_addQueue s.exchange)
  settings := by
    rw [hexchange]
    rfl
  queue := by
    rw [hexchange]
    show _ < (s.exchange.hub.queues ++ [_]).length
    rw [List.length_append]
    exact Nat.lt_succ_self _
  others c hc hpooled := by
    rw [hexchange] at hc hpooled ⊢
    exact Nat.ne_of_lt (h.queue c hc hpooled)

/-- A queue stays apart as long as connections that may be registered are as they were made. -/
theorem Apart.of_keeps {s' : Service} (h : s.Apart limits q) (hlines : s'.lines = s.lines)
    (hk : Keeps s.exchange s'.exchange) : s'.Apart limits q where
  placed := h.placed.of_keeps hlines hk
  settings := (congrArg Plan.settings hk.plan).trans h.settings
  queue := Nat.lt_of_lt_of_le h.queue hk.queues
  others c hc hpooled := by
    have hmake := Connection.sameMake_of_made (hk.made c)
    rw [hmake.queue]
    exact h.others c (hk.length ▸ hc) (hmake.pooled.symm.trans hpooled)

theorem Apart.keeps (h : s.Apart limits q) {x : Exchange} (hk : Keeps s.exchange x) :
    ({ s with exchange := x } : Service).Apart limits q := h.of_keeps rfl hk

/-- **Over every move the queue is nobody's who may be online**: a stream that joins has a new
one. -/
theorem Apart.perform (h : s.Apart limits q) (move : Move) : (s.perform move).Apart limits q where
  placed := h.placed.perform move
  settings := (congrArg Plan.settings (happens_perform h.placed.seated move).later.plan).trans
    h.settings
  queue := Nat.lt_of_lt_of_le h.queue (s.grows_perform move).queues
  others c hc hpooled := by
    rw [Exchange.connection] at hpooled ⊢
    cases s.alters_perform move with
    | touches honly =>
      have hmake := Connection.sameMake_of_made (honly.made c)
      rw [hmake.pooled] at hpooled
      rw [hmake.queue]
      exact h.others c (honly.length ▸ hc) hpooled
    | accepts _ hconnections =>
      rcases Hub.connection_of_concat hconnections hc with ⟨hlt, hsame⟩ | ⟨-, hnew⟩
      · rw [hsame] at hpooled ⊢
        exact h.others c hlt hpooled
      · rw [hnew]
        exact Nat.ne_of_gt h.queue
    | receives _ hconnections =>
      rcases Hub.connection_of_concat hconnections hc with ⟨hlt, hsame⟩ | ⟨-, hnew⟩
      · rw [hsame] at hpooled ⊢
        exact h.others c hlt hpooled
      · rw [hnew] at hpooled
        exact absurd hpooled Bool.false_ne_true

/-- Whoever is online has another queue. -/
theorem Apart.of_isOnline (h : s.Apart limits q) {c : Place} (hc : s.exchange.hub.IsOnline c) :
    (s.exchange.connection c).queue ≠ q := by
  obtain ⟨user, hc'⟩ := id hc
  exact h.others c (h.placed.registered.named user c hc').1 (h.placed.online c hc)

/-- A line has another queue. -/
theorem Apart.of_line (h : s.Apart limits q) {i : Nat} {l : Line} (hi : s.lines[i]? = some l) :
    (s.exchange.connection l.place).queue ≠ q :=
  h.others l.place (h.placed.seated i l hi).place (h.placed.lines i l hi)

/-- **A move spares the queue** unless a handler, or one that breaks down, serves a connection that
has it. -/
theorem Apart.spares (h : s.Apart limits q)
    (hhandles : ∀ r a, move = .handles r a → (s.exchange.connection r.place).queue ≠ q)
    (hcloses : ∀ c, move = .closes c → (s.exchange.connection c).queue ≠ q) :
    s.exchange.hub.Spares q (s.perform move).exchange.hub := by
  refine spares_perform h.queue fun c hc => ?_
  cases move with
  | welcomes i | equips i | reads i | watches i | writes i | leaves i | departs i =>
    obtain ⟨l, hi, rfl⟩ := hc
    exact h.of_line hi
  | handles r a =>
    rcases hc with rfl | ⟨-, honline⟩
    · exact hhandles r a rfl
    · exact h.of_isOnline honline
  | closes d =>
    obtain rfl : c = d := hc
    exact hcloses c rfl
  | stops closeAll => exact h.of_isOnline hc
  | accepts | receives | peers | ticks | becomes => exact hc.elim

/-! ## Whatever happens around a queue -/

/-- **What happens at a service**: a move, or something done to the queue of a datagram socket. -/
inductive Occurrence where
  /-- A move. -/
  | moves (move : Move)
  /-- A datagram socket is bound. -/
  | binds
  /-- Replies are taken out of a queue, or the queue is abandoned. -/
  | changes (q : Nat) (f : ReplyQueue → ReplyQueue)

/-- Can it happen?  A datagram arrives where there is a queue for the replies to it. -/
def canOccur (s : Service) : Occurrence → Bool
  | .moves (.receives _ queue _ _) => queue < s.exchange.hub.queues.length
  | _ => true

/-- What comes of it. -/
def outcome (s : Service) : Occurrence → Service
  | .moves move => s.perform move
  | .binds => s.onExchange fun x => x.addQueue.2
  | .changes q f => s.onExchange fun x => x.withHub (x.hub.modifyQueue q f)

/-- **The service once it has happened**; what cannot happen changes nothing. -/
def occur (s : Service) (o : Occurrence) : Service := if s.canOccur o then s.outcome o else s

/-- Does it happen elsewhere than at a queue and the connections that have it? -/
def isElsewhere (s : Service) (q : Nat) : Occurrence → Bool
  | .moves (.receives _ queue _ _) => queue != q
  | .moves (.handles r _) => (s.exchange.connection r.place).queue != q
  | .moves (.closes c) => (s.exchange.connection c).queue != q
  | .moves _ => true
  | .binds => true
  | .changes queue _ => queue != q

variable {o : Occurrence}

/-- What comes of anything that happens is well placed. -/
theorem Placed.outcome (h : s.Placed) (o : Occurrence) : (s.outcome o).Placed := by
  cases o with
  | moves move => exact h.perform move
  | binds => exact h.keeps (keeps_addQueue s.exchange)
  | changes queue f => exact h.keeps (keeps_modifyQueue s.exchange queue f)

/-- Connections are well placed once something has happened, and if it could not. -/
theorem Placed.occur (h : s.Placed) (o : Occurrence) : (s.occur o).Placed := by
  unfold Service.occur
  split
  · exact h.outcome o
  · exact h

/-- The plan is laid before the service begins; nothing that happens changes it. -/
theorem plan_occur (h : s.Placed) (o : Occurrence) :
    (s.occur o).exchange.plan = s.exchange.plan := by
  unfold Service.occur
  split
  · cases o with
    | moves move => exact (happens_perform h.seated move).later.plan
    | binds | changes => rfl
  · rfl

/-- The queue of a datagram socket stays apart in whatever comes of what happens. -/
theorem Apart.outcome (h : s.Apart limits q) (o : Occurrence) : (s.outcome o).Apart limits q := by
  cases o with
  | moves move => exact h.perform move
  | binds => exact h.keeps (keeps_addQueue s.exchange)
  | changes queue f => exact h.keeps (keeps_modifyQueue s.exchange queue f)

/-- The queue of a datagram socket stays apart once something has happened, and if it could not. -/
theorem Apart.occur (h : s.Apart limits q) (o : Occurrence) : (s.occur o).Apart limits q := by
  unfold Service.occur
  split
  · exact h.outcome o
  · exact h

/-- **What happens elsewhere** spares a queue and its connections. -/
theorem Apart.spares_occur (h : s.Apart limits q) (ho : s.isElsewhere q o = true) :
    s.exchange.hub.Spares q (s.occur o).exchange.hub := by
  unfold Service.occur
  split
  case isFalse => exact .refl q _
  cases o with
  | moves move =>
    refine h.spares ?_ ?_
    · rintro r a rfl
      exact bne_iff_ne.mp ho
    · rintro c rfl
      exact bne_iff_ne.mp ho
  | binds => exact Hub.spares_addQueue _ _ h.queue
  | changes queue f => exact Hub.spares_modifyQueue _ f (bne_iff_ne.mp ho)

/-! ## Listeners -/

/-- A line does not touch the loops that receive datagrams. -/
theorem loops_onLine (i : Nat) (f : Line → Exchange → Line × Exchange) :
    (s.onLine i f).loops = s.loops := by
  unfold onLine
  split <;> rfl

/-- A stop tells loops to end; it takes none of them away. -/
theorem loops_stop (s : Service) (closeAll : Bool) : (s.stop closeAll).2.loops = s.loops := by
  unfold Service.stop
  split
  · rfl
  · cases closeAll <;> rfl

/-- **No listener begins or ends by a move.** -/
theorem loops_perform (s : Service) (move : Move) : (s.perform move).loops = s.loops := by
  cases move with
  | welcomes | equips | reads | watches | writes | leaves | departs => exact loops_onLine _ _
  | stops closeAll => exact loops_stop s closeAll
  | accepts | receives | handles | closes | peers | ticks | becomes => rfl

/-- Nothing that happens to lines or queues changes which loops there are. -/
theorem loops_occur (s : Service) (o : Occurrence) : (s.occur o).loops = s.loops := by
  unfold occur
  split
  case isFalse => rfl
  cases o with
  | moves move => exact loops_perform s move
  | binds | changes => rfl

/-- Are listeners told to end by it? -/
def Occurrence.tells : Occurrence → Bool
  | .moves (.stops _) | .moves (.becomes _) => true
  | _ => false

end Service

end Switchboard
