import Mathlib.Data.List.Chain
import Switchboard.Proofs.Service.Vigil
import Switchboard.Proofs.Session.Failing

/-!
# Proofs/Service/Admission — when a watch over authentication turns a peer away

A watch over authentication sees no calls but only the state they leave, each time it looks.  If
calls come at different times and none at the deadline, the first decision is all that counts
(`AuthRule.rejection?`): a peer that passed is never turned away, and whoever is denied, or has let
the deadline pass, is turned away then.

The denial is queued by the look that closes the connection, right before it does
(`Exchange.TurnsAway`), and by no other; whether it could be queued does not matter.
-/

namespace Switchboard

namespace AuthRule

variable {rule : AuthRule} {since now t : Nat} {prior : Option Decision}
  {decisions : List (Nat × Decision)} {d : Decision} {state : AuthState}
  {watch : Option AuthWatch}

/-! ## When a peer is to be turned away -/

/-- When the time of a peer is over. -/
def deadline (rule : AuthRule) (since : Nat) : Nat := since + rule.patience

/-- **When a peer is to be turned away.**  A decision from before counts at once; else it is the
first decision, if that is a denial before the deadline, and never if it is a pass; else it is the
deadline. -/
def rejection? (rule : AuthRule) (since : Nat) :
    Option Decision → List (Nat × Decision) → Option Nat
  | some .pass, _ => none
  | some .deny, _ => some since
  | none, [] => some (rule.deadline since)
  | none, (t, d) :: _ =>
    if t < rule.deadline since then
      match d with
      | .pass => none
      | .deny => some t
    else some (rule.deadline since)

/-- **Decisions come one at a time**, and none at the deadline. -/
structure Spaced (rule : AuthRule) (since : Nat) (prior : Option Decision)
    (decisions : List (Nat × Decision)) : Prop where
  rising : decisions.IsChain fun d d' => d.1 < d'.1
  beside : ∀ d ∈ decisions, d.1 ≠ rule.deadline since
  after : ∀ d ∈ decisions, prior.isSome → d.1 ≠ since

theorem Spaced.of_append (h : rule.Spaced since prior (decisions ++ [(now, d)])) :
    rule.Spaced since prior decisions where
  rising := h.rising.left_of_append
  beside e he := h.beside e (List.mem_append_left _ he)
  after e he := h.after e (List.mem_append_left _ he)

theorem rejection?_pass (h : t < rule.deadline since) (rest : List (Nat × Decision)) :
    rule.rejection? since none ((t, .pass) :: rest) = none := if_pos h

theorem rejection?_deny (h : t < rule.deadline since) (rest : List (Nat × Decision)) :
    rule.rejection? since none ((t, .deny) :: rest) = some t := if_pos h

/-- A later decision turns nobody away earlier. -/
theorem rejection?_of_append (h : rule.rejection? since prior (decisions ++ [(now, d)]) = some t) :
    rule.rejection? since prior decisions = some t ∨ now ≤ t := by
  cases prior with
  | some d => cases d <;> exact .inl h
  | none =>
    cases decisions with
    | cons => exact .inl h
    | nil =>
      unfold rejection? at h ⊢
      dsimp only [List.nil_append] at h
      split at h
      · cases d <;> cases h
        exact .inr (Nat.le_refl _)
      · exact .inl h

/-- A later decision does not bring back who was turned away. -/
theorem rejection?_append (h : rule.rejection? since prior decisions = some t) (ht : t ≤ now) :
    rule.rejection? since prior (decisions ++ [(now, d)]) = some t := by
  cases prior with
  | some d => cases d <;> exact h
  | none =>
    cases decisions with
    | cons => exact h
    | nil =>
      unfold rejection? at h ⊢
      cases h
      exact if_neg (Nat.not_lt.mpr ht)

/-! ## What a watch keeps to -/

/-- **A watch that goes on** has seen no decision, or is about to see the first; a watch that has
ended saw a pass. -/
inductive Follows (rule : AuthRule) (since now : Nat) (state : AuthState) :
    Option Decision → List (Nat × Decision) → Option AuthWatch → Prop where
  /-- There was no decision. -/
  | waits (hstate : state = .pending) (hnow : now ≤ rule.deadline since) :
    Follows rule since now state none [] (some ⟨rule.deadline since⟩)
  /-- There is one now. -/
  | sees {d : Decision} (hstate : state = d.state) (hnow : now < rule.deadline since) :
    Follows rule since now state none [(now, d)] (some ⟨rule.deadline since⟩)
  /-- There was one before the watch was set up. -/
  | recalls {d : Decision} (hstate : state = d.state) (hnow : now = since) :
    Follows rule since now state (some d) [] (some ⟨rule.deadline since⟩)
  /-- The first was a pass. -/
  | ended {t : Nat} {rest : List (Nat × Decision)} (ht : t < rule.deadline since) :
    Follows rule since now state none ((t, .pass) :: rest) none
  /-- A pass was the last before. -/
  | passed {decisions : List (Nat × Decision)} :
    Follows rule since now state (some .pass) decisions none

namespace Follows

/-- As long as the watch goes on nobody was to be turned away. -/
theorem le_of_rejection? (h : rule.Follows since now state prior decisions watch)
    (ht : rule.rejection? since prior decisions = some t) : now ≤ t := by
  cases h with
  | waits hstate hnow => exact Option.some.inj ht ▸ hnow
  | @sees d hstate hnow =>
    cases d with
    | pass => exact nomatch (rejection?_pass hnow []).symm.trans ht
    | deny => exact Nat.le_of_eq (Option.some.inj ((rejection?_deny hnow []).symm.trans ht))
  | @recalls d hstate hnow =>
    cases d <;> cases ht
    exact Nat.le_of_eq hnow
  | ended hlt =>
    exact nomatch (rejection?_pass hlt _).symm.trans ht
  | passed => cases ht

/-- **A decision** is the first, or comes too late to matter. -/
theorem decide (h : rule.Follows since now state prior decisions watch)
    (hspaced : rule.Spaced since prior (decisions ++ [(now, d)])) :
    rule.Follows since now d.state prior (decisions ++ [(now, d)]) watch := by
  cases h with
  | waits hstate hnow =>
    exact .sees rfl (Nat.lt_of_le_of_ne hnow (hspaced.beside _ List.mem_cons_self))
  | sees hstate hnow =>
    exact absurd (List.isChain_cons_cons.mp hspaced.rising).1 (Nat.lt_irrefl _)
  | recalls hstate hnow => exact absurd hnow (hspaced.after _ List.mem_cons_self rfl)
  | ended hlt => exact .ended hlt
  | passed => exact .passed

/-- **A millisecond passes** that the watch had nothing to do in. -/
theorem tick (h : rule.Follows since now state prior decisions watch)
    (hrests : ∀ w, watch = some w → w.look now state = .undecided) :
    rule.Follows since (now + 1) state prior decisions watch := by
  cases h with
  | waits hstate hnow =>
    refine .waits hstate (Nat.not_le.mp fun hle => ?_)
    have hlook := hrests _ rfl
    rw [hstate] at hlook
    exact nomatch (if_pos hle).symm.trans hlook
  | @sees d hstate =>
    have hlook := hrests _ rfl
    cases d <;> (rw [hstate] at hlook; cases hlook)
  | @recalls d hstate =>
    have hlook := hrests _ rfl
    cases d <;> (rw [hstate] at hlook; cases hlook)
  | ended hlt => exact .ended hlt
  | passed => exact .passed

end Follows

end AuthRule

namespace AuthWatch

variable {rule : AuthRule} {since now t : Nat} {prior : Option Decision}
  {decisions : List (Nat × Decision)} {state : AuthState} {w : AuthWatch}

/-- **What a look shows**: the watch goes on while there is time, ends with a pass, or finds that
the peer is to be turned away now. -/
theorem look_of_follows (h : rule.Follows since now state prior decisions (some w)) :
    w.look now state = .undecided ∧ state = .pending ∧ now < w.deadline ∨
      w.look now state = .passed ∧ rule.Follows since now state prior decisions none ∨
      w.look now state = .rejected ∧ rule.rejection? since prior decisions = some now := by
  cases h with
  | waits hstate hnow =>
    subst hstate
    rcases Nat.lt_or_eq_of_le hnow with hlt | rfl
    · exact .inl ⟨if_neg (Nat.not_le.mpr hlt), rfl, hlt⟩
    · exact .inr (.inr ⟨if_pos (Nat.le_refl _), rfl⟩)
  | @sees d hstate hnow =>
    subst hstate
    cases d with
    | pass => exact .inr (.inl ⟨rfl, .ended hnow⟩)
    | deny => exact .inr (.inr ⟨rfl, AuthRule.rejection?_deny hnow []⟩)
  | @recalls d hstate hnow =>
    subst hstate hnow
    cases d with
    | pass => exact .inr (.inl ⟨rfl, .passed⟩)
    | deny => exact .inr (.inr ⟨rfl, rfl⟩)

end AuthWatch

/-! ## Looks -/

/-- **What becomes of a denial** for the connection at a place: there may be none to be told, or it
cannot be packed, or it is sent as one block. -/
inductive AuthRule.Denies (rule : AuthRule) (c : Place) (hub : Hub) : Hub → Prop where
  | silent (h : rule.denial = none) : Denies rule c hub hub
  | unpacked {text : String} {why : WireError} (h : rule.denial = some text)
    (hpack : Packer.pack ⟨(hub.connection c).marshaller⟩ rule.messageId (.string text) [] =
      .error why) : Denies rule c hub hub
  | sent {text : String} {block : Bytes} {result : Except SessionError Unit} {hub' : Hub}
    (h : rule.denial = some text)
    (hpack : Packer.pack ⟨(hub.connection c).marshaller⟩ rule.messageId (.string text) [] =
      .ok block) (hsends : hub.Sends c block (result, hub')) : Denies rule c hub hub'

/-- **A peer is turned away**: it is denied, and whatever became of that, the connection is closed
right after. -/
structure Exchange.TurnsAway (rule : AuthRule) (c : Place) (x x' : Exchange) : Prop where
  denies : ∃ hub, rule.Denies c x.hub hub ∧ x' = x.withHub (hub.close c)
  closed : (x'.connection c).closed = true

namespace Line

variable {l : Line} {x : Exchange} {rule : AuthRule} {w : AuthWatch}

theorem turnsAway_reject (hs : l.Sits x) (rule : AuthRule) :
    x.TurnsAway rule l.place (l.reject rule x) := by
  unfold reject
  split
  · rename_i text htext
    have honly : x.hub.OnlyAt (· = l.place)
        (x.hub.reply l.place rule.messageId (.string text) []).2 :=
      (Hub.acts_sendPacked ..).onlyAt
    refine ⟨⟨_, ?_, rfl⟩, ?_⟩
    · unfold Hub.reply
      cases hpack : Packer.pack ⟨(x.hub.connection l.place).marshaller⟩ rule.messageId
          (.string text) [] with
      | error why => exact .unpacked htext hpack
      | ok block => exact .sent htext hpack (Hub.sends_send ..)
    · show ((Hub.close _ l.place).connection l.place).closed = true
      rw [Hub.closed_close, decide_eq_true ⟨rfl, honly.length ▸ hs.place⟩, Bool.true_or]
  · rename_i hnone
    exact ⟨⟨_, .silent hnone, rfl⟩, closed_close hs⟩

/-- A watch over a closed connection ends without effect, as does one that has ended. -/
theorem watchAuth_of_closed (l : Line) (h : (x.connection l.place).closed = true) :
    (l.watchAuth x).2 = x := by
  unfold watchAuth
  split
  · rw [if_pos (show l.isClosed x = true from h)]
  · rfl

theorem watchAuth_of_none (h : l.auth = none) : l.watchAuth x = (l, x) := by
  rw [watchAuth, h]

/-- A watch that waits for a decision and has time left does nothing. -/
theorem watchAuth_of_undecided (hwatch : l.auth = some w) (hopen : l.isClosed x = false)
    (hlook : w.look x.clock (x.hub.mark l.place).auth = .undecided) :
    l.watchAuth x = (l, x) := by
  have hlook : w.look x.clock (x.connection l.place).auth = .undecided := hlook
  unfold watchAuth
  rw [hwatch]
  split
  · rename_i heq _
    rw [hopen, ← Option.some.inj heq, hlook]
    rfl
  · rfl

/-- **What a look at the authentication comes to** while the connection is open. -/
inductive Judges (rule : AuthRule) (w : AuthWatch) (l : Line) (x : Exchange) :
    Line × Exchange → Prop where
  /-- The watch goes on. -/
  | goesOn (h : w.look x.clock (x.hub.mark l.place).auth = .undecided) : Judges rule w l x (l, x)
  /-- The peer passed. -/
  | passes (h : w.look x.clock (x.hub.mark l.place).auth = .passed) :
    Judges rule w l x ({ l with auth := none }, x)
  /-- The peer is turned away. -/
  | rejects (h : w.look x.clock (x.hub.mark l.place).auth = .rejected) :
    Judges rule w l x ({ l with auth := none }, l.reject rule x)

theorem judges_watchAuth (hwatch : l.auth = some w) (hrule : x.plan.auth = some rule)
    (hopen : (x.connection l.place).closed = false) : Judges rule w l x (l.watchAuth x) := by
  have hopen : ¬l.isClosed x = true := Bool.eq_false_iff.mp hopen
  unfold watchAuth
  rw [hwatch, hrule]
  dsimp only
  rw [if_neg hopen]
  split
  · exact .goesOn ‹_›
  · exact .passes ‹_›
  · exact .rejects ‹_›

/-- **A watch that has just looked has nothing to do.** -/
theorem watchAuth_again (l : Line) (hrule : x.plan.auth = some rule) :
    (l.watchAuth x).1.watchAuth (l.watchAuth x).2 = l.watchAuth x := by
  cases hwatch : l.auth with
  | none => rw [watchAuth_of_none hwatch, watchAuth_of_none hwatch]
  | some w =>
    cases hopen : (x.connection l.place).closed with
    | true =>
      have hended : l.watchAuth x = ({ l with auth := none }, x) := by
        rw [watchAuth, hwatch, hrule]
        exact if_pos hopen
      rw [hended]
      exact watchAuth_of_none rfl
    | false =>
      have hjudges := judges_watchAuth hwatch hrule hopen
      generalize l.watchAuth x = r at hjudges
      cases hjudges with
      | goesOn hlook => exact watchAuth_of_undecided hwatch hopen hlook
      | passes | rejects => exact watchAuth_of_none rfl

end Line

namespace Service.Guard

variable {g : Guard} {v : Vigil} {e : Incident} {rule : AuthRule} {t : Nat} {l l' : Line}

/-! ## The duty of the watch -/

/-- **The watch admits peers**: it waits for the first decision, and what is due is that the peer is
to be turned away. -/
def admission (g : Guard) (rule : AuthRule) : Duty where
  awake v l := rule.Follows g.since v.service.exchange.clock
    (v.service.exchange.hub.mark g.place).auth v.prior v.decisions l.auth
  due v t := rule.rejection? g.since v.prior v.decisions = some t

theorem spaced_next (h : rule.Spaced g.since v.prior (g.next v e).decisions) :
    rule.Spaced g.since v.prior v.decisions := by
  rcases decisions_next g v e with ⟨-, hsame⟩ | ⟨d, -, happend⟩
  · exact hsame ▸ h
  · rw [happend] at h
    exact h.of_append

/-- **A watch with nothing to do** that has not ended waits for a decision and has time left. -/
theorem Sound.pending_of_rests (h : g.Sound v) (hwatcher : g.watcher = .auth)
    (hrule : g.plan.auth = some rule) (hopen : g.isOpen v.service = true)
    (hl : v.service.lines[g.line]? = some l) {w : AuthWatch} (hwatch : l.auth = some w)
    (hrests : g.Rests v) :
    w.look v.service.exchange.clock (v.service.exchange.hub.mark g.place).auth = .undecided := by
  have hlook := hrests l hl
  rw [hwatcher] at hlook
  have hjudges := Line.judges_watchAuth hwatch (h.plan ▸ hrule)
    (by rw [h.closed_eq hl, hopen, Bool.not_true])
  rw [← h.place_eq hl]
  generalize hr : l.watchAuth v.service.exchange = r at hjudges
  have hsame : r = (l, v.service.exchange) := hr.symm.trans hlook
  cases hjudges with
  | goesOn hundecided => exact hundecided
  | passes | rejects => exact nomatch (congrArg Line.auth (Prod.mk.inj hsame).1).trans hwatch

/-- Time can pass after a look. -/
theorem Sound.rests_next_auth (hs : g.Sound v) (hwatcher : g.watcher = .auth)
    (hrule : g.plan.auth = some rule) : g.Rests (g.next v (.looks g.line .auth)) := by
  obtain ⟨l, hl, -⟩ := hs.line
  exact rests_next hl hwatcher (l.watchAuth_again (hs.plan ▸ hrule))

/-- **A look**: the watch goes on, ends with a pass, or turns away a peer that is to be turned
away. -/
theorem admission_look (hs : g.Sound v) (hrule : g.plan.auth = some rule)
    (he : e = .looks g.line .auth) (hopen : g.isOpen v.service = true)
    (hl : v.service.lines[g.line]? = some l) (hawake : (admission g rule).awake v l) :
    ∃ l', (v.service.meet e).lines[g.line]? = some l' ∧
      (g.isOpen (v.service.meet e) = true ∧ (admission g rule).awake (g.next v e) l' ∨
        g.isOpen (v.service.meet e) = false ∧
          (admission g rule).due v v.service.exchange.clock) := by
  have hplace := hs.place_eq hl
  have hline := he ▸ lines_meet_looks hl .auth
  have hexchange := he ▸ exchange_meet_looks hl .auth
  have hdecisions : (g.next v e).decisions = v.decisions := by rw [he]; rfl
  have hclosed := hs.closed_eq hl
  rw [hopen] at hclosed
  -- the watch stays awake if nothing is changed but what the line has in mind
  have hstays {l' : Line} (hsame : (v.service.meet e).exchange = v.service.exchange)
      (hfollows : rule.Follows g.since v.service.exchange.clock
        (v.service.exchange.hub.mark g.place).auth v.prior v.decisions l'.auth) :
      g.isOpen (v.service.meet e) = true ∧ (admission g rule).awake (g.next v e) l' := by
    refine ⟨by rwa [isOpen, hsame, ← isOpen], ?_⟩
    show rule.Follows g.since (v.service.meet e).exchange.clock
      ((v.service.meet e).exchange.hub.mark g.place).auth v.prior _ l'.auth
    rw [hsame, hdecisions]
    exact hfollows
  have hfollows : rule.Follows g.since v.service.exchange.clock
    (v.service.exchange.hub.mark g.place).auth v.prior v.decisions l.auth := hawake
  refine ⟨_, hline, ?_⟩
  cases hwatch : l.auth with
  | none =>
    have hsame : Watcher.look .auth l v.service.exchange = (l, v.service.exchange) :=
      Line.watchAuth_of_none hwatch
    rw [hsame] at hexchange ⊢
    exact .inl (hstays hexchange hfollows)
  | some w =>
    have hjudges : Line.Judges rule w l v.service.exchange
        (Watcher.look .auth l v.service.exchange) :=
      Line.judges_watchAuth hwatch (hs.plan ▸ hrule) hclosed
    generalize Watcher.look .auth l v.service.exchange = r at hexchange hjudges
    have hshows := AuthWatch.look_of_follows (hwatch ▸ hfollows)
    cases hjudges with
    | goesOn => exact .inl (hstays hexchange hfollows)
    | passes hpass =>
      rw [hplace] at hpass
      rcases hshows with ⟨h, -⟩ | ⟨-, hended⟩ | ⟨h, -⟩
      · cases h.symm.trans hpass
      · exact .inl (hstays hexchange hended)
      · cases h.symm.trans hpass
    | rejects hreject =>
      rw [hplace] at hreject
      rcases hshows with ⟨h, -⟩ | ⟨h, -⟩ | ⟨-, hdue⟩
      · cases h.symm.trans hreject
      · cases h.symm.trans hreject
      · refine .inr ⟨?_, hdue⟩
        rw [isOpen, hexchange, ← hplace,
          (Line.turnsAway_reject (hs.spread.seated _ l hl) rule).closed]
        rfl

/-- **A watch that is let alone** follows what it is told. -/
theorem admission_next {state : AuthState} {watch : Option AuthWatch}
    (h : rule.Follows g.since v.service.exchange.clock
      (v.service.exchange.hub.mark g.place).auth v.prior v.decisions watch)
    (hspaced : rule.Spaced g.since v.prior (g.next v e).decisions)
    (hsees : state = ((v.service.exchange.hub.mark g.place).after (e.tidings? g.place)).auth)
    (hprompt : e.elapsed ≠ 0 → ∀ w, watch = some w →
      w.look v.service.exchange.clock (v.service.exchange.hub.mark g.place).auth = .undecided) :
    rule.Follows g.since (v.service.meet e).exchange.clock state v.prior (g.next v e).decisions
      watch := by
  rw [clock_meet, hsees]
  rcases decisions_next g v e with ⟨hnone, hsame⟩ | ⟨d, htold, happend⟩
  · rw [hsame]
    rw [Mark.auth_after hnone]
    by_cases helapsed : e.elapsed = 0
    · exact helapsed ▸ h
    · exact Incident.elapsed_eq_one helapsed ▸ h.tick (hprompt helapsed)
  · rw [happend] at hspaced ⊢
    rw [htold, Incident.elapsed_of_tidings htold]
    exact h.decide hspaced

/-- **Admission stands every incident.** -/
theorem obeys_admission (hs : g.Sound v) (hwatcher : g.watcher = .auth)
    (hrule : g.plan.auth = some rule)
    (hspaced : rule.Spaced g.since v.prior (g.next v e).decisions)
    (hwatch : e.isWatch g.line = false) (hprompt : e.elapsed ≠ 0 → g.Rests v) :
    g.Obeys (admission g rule) v e where
  kept t ht hle := by
    show rule.rejection? g.since v.prior _ = some t
    rcases decisions_next g v e with ⟨-, hsame⟩ | ⟨d, -, happend⟩
    · rw [hsame]
      exact ht
    · rw [happend]
      exact AuthRule.rejection?_append ht hle
  back t ht := by
    have ht : rule.rejection? g.since v.prior (g.next v e).decisions = some t := ht
    rcases decisions_next g v e with ⟨-, hsame⟩ | ⟨d, -, happend⟩
    · rw [hsame] at ht
      exact .inl ht
    · rw [happend] at ht
      exact AuthRule.rejection?_of_append ht
  past l t hawake ht := AuthRule.Follows.le_of_rejection? hawake ht
  look hlook hopen l hl hawake := by
    rw [hwatcher] at hlook
    exact admission_look hs hrule (Incident.eq_of_isLook hlook) hopen hl hawake
  lets hlook hopen' l l' hl hl' hawake := by
    rw [hwatcher] at hlook
    have hlets := lets_auth hs.spread hl (hs.greeted hl) hwatch hlook hl'
    have hopen := hs.open_of_meet hopen'
    obtain ⟨hsame, hsees⟩ := hs.sees_of_lets hl hlets hopen'
    show rule.Follows g.since _ _ v.prior _ l'.auth
    rw [hsame]
    exact admission_next hawake hspaced hsees fun helapsed w hw =>
      hs.pending_of_rests hwatcher hrule hopen hl hw (hprompt helapsed)

/-- **It holds when the watch is set up.** -/
theorem keeps_admission_start {s : Service} (hs : g.Sound (g.start s))
    (hrule : g.plan.auth = some rule) (hplan : s.exchange.plan = g.plan)
    (hl : s.lines[g.line]? = some l) (hstage : l.stage = .accepted)
    (hclock : s.exchange.clock = g.since) : g.Keeps (admission g rule) (g.start s) := by
  have hline := line_start hl hstage
  have hexchange := exchange_start hl hstage
  have hfollows : (admission g rule).awake (g.start s) (l.setWatches s.exchange) := by
    have hwatch : (l.setWatches s.exchange).auth = some ⟨rule.deadline g.since⟩ := by
      show s.exchange.plan.auth.map (AuthWatch.start · s.exchange.clock) = _
      rw [hplan, hrule, hclock]
      rfl
    show rule.Follows g.since (g.start s).service.exchange.clock
      ((g.start s).service.exchange.hub.mark g.place).auth
      (s.exchange.connection g.place).auth.decision? [] _
    rw [hexchange, hclock, hwatch]
    cases hprior : (s.exchange.connection g.place).auth.decision? with
    | none => exact .waits (AuthState.decision?_eq_none_iff.mp hprior) (Nat.le_add_right ..)
    | some d => exact .recalls (AuthState.decision?_eq_some_iff.mp hprior) rfl
  refine ⟨fun _ l' hl' => Option.some.inj (hl'.symm.trans hline) ▸ hfollows, nofun,
    fun t t' ht ht' => ?_⟩
  have hsince : t ≤ g.since := hclock ▸ hexchange ▸ hs.lost t (ht.resolve_left nofun)
  have hnow := AuthRule.Follows.le_of_rejection? hfollows ht'
  rw [hexchange, hclock] at hnow
  exact Nat.le_trans hsince hnow

/-- Every watch over authentication admits peers. -/
theorem Course.keeps_admission (h : g.Course v) (hwatcher : g.watcher = .auth)
    (hrule : g.plan.auth = some rule) (hspaced : rule.Spaced g.since v.prior v.decisions) :
    g.Keeps (admission g rule) v := by
  induction h with
  | begins hline hstage hplace hclock =>
    have hsound := (Course.begins hline hstage hplace hclock).sound
    exact keeps_admission_start hsound hrule (plan_run (seated_ofPlan _ _) _) hline hstage hclock
  | @goes v h e hwatch hprompt ih =>
    have hobeys := obeys_admission h.sound hwatcher hrule hspaced hwatch hprompt
    exact (ih (spaced_next hspaced)).next h.sound hobeys

/-- A watch that is awake and has nothing to do is not past what is due. -/
theorem not_reached_of_rejection? (hs : g.Sound v) (hwatcher : g.watcher = .auth)
    (hrule : g.plan.auth = some rule) (hopen : g.isOpen v.service = true)
    (hl : v.service.lines[g.line]? = some l) (hawake : (admission g rule).awake v l)
    (ht : rule.rejection? g.since v.prior v.decisions = some t) : ¬g.Reached v t := by
  rintro (hlt | ⟨rfl, hrests⟩)
  · exact absurd (AuthRule.Follows.le_of_rejection? hawake ht) (Nat.not_le.mpr hlt)
  -- what is due is more than now, if the watch has nothing to do
  · have hnext := AuthRule.Follows.tick hawake fun w hw =>
      hs.pending_of_rests hwatcher hrule hopen hl hw hrests
    exact absurd (hnext.le_of_rejection? ht) (Nat.not_succ_le_self _)

/-! ## What the watch comes to -/

/-- **A look that closes the connection denies the peer first**, and a look that does not changes
nothing. -/
theorem Sound.looks_auth (hs : g.Sound v) (hwatcher : g.watcher = .auth)
    (hrule : g.plan.auth = some rule) (hl : v.service.lines[g.line]? = some l) :
    (l.watchAuth v.service.exchange).2 = v.service.exchange ∧
        (g.next v (.looks g.line .auth)).gaveUp = v.gaveUp ∨
      (v.gaveUp = none ∧ v.lost = none) ∧
        (g.next v (.looks g.line .auth)).gaveUp = some v.service.exchange.clock ∧
        v.service.exchange.TurnsAway rule g.place (l.watchAuth v.service.exchange).2 := by
  have hexchange : (v.service.meet (.looks g.line .auth)).exchange =
      (l.watchAuth v.service.exchange).2 := exchange_meet_looks hl .auth
  have hclosed := hs.closed_eq hl
  have hsame (h : (l.watchAuth v.service.exchange).2 = v.service.exchange) :
      (g.next v (.looks g.line .auth)).gaveUp = v.gaveUp := by
    have hmeet : g.isOpen (v.service.meet (.looks g.line .auth)) = g.isOpen v.service := by
      rw [isOpen, hexchange, h, isOpen]
    simp [Guard.next, hmeet]
  cases hopen : g.isOpen v.service with
  | false =>
    have hnothing := l.watchAuth_of_closed (x := v.service.exchange) (by rw [hclosed, hopen]; rfl)
    exact .inl ⟨hnothing, hsame hnothing⟩
  | true =>
    cases hwatch : l.auth with
    | none =>
      have hnothing := congrArg Prod.snd (Line.watchAuth_of_none (x := v.service.exchange) hwatch)
      exact .inl ⟨hnothing, hsame hnothing⟩
    | some w =>
      rw [hopen] at hclosed
      have hjudges := Line.judges_watchAuth hwatch (hs.plan ▸ hrule) hclosed
      generalize l.watchAuth v.service.exchange = r at hexchange hsame hjudges
      cases hjudges with
      | goesOn | passes => exact .inl ⟨rfl, hsame rfl⟩
      | rejects =>
        have haway := Line.turnsAway_reject (hs.spread.seated _ l hl) rule
        rw [hs.place_eq hl] at haway
        refine .inr ⟨hs.none_of_open hopen, ?_, haway⟩
        have hclosed' : g.isOpen (v.service.meet (.looks g.line .auth)) = false := by
          rw [isOpen, hexchange, haway.closed]
          rfl
        simp [Guard.next, hopen, hclosed', hwatcher, Incident.isLook]

/-- **What a watch over authentication comes to**, when decisions are made at these times. -/
structure Admits (g : Guard) (rule : AuthRule) (v : Vigil) : Prop where
  /-- The connection is closed just if the watch gave it up or it was closed otherwise. -/
  closed : g.isOpen v.service = false ↔ v.gaveUp.isSome ∨ v.lost.isSome
  /-- The watch gives it up when the peer is to be turned away, and at no other time. -/
  rejects : ∀ t, v.gaveUp = some t → rule.rejection? g.since v.prior v.decisions = some t
  /-- It does so, unless the connection was closed otherwise. -/
  gives : ∀ t, rule.rejection? g.since v.prior v.decisions = some t → v.lost = none →
    g.Reached v t → v.gaveUp = some t
  /-- A connection closed otherwise was closed by that time, and is not given up any more. -/
  lost : ∀ t, v.lost = some t → v.gaveUp = none ∧
    ∀ t', rule.rejection? g.since v.prior v.decisions = some t' → t ≤ t'
  /-- Once the first decision is a pass the connection is never given up, whatever comes later. -/
  passed : v.prior = some .pass ∨ v.prior = none ∧ (∃ t rest, v.decisions = (t, .pass) :: rest ∧
    t < rule.deadline g.since) → v.gaveUp = none
  /-- Who was given up stays so. -/
  once : ∀ e t, v.gaveUp = some t → (g.next v e).gaveUp = some t
  /-- The look that gives the connection up denies the peer and closes the connection, whatever
  became of the denial; every other look changes nothing. -/
  looks : ∀ l, v.service.lines[g.line]? = some l →
    (l.watchAuth v.service.exchange).2 = v.service.exchange ∧
        (g.next v (.looks g.line .auth)).gaveUp = v.gaveUp ∨
      (v.gaveUp = none ∧ v.lost = none) ∧
        (g.next v (.looks g.line .auth)).gaveUp = some v.service.exchange.clock ∧
        v.service.exchange.TurnsAway rule g.place (l.watchAuth v.service.exchange).2

/-- **A watch over authentication turns away whom it is to**, whatever else happens to the
service. -/
theorem admits_of_course (h : g.Course v) (hwatcher : g.watcher = .auth)
    (hrule : g.plan.auth = some rule) (hspaced : rule.Spaced g.since v.prior v.decisions) :
    g.Admits rule v := by
  have hs := h.sound
  have hk := h.keeps_admission hwatcher hrule hspaced
  refine ⟨hs.closed, hk.gaveUp, fun t ht hlost hreached => ?_, fun t ht => ⟨?_, fun t' ht' => ?_⟩,
    fun hpass => ?_, fun e t ht => ?_, fun l hl => hs.looks_auth hwatcher hrule hl⟩
  · refine hk.gives hs ?_ (fun t' ht' _ => ?_) ht hlost hreached
    · exact fun l hopen hl hawake t => not_reached_of_rejection? hs hwatcher hrule hopen hl hawake
    · exact Option.some.inj (ht'.symm.trans ht)
  · exact hs.once.resolve_right fun hnone => nomatch hnone.symm.trans ht
  · exact hk.intime t t' (.inr ht) ht'
  · refine Option.eq_none_iff_forall_ne_some.mpr fun t ht => ?_
    have hdue : rule.rejection? g.since v.prior v.decisions = some t := hk.gaveUp t ht
    rcases hpass with hprior | ⟨hprior, t', rest, hdecisions, hlt⟩
    · rw [hprior] at hdue
      cases hdue
    · rw [hprior, hdecisions, AuthRule.rejection?_pass hlt] at hdue
      cases hdue
  · exact hs.gaveUp_next ht e

/-- A watch that waits for a decision and has time left has nothing to do. -/
theorem rests_of_pending (hwatcher : g.watcher = .auth)
    (h : ∃ l ∈ v.service.lines[g.line]?, ∃ w ∈ l.auth, l.isClosed v.service.exchange = false ∧
      w.look v.service.exchange.clock (v.service.exchange.hub.mark l.place).auth = .undecided) :
    g.Rests v := by
  obtain ⟨l, hl, w, hw, hopen, hlook⟩ := h
  intro l' hl'
  obtain rfl := Option.some.inj (hl'.symm.trans hl)
  rw [hwatcher]
  exact Line.watchAuth_of_undecided hw hopen hlook

/-- A peer that is denied is told so, and the connection is closed. -/
theorem admits_of_course_denied :
    let rule : AuthRule := ⟨3, 1393, false, some "no"⟩
    let plan : Plan := ⟨.empty, .standard, none, some rule, .none⟩
    let g : Guard := ⟨.auth, 0, 0, 0, plan⟩
    let s := (ofPlan plan (.fresh true)).run [.accepts .tcp "p", .welcomes 0]
    let deny : Incident := .moves (.handles (.ofBlock 0 [] []) .denyAuth)
    let v := [.moves .ticks, deny, .looks 0 .auth].foldl g.next (g.start s)
    g.Course v ∧ rule.Spaced g.since v.prior v.decisions ∧ v.decisions = [(1, .deny)] ∧
      v.gaveUp = some 1 ∧ (v.service.exchange.hub.queueOf 0).replies.length = 1 ∧
      g.Admits rule v := by
  intro rule plan g s deny v
  have hstart : g.Course (g.start s) := .begins rfl rfl rfl rfl
  have hgoes : g.Goes (g.start s) [.moves .ticks, deny, .looks 0 .auth] := by
    refine ⟨rfl, fun _ => rests_of_pending rfl ?_, rfl, rests_of_elapsed rfl,
      rfl, rests_of_elapsed rfl, trivial⟩
    decide +kernel
  have hcourse : g.Course v := hstart.foldl hgoes
  have hdecisions : v.decisions = [(1, .deny)] := by decide +kernel
  have hspaced : rule.Spaced g.since v.prior v.decisions := by
    rw [hdecisions]
    exact ⟨.singleton _, by decide, by decide⟩
  exact ⟨hcourse, hspaced, hdecisions, by decide +kernel, by decide +kernel,
    admits_of_course hcourse rfl rfl hspaced⟩

end Service.Guard

end Switchboard
