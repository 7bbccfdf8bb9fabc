import Mathlib.Data.List.Chain
import Switchboard.Proofs.Service.Vigil

/-!
# Proofs/Service/Heartbeats — when a watch for heartbeats gives a connection up

A watch counts the intervals that pass without a heartbeat, and begins over with each heartbeat.
From outside neither the count nor the intervals are seen: the connection is given up at the first
time that lies a whole span behind the start or a heartbeat with no heartbeat in between
(`HeartbeatRule.FirstExpiry`).

The invariant ties the count to the last heartbeat: the current interval ends as many intervals
after it as there were misses, and one (`HeartbeatRule.Follows`).  It is kept by heartbeats, by
time and by looks, and what the watch comes to follows from it (`Service.Guard.Timely`).
-/

namespace Switchboard

namespace HeartbeatRule

variable {rule : HeartbeatRule} {since now last t : Nat} {beats : List Nat} {noted : Bool}
  {w w' : HeartbeatWatch}

/-! ## When a connection is to be given up -/

/-- How many misses in a row it takes. -/
def limit (rule : HeartbeatRule) : Nat := max 1 rule.maxMisses

/-- How long it takes until a peer without heartbeats is given up. -/
def span (rule : HeartbeatRule) : Nat := rule.limit * rule.interval

/-- **A span has passed at this time** since the start or a heartbeat, with no heartbeat in
between. -/
def Expires (rule : HeartbeatRule) (since : Nat) (beats : List Nat) (t : Nat) : Prop :=
  ∃ a ∈ since :: beats, t = a + rule.span ∧ ∀ b ∈ beats, ¬(a < b ∧ b < t)

/-- **The first time** that a span has passed. -/
structure FirstExpiry (rule : HeartbeatRule) (since : Nat) (beats : List Nat) (t : Nat) : Prop where
  expires : rule.Expires since beats t
  first : ∀ t', rule.Expires since beats t' → t ≤ t'

/-- **No heartbeat falls on the end of an interval** that began with the one before. -/
def Offbeat (rule : HeartbeatRule) (since : Nat) (beats : List Nat) : Prop :=
  (since :: beats).IsChain fun a b => ∀ k, 1 ≤ k → b ≠ a + k * rule.interval

theorem one_le_limit (rule : HeartbeatRule) : 1 ≤ rule.limit := Nat.le_max_left ..

theorem few_start (rule : HeartbeatRule) (now : Nat) :
    (HeartbeatWatch.start rule now).misses + 1 ≤ rule.limit := by
  simpa [HeartbeatWatch.start] using rule.one_le_limit

/-- A watch that counts a miss and goes on does not count too many. -/
theorem few_of_miss? (h : w.miss? rule = some w') :
    w'.misses + 1 ≤ rule.limit ∧ w' = ⟨w.misses + 1, w.due + rule.interval⟩ := by
  unfold HeartbeatWatch.miss? at h
  split at h
  · cases h
  · rename_i hlt
    cases h
    exact ⟨Nat.le_trans (Nat.not_le.mp hlt) (Nat.le_max_right ..), rfl⟩

/-- With a heartbeat more no span has passed that had not, but those that begin with it. -/
theorem Expires.of_append (h : rule.Expires since (beats ++ [now]) t) :
    rule.Expires since beats t ∨ t = now + rule.span := by
  obtain ⟨a, ha, ht, hnone⟩ := h
  have hbefore : ∀ b ∈ beats, ¬(a < b ∧ b < t) := fun b hb =>
    hnone b (List.mem_append_left _ hb)
  rw [← List.cons_append, List.mem_append, List.mem_singleton] at ha
  rcases ha with ha | rfl
  · exact .inl ⟨a, ha, ht, hbefore⟩
  · exact .inr ht

/-- A heartbeat that comes later makes up for nothing. -/
theorem Expires.append (h : rule.Expires since beats t) (hnow : t ≤ now) :
    rule.Expires since (beats ++ [now]) t := by
  obtain ⟨a, ha, ht, hnone⟩ := h
  refine ⟨a, List.mem_append_left [now] ha, ht, fun b hb => ?_⟩
  rcases List.mem_append.mp hb with hb | hb
  · exact hnone b hb
  · rw [List.mem_singleton.mp hb]
    exact fun hlt => Nat.not_lt.mpr hnow hlt.2

theorem Offbeat.of_append (h : rule.Offbeat since (beats ++ [now])) : rule.Offbeat since beats := by
  have happend : ((since :: beats) ++ [now]).IsChain _ := h
  exact happend.left_of_append

/-! ## What a watch keeps to -/

/-- **A watch that goes on.**  The last heartbeat waits to be noted and was now, or the current
interval ends so many intervals after it as there were misses, and one; all that was before is
followed by a heartbeat within a span. -/
structure Follows (rule : HeartbeatRule) (since : Nat) (beats : List Nat) (now : Nat)
    (noted : Bool) (w : HeartbeatWatch) (last : Nat) : Prop where
  few : w.misses + 1 ≤ rule.limit
  newest : (since :: beats).getLast? = some last
  past : last ≤ now
  latest : ∀ a ∈ since :: beats, a ≤ last
  followed : ∀ a ∈ since :: beats, a = last ∨ ∃ b ∈ beats, a < b ∧ b < a + rule.span
  waits : noted = true → last = now
  counts : noted = false → w.due = last + (w.misses + 1) * rule.interval ∧ now ≤ w.due

/-- A watch that begins. -/
theorem follows_start (rule : HeartbeatRule) (now : Nat) (noted : Bool) :
    rule.Follows now [] now noted (.start rule now) now where
  few := rule.few_start now
  newest := rfl
  past := Nat.le_refl _
  latest a ha := Nat.le_of_eq (List.mem_singleton.mp ha)
  followed a ha := .inl (List.mem_singleton.mp ha)
  waits _ := rfl
  counts _ := by simp [HeartbeatWatch.start]

namespace Follows

/-- As long as the watch goes on, just the last heartbeat can be followed by none. -/
theorem eq_of_expires (h : rule.Follows since beats now noted w last)
    (ht : rule.Expires since beats t) : t = last + rule.span := by
  obtain ⟨a, ha, rfl, hnone⟩ := ht
  rcases h.followed a ha with rfl | ⟨b, hb, hlt⟩
  · rfl
  · exact absurd hlt (hnone b hb)

/-- The misses that were counted make up less than a span, and the current interval no more. -/
theorem due_le (h : rule.Follows since beats now false w last) : w.due ≤ last + rule.span := by
  rw [(h.counts rfl).1]
  exact Nat.add_le_add_left (Nat.mul_le_mul_right _ h.few) _

theorem now_le (h : rule.Follows since beats now noted w last) : now ≤ last + rule.span := by
  cases noted with
  | true => exact h.waits rfl ▸ Nat.le_add_right ..
  | false => exact Nat.le_trans (h.counts rfl).2 h.due_le

/-- **A heartbeat** comes within a span of the last. -/
theorem beat (h : rule.Follows since beats now noted w last)
    (hoffbeat : rule.Offbeat since (beats ++ [now])) :
    rule.Follows since (beats ++ [now]) now true w now where
  few := h.few
  newest := by rw [← List.cons_append, List.getLast?_concat]
  past := Nat.le_refl _
  latest a ha := by
    rw [← List.cons_append, List.mem_append, List.mem_singleton] at ha
    rcases ha with ha | rfl
    · exact Nat.le_trans (h.latest a ha) h.past
    · exact Nat.le_refl _
  followed a ha := by
    rw [← List.cons_append, List.mem_append, List.mem_singleton] at ha
    rcases ha with ha | rfl
    swap
    · exact .inl rfl
    rcases h.followed a ha with rfl | ⟨b, hb, hlt⟩
    swap
    · exact .inr ⟨b, List.mem_append_left _ hb, hlt⟩
    rcases Nat.lt_or_eq_of_le h.past with hlt | heq
    swap
    · exact .inl heq
    -- a span after the last heartbeat would be a whole number of intervals
    have happend : ((since :: beats) ++ [now]).IsChain _ := hoffbeat
    have hne : now ≠ a + rule.span :=
      (List.isChain_append.mp happend).2.2 a h.newest now rfl rule.limit rule.one_le_limit
    exact .inr ⟨now, List.mem_append_right _ List.mem_cons_self, hlt,
      Nat.lt_of_le_of_ne h.now_le hne⟩
  waits _ := rfl
  counts := nofun

/-- **A millisecond passes** that the watch had nothing to do in. -/
theorem tick (h : rule.Follows since beats now false w last) (hdue : now < w.due) :
    rule.Follows since beats (now + 1) false w last :=
  { h with
    past := Nat.le_succ_of_le h.past
    waits := nofun
    counts := fun _ => ⟨(h.counts rfl).1, hdue⟩ }

/-- **The watch begins over** with the heartbeat that was noted. -/
theorem restart (h : rule.Follows since beats now true w last) :
    rule.Follows since beats now false (.start rule now) last :=
  { h with
    few := rule.few_start now
    waits := nofun
    counts := fun _ => by simp [HeartbeatWatch.start, h.waits rfl] }

/-- **The watch counts a miss** and goes on. -/
theorem miss (h : rule.Follows since beats now false w last) (hmiss : w.miss? rule = some w') :
    rule.Follows since beats now false w' last := by
  obtain ⟨hfew, rfl⟩ := few_of_miss? hmiss
  obtain ⟨hdue, hnow⟩ := h.counts rfl
  refine { h with few := hfew, waits := nofun, counts := fun _ => ⟨?_, ?_⟩ }
  · show w.due + rule.interval = last + (w.misses + 1 + 1) * rule.interval
    rw [hdue, Nat.succ_mul (w.misses + 1), Nat.add_assoc]
  · exact Nat.le_add_right_of_le hnow

/-- **There were too many misses** just when a span has passed since the last heartbeat. -/
theorem eq_of_too_many (h : rule.Follows since beats now false w last)
    (hmiss : w.miss? rule = none) : w.due = last + rule.span := by
  have hlimit : rule.limit ≤ w.misses + 1 := by
    unfold HeartbeatWatch.miss? at hmiss
    split at hmiss
    · rename_i hle
      exact Nat.max_le.mpr ⟨Nat.le_add_left .., hle⟩
    · cases hmiss
  rw [(h.counts rfl).1, Nat.le_antisymm h.few hlimit]
  rfl

/-- A span has passed since the last heartbeat. -/
theorem expires (h : rule.Follows since beats now noted w last) :
    rule.Expires since beats (last + rule.span) := by
  refine ⟨last, List.mem_of_getLast? h.newest, rfl, fun b hb hlt => ?_⟩
  exact Nat.not_lt.mpr (h.latest b (List.mem_cons_of_mem _ hb)) hlt.1

end Follows

end HeartbeatRule

namespace HeartbeatWatch

variable {rule : HeartbeatRule} {since now last : Nat} {beats : List Nat} {w w' : HeartbeatWatch}

theorem pass_of_lt (h : now < w.due) : w.pass rule now = .ok w := by
  rw [pass, if_pos h]

/-- A watch that goes on has time left. -/
theorem lt_of_pass (h : w.pass rule now = .ok w') : now < w'.due := by
  fun_induction pass rule now w with
  | case1 w hlt =>
    cases h
    exact hlt
  | case2 => cases h
  | case3 w _ _ _ _ ih => exact ih h

/-- The current interval is over, and there were too many misses. -/
theorem pass_of_none (hdue : ¬now < w.due) (h : w.miss? rule = none) :
    w.pass rule now = .error w.due := by
  rw [pass, if_neg hdue]
  split
  · rfl
  · rename_i hmiss
    cases hmiss.symm.trans h

/-- The current interval is over, and the next begins. -/
theorem pass_of_some (hdue : ¬now < w.due) (h : w.miss? rule = some w') :
    w.pass rule now = w'.pass rule now := by
  rw [pass, if_neg hdue]
  split <;> rename_i hmiss
  · cases hmiss.symm.trans h
  · cases hmiss.symm.trans h
    rfl

/-- A watch never counts more misses than it takes. -/
theorem few_of_pass (h : w.pass rule now = .ok w') (hfew : w.misses + 1 ≤ rule.limit) :
    w'.misses + 1 ≤ rule.limit := by
  fun_induction pass rule now w with
  | case1 w hlt =>
    cases h
    exact hfew
  | case2 => cases h
  | case3 w _ w₁ hmiss _ ih => exact ih h (HeartbeatRule.few_of_miss? hmiss).1

/-- **A look without a heartbeat**: the watch goes on, or a span has passed. -/
theorem pass_of_follows (h : rule.Follows since beats now false w last)
    (hinterval : 0 < rule.interval) :
    (∃ w', w.pass rule now = .ok w' ∧ rule.Follows since beats now false w' last) ∨
      (∃ t, w.pass rule now = .error t) ∧ rule.Expires since beats now := by
  rcases Nat.lt_or_eq_of_le (h.counts rfl).2 with hlt | heq
  · exact .inl ⟨w, pass_of_lt hlt, h⟩
  have hdue : ¬now < w.due := heq ▸ Nat.lt_irrefl _
  cases hmiss : w.miss? rule with
  | none =>
    refine .inr ⟨⟨w.due, pass_of_none hdue hmiss⟩, ?_⟩
    rw [heq, h.eq_of_too_many hmiss]
    exact h.expires
  | some w' =>
    refine .inl ⟨w', (pass_of_some hdue hmiss).trans (pass_of_lt ?_), h.miss hmiss⟩
    obtain ⟨-, rfl⟩ := HeartbeatRule.few_of_miss? hmiss
    exact heq ▸ Nat.lt_add_of_pos_right hinterval

end HeartbeatWatch

/-! ## Looks -/

namespace Line

variable {l : Line} {x : Exchange} {rule : HeartbeatRule} {w : HeartbeatWatch}

/-- A watch over a closed connection ends without effect. -/
theorem watchHeartbeat_of_closed (hrule : x.plan.heartbeat = some rule) (l : Line)
    (h : (x.connection l.place).closed = true) :
    l.watchHeartbeat x = ({ l with heartbeat := none }, x) := by
  unfold watchHeartbeat
  split
  · exact if_pos (show l.isClosed x = true from h)
  · rename_i hnone
    have hheartbeat : l.heartbeat = none :=
      Option.eq_none_iff_forall_ne_some.mpr fun w hw => hnone w rule hw hrule
    rw [← hheartbeat]

/-- Does the watch for heartbeats count no more misses than it takes? -/
def CountsFew (rule : HeartbeatRule) (l : Line) : Prop :=
  ∀ w, l.heartbeat = some w → w.misses + 1 ≤ rule.limit

theorem CountsFew.watchHeartbeat (h : l.CountsFew rule) (hrule : x.plan.heartbeat = some rule) :
    (l.watchHeartbeat x).1.CountsFew rule := by
  unfold Line.watchHeartbeat
  split
  · rename_i w rule' hwatch hrule'
    obtain rfl := Option.some.inj (hrule'.symm.trans hrule)
    split
    · exact nofun
    split
    · rintro w' hw'
      cases hw'
      exact HeartbeatRule.few_start ..
    split
    · rename_i hpass
      rintro w' hw'
      cases hw'
      exact HeartbeatWatch.few_of_pass hpass (h w hwatch)
    · exact nofun
  · exact h

/-- **What a look for heartbeats comes to** while the connection is open. -/
inductive Hears (rule : HeartbeatRule) (w : HeartbeatWatch) (l : Line) (x : Exchange) :
    Line × Exchange → Prop where
  /-- A heartbeat is noted. -/
  | notes (h : (x.hub.mark l.place).heartbeat = true) :
    Hears rule w l x ({ l with heartbeat := some (.start rule x.clock) },
      x.withHub (x.hub.modify l.place fun c => { c with heartbeat := false }))
  /-- The watch goes on. -/
  | passes {w' : HeartbeatWatch} (h : (x.hub.mark l.place).heartbeat = false)
    (hpass : w.pass rule x.clock = .ok w') :
    Hears rule w l x ({ l with heartbeat := some w' }, x)
  /-- The connection is given up. -/
  | givesUp {t : Nat} (h : (x.hub.mark l.place).heartbeat = false)
    (hpass : w.pass rule x.clock = .error t) :
    Hears rule w l x ({ l with heartbeat := none }, x.close l.place)

theorem hears_watchHeartbeat (hwatch : l.heartbeat = some w) (hrule : x.plan.heartbeat = some rule)
    (hopen : (x.connection l.place).closed = false) : Hears rule w l x (l.watchHeartbeat x) := by
  have hopen : ¬l.isClosed x = true := Bool.eq_false_iff.mp hopen
  unfold watchHeartbeat
  rw [hwatch, hrule]
  dsimp only
  rw [if_neg hopen]
  split
  · exact .notes ‹_›
  · rename_i hnoted
    rw [Bool.not_eq_true] at hnoted
    split
    · exact .passes hnoted ‹_›
    · exact .givesUp hnoted ‹_›

/-- The mark of a heartbeat that was noted is gone. -/
theorem mark_noted {c : Place} (hc : c < x.hub.connections.length) :
    ((x.withHub (x.hub.modify c fun conn => { conn with heartbeat := false })).hub.mark
      c).heartbeat = false := by
  show ((x.hub.modify c _).connection c).heartbeat = false
  rw [Hub.connection_modify, if_pos ⟨rfl, hc⟩]

theorem closed_noted (x : Exchange) (c : Place) :
    ((x.withHub (x.hub.modify c fun conn => { conn with heartbeat := false })).connection
      c).closed = (x.connection c).closed :=
  Hub.field_modify Connection.closed (f := fun conn => { conn with heartbeat := false })
    (fun _ => rfl) x.hub c c

theorem watchHeartbeat_of_none (h : l.heartbeat = none) : l.watchHeartbeat x = (l, x) := by
  rw [watchHeartbeat, h]

/-- A watch that has noted every heartbeat and has time left does nothing. -/
theorem watchHeartbeat_of_lt (hwatch : l.heartbeat = some w) (hopen : l.isClosed x = false)
    (hnoted : (x.hub.mark l.place).heartbeat = false) (hdue : x.clock < w.due) :
    l.watchHeartbeat x = (l, x) := by
  have hnoted : (x.connection l.place).heartbeat = false := hnoted
  unfold watchHeartbeat
  rw [hwatch]
  split
  · rename_i heq _
    rw [hopen, hnoted, ← Option.some.inj heq, HeartbeatWatch.pass_of_lt hdue]
    simp [← hwatch]
  · rfl

/-- **A watch that has just looked has nothing to do.** -/
theorem watchHeartbeat_again (hs : l.Sits x) (hrule : x.plan.heartbeat = some rule)
    (hinterval : 0 < rule.interval) :
    (l.watchHeartbeat x).1.watchHeartbeat (l.watchHeartbeat x).2 = l.watchHeartbeat x := by
  cases hwatch : l.heartbeat with
  | none => rw [watchHeartbeat_of_none hwatch, watchHeartbeat_of_none hwatch]
  | some w =>
    cases hopen : (x.connection l.place).closed with
    | true =>
      have hended : l.watchHeartbeat x = ({ l with heartbeat := none }, x) := by
        rw [watchHeartbeat, hwatch, hrule]
        exact if_pos hopen
      rw [hended]
      exact watchHeartbeat_of_none rfl
    | false =>
      have hhears := hears_watchHeartbeat hwatch hrule hopen
      generalize l.watchHeartbeat x = r at hhears
      cases hhears with
      | notes hnoted =>
        exact watchHeartbeat_of_lt rfl ((closed_noted x l.place).trans hopen)
          (mark_noted hs.place) (Nat.lt_add_of_pos_right hinterval)
      | passes hnoted hpass =>
        exact watchHeartbeat_of_lt rfl hopen hnoted (HeartbeatWatch.lt_of_pass hpass)
      | givesUp => exact watchHeartbeat_of_none rfl

end Line

namespace Service.Guard

variable {g : Guard} {v : Vigil} {e : Incident} {rule : HeartbeatRule} {w : HeartbeatWatch}
  {last t : Nat} {l l' : Line}

/-! ## The duty of the watch -/

/-- **The watch keeps time**: it follows the heartbeats, and what is due is that a span has passed
without one. -/
def timekeeping (g : Guard) (rule : HeartbeatRule) : Duty where
  awake v l := ∃ w last, l.heartbeat = some w ∧ rule.Follows g.since v.beats
    v.service.exchange.clock (v.service.exchange.hub.mark g.place).heartbeat w last
  due v t := rule.Expires g.since v.beats t

/-- What has expired had expired, or is still to come. -/
theorem expires_next (h : rule.Expires g.since (g.next v e).beats t) :
    rule.Expires g.since v.beats t ∨ v.service.exchange.clock ≤ t := by
  rcases beats_next g v e with ⟨-, hsame⟩ | ⟨-, happend⟩
  · exact .inl (hsame ▸ h)
  · rw [happend] at h
    rcases h.of_append with hbefore | rfl
    · exact .inl hbefore
    · exact .inr (Nat.le_add_right ..)

theorem expires_kept (h : rule.Expires g.since v.beats t) (ht : t ≤ v.service.exchange.clock) :
    rule.Expires g.since (g.next v e).beats t := by
  rcases beats_next g v e with ⟨-, hsame⟩ | ⟨-, happend⟩
  · exact hsame ▸ h
  · exact happend ▸ h.append ht

theorem offbeat_next (h : rule.Offbeat g.since (g.next v e).beats) :
    rule.Offbeat g.since v.beats := by
  rcases beats_next g v e with ⟨-, hsame⟩ | ⟨-, happend⟩
  · exact hsame ▸ h
  · rw [happend] at h
    exact h.of_append

/-- **A watch with nothing to do** has noted every heartbeat and has time left. -/
theorem Sound.of_rests (h : g.Sound v) (hwatcher : g.watcher = .heartbeat)
    (hrule : g.plan.heartbeat = some rule) (hopen : g.isOpen v.service = true)
    (hline : v.service.lines[g.line]? = some l) (hwatch : l.heartbeat = some w)
    (hrests : g.Rests v) :
    (v.service.exchange.hub.mark g.place).heartbeat = false ∧
      v.service.exchange.clock < w.due := by
  have hlook := hrests l hline
  rw [hwatcher] at hlook
  have hplace := h.place_eq hline
  have hlooks := Line.hears_watchHeartbeat hwatch (h.plan ▸ hrule)
    (by rw [h.closed_eq hline, hopen, Bool.not_true])
  generalize hr : l.watchHeartbeat v.service.exchange = r at hlooks
  have hsame : r = (l, v.service.exchange) := hr.symm.trans hlook
  cases hlooks with
  | notes hnoted =>
    have hgone := Line.mark_noted (h.spread.seated _ l hline).place
    rw [(Prod.mk.inj hsame).2, hnoted] at hgone
    cases hgone
  | passes hnoted hpass =>
    have hwatch' := (congrArg Line.heartbeat (Prod.mk.inj hsame).1).trans hwatch
    obtain rfl := Option.some.inj hwatch'
    exact ⟨hplace ▸ hnoted, HeartbeatWatch.lt_of_pass hpass⟩
  | givesUp hnoted hpass =>
    exact nomatch (congrArg Line.heartbeat (Prod.mk.inj hsame).1).trans hwatch

/-- Time can pass after a look. -/
theorem Sound.rests_next_heartbeat (hs : g.Sound v) (hwatcher : g.watcher = .heartbeat)
    (hrule : g.plan.heartbeat = some rule) (hinterval : 0 < rule.interval) :
    g.Rests (g.next v (.looks g.line .heartbeat)) := by
  obtain ⟨l, hl, -⟩ := hs.line
  refine rests_next hl hwatcher ?_
  exact Line.watchHeartbeat_again (hs.spread.seated _ l hl) (hs.plan ▸ hrule) hinterval

/-- **A look**: the watch begins over, goes on, or gives the connection up because a span has
passed. -/
theorem timekeeping_look (hs : g.Sound v) (hrule : g.plan.heartbeat = some rule)
    (hinterval : 0 < rule.interval) (he : e = .looks g.line .heartbeat)
    (hopen : g.isOpen v.service = true) (hl : v.service.lines[g.line]? = some l)
    (hawake : (timekeeping g rule).awake v l) :
    ∃ l', (v.service.meet e).lines[g.line]? = some l' ∧
      (g.isOpen (v.service.meet e) = true ∧ (timekeeping g rule).awake (g.next v e) l' ∨
        g.isOpen (v.service.meet e) = false ∧
          rule.Expires g.since v.beats v.service.exchange.clock) := by
  have hplace := hs.place_eq hl
  have hline := he ▸ lines_meet_looks hl .heartbeat
  have hexchange := he ▸ exchange_meet_looks hl .heartbeat
  have hclock : (v.service.meet e).exchange.clock = v.service.exchange.clock :=
    he ▸ clock_meet v.service e
  have hbeats : (g.next v e).beats = v.beats := by rw [he]; rfl
  have hsits := hs.spread.seated _ l hl
  have hclosed := hs.closed_eq hl
  rw [hopen] at hclosed
  obtain ⟨w, last, hwatch, hfollows⟩ := hawake
  rw [← hplace] at hfollows
  have hlooks : Line.Hears rule w l v.service.exchange
      (Watcher.look .heartbeat l v.service.exchange) :=
    Line.hears_watchHeartbeat hwatch (hs.plan ▸ hrule) hclosed
  refine ⟨_, hline, ?_⟩
  generalize Watcher.look .heartbeat l v.service.exchange = r at hexchange hlooks
  cases hlooks with
  | notes hnoted =>
    have hmark : ((v.service.meet e).exchange.hub.mark g.place).heartbeat = false := by
      rw [hexchange, ← hplace]
      exact Line.mark_noted hsits.place
    refine .inl ⟨?_, .start rule v.service.exchange.clock, last, rfl, ?_⟩
    · rw [isOpen, hexchange, ← hplace, Line.closed_noted, hclosed]
      rfl
    · show rule.Follows g.since _ (v.service.meet e).exchange.clock _ _ _
      rw [hbeats, hclock]
      exact hmark ▸ (hnoted ▸ hfollows).restart
  | passes hnoted hpass =>
    rcases HeartbeatWatch.pass_of_follows (hnoted ▸ hfollows) hinterval with
      ⟨w', hgoes, hnext⟩ | ⟨⟨t, herror⟩, -⟩
    · cases hgoes.symm.trans hpass
      refine .inl ⟨by rwa [isOpen, hexchange, ← isOpen], _, last, rfl, ?_⟩
      show rule.Follows g.since _ (v.service.meet e).exchange.clock
        ((v.service.meet e).exchange.hub.mark g.place).heartbeat _ _
      rw [hbeats, hclock, hexchange, ← hplace, hnoted]
      exact hnext
    · cases herror.symm.trans hpass
  | givesUp hnoted hpass =>
    rcases HeartbeatWatch.pass_of_follows (hnoted ▸ hfollows) hinterval with
      ⟨w', hgoes, -⟩ | ⟨-, hexpires⟩
    · cases hgoes.symm.trans hpass
    · refine .inr ⟨?_, hexpires⟩
      rw [isOpen, hexchange, ← hplace, Line.closed_close hsits]
      rfl

/-- **A watch that is let alone** follows what it is told. -/
theorem timekeeping_next {noted : Bool} (h : rule.Follows g.since v.beats v.service.exchange.clock
      (v.service.exchange.hub.mark g.place).heartbeat w last)
    (hoffbeat : rule.Offbeat g.since (g.next v e).beats)
    (hsees : noted = ((v.service.exchange.hub.mark g.place).after (e.tidings? g.place)).heartbeat)
    (hprompt : e.elapsed ≠ 0 → (v.service.exchange.hub.mark g.place).heartbeat = false ∧
      v.service.exchange.clock < w.due) :
    ∃ last, rule.Follows g.since (g.next v e).beats (v.service.meet e).exchange.clock noted w
      last := by
  rw [clock_meet, hsees]
  rcases beats_next g v e with ⟨hnone, hsame⟩ | ⟨htold, happend⟩
  · rw [hsame]
    rw [Mark.heartbeat_after hnone]
    by_cases helapsed : e.elapsed = 0
    · exact ⟨last, helapsed ▸ h⟩
    · obtain ⟨hnoted, hdue⟩ := hprompt helapsed
      rw [hnoted] at h ⊢
      exact ⟨last, Incident.elapsed_eq_one helapsed ▸ h.tick hdue⟩
  · rw [happend] at hoffbeat ⊢
    rw [htold, Incident.elapsed_of_tidings htold]
    exact ⟨_, h.beat hoffbeat⟩

/-- **Timekeeping stands every incident.** -/
theorem obeys_timekeeping (hs : g.Sound v) (hwatcher : g.watcher = .heartbeat)
    (hrule : g.plan.heartbeat = some rule) (hinterval : 0 < rule.interval)
    (hoffbeat : rule.Offbeat g.since (g.next v e).beats) (hwatch : e.isWatch g.line = false)
    (hprompt : e.elapsed ≠ 0 → g.Rests v) : g.Obeys (timekeeping g rule) v e where
  kept t ht hle := expires_kept ht hle
  back t ht := expires_next ht
  past l t hawake ht := by
    obtain ⟨w, last, -, hfollows⟩ := hawake
    exact hfollows.eq_of_expires ht ▸ hfollows.now_le
  look hlook hopen l hl hawake := by
    rw [hwatcher] at hlook
    exact timekeeping_look hs hrule hinterval (Incident.eq_of_isLook hlook) hopen hl hawake
  lets hlook hopen' l l' hl hl' hawake := by
    rw [hwatcher] at hlook
    obtain ⟨w, last, hw, hfollows⟩ := hawake
    have hlets := lets_heartbeat hs.spread hl (hs.greeted hl) hwatch hlook hl'
    have hopen := hs.open_of_meet hopen'
    obtain ⟨hsame, hsees⟩ := hs.sees_of_lets hl hlets hopen'
    obtain ⟨last', hnext⟩ := timekeeping_next hfollows hoffbeat hsees fun helapsed =>
      hs.of_rests hwatcher hrule hopen hl hw (hprompt helapsed)
    exact ⟨w, last', hsame.trans hw, hnext⟩

/-- A watch that is awake and has nothing to do is not past what is due. -/
theorem not_reached_of_expires (hs : g.Sound v) (hwatcher : g.watcher = .heartbeat)
    (hrule : g.plan.heartbeat = some rule) (hopen : g.isOpen v.service = true)
    (hl : v.service.lines[g.line]? = some l) (hawake : (timekeeping g rule).awake v l)
    (ht : rule.Expires g.since v.beats t) : ¬g.Reached v t := by
  obtain ⟨w, last, hw, hfollows⟩ := hawake
  have hspan := hfollows.eq_of_expires ht
  rintro (hlt | ⟨heq, hrests⟩)
  · exact absurd (hspan ▸ hfollows.now_le) (Nat.not_le.mpr hlt)
  · obtain ⟨hnoted, hdue⟩ := hs.of_rests hwatcher hrule hopen hl hw hrests
    exact absurd (Nat.lt_of_lt_of_le hdue (hnoted ▸ hfollows).due_le)
      (hspan ▸ heq ▸ Nat.lt_irrefl _)

/-- **It holds when the watch is set up.** -/
theorem keeps_timekeeping_start {s : Service} (hs : g.Sound (g.start s))
    (hrule : g.plan.heartbeat = some rule) (hplan : s.exchange.plan = g.plan)
    (hl : s.lines[g.line]? = some l) (hstage : l.stage = .accepted)
    (hclock : s.exchange.clock = g.since) : g.Keeps (timekeeping g rule) (g.start s) := by
  have hline := line_start hl hstage
  have hexchange := exchange_start hl hstage
  refine ⟨fun _ l' hl' => ?_, nofun, fun t t' ht ht' => ?_⟩
  · rw [Option.some.inj (hl'.symm.trans hline)]
    refine ⟨.start rule g.since, g.since, ?_, ?_⟩
    · show s.exchange.plan.heartbeat.map (HeartbeatWatch.start · s.exchange.clock) = _
      rw [hplan, hrule, hclock]
      rfl
    · rw [hexchange, hclock]
      exact HeartbeatRule.follows_start ..
  · have hsince : t ≤ g.since := hclock ▸ hexchange ▸ hs.lost t (ht.resolve_left nofun)
    obtain ⟨a, ha, rfl, -⟩ := ht'
    rw [List.mem_singleton.mp ha]
    exact Nat.le_add_right_of_le hsince

/-- Every watch for heartbeats keeps time. -/
theorem Course.keeps_timekeeping (h : g.Course v) (hwatcher : g.watcher = .heartbeat)
    (hrule : g.plan.heartbeat = some rule) (hinterval : 0 < rule.interval)
    (hoffbeat : rule.Offbeat g.since v.beats) : g.Keeps (timekeeping g rule) v := by
  induction h with
  | begins hline hstage hplace hclock =>
    have hsound := (Course.begins hline hstage hplace hclock).sound
    exact keeps_timekeeping_start hsound hrule (plan_run (seated_ofPlan _ _) _) hline hstage hclock
  | @goes v h e hwatch hprompt ih =>
    have hobeys :=
      obeys_timekeeping h.sound hwatcher hrule hinterval hoffbeat hwatch hprompt
    exact (ih (offbeat_next hoffbeat)).next h.sound hobeys

/-- The watch never counts more misses than it takes. -/
theorem Course.countsFew (h : g.Course v) (hrule : g.plan.heartbeat = some rule)
    (hl : v.service.lines[g.line]? = some l) : l.CountsFew rule := by
  induction h generalizing l with
  | @begins host moves l₀ hline hstage hplace hclock =>
    rw [Option.some.inj (hl.symm.trans (line_start hline hstage))]
    rintro w hw
    obtain ⟨rule', hrule', rfl⟩ := Option.map_eq_some_iff.mp hw
    rw [plan_run (seated_ofPlan _ _)] at hrule'
    obtain rfl := Option.some.inj (hrule'.symm.trans hrule)
    exact rule'.few_start _
  | @goes v h e hwatch hprompt ih =>
    obtain ⟨l₀, hl₀, -, hstage⟩ := h.sound.line
    have hfew := ih hl₀
    cases hlook : e.isLook g.line .heartbeat with
    | true =>
      obtain rfl := Incident.eq_of_isLook hlook
      rw [Option.some.inj (hl.symm.trans (lines_meet_looks hl₀ .heartbeat))]
      exact hfew.watchHeartbeat (h.sound.plan ▸ hrule)
    | false =>
      have hlets := lets_heartbeat h.sound.spread hl₀ hstage hwatch hlook hl
      rintro w hw
      rcases hlets.watch with hsame | ⟨hnone, -⟩
      · exact hfew w (hsame.symm.trans hw)
      · exact nomatch hnone.symm.trans hw

/-! ## What the watch comes to -/

/-- **What a watch for heartbeats comes to**, when heartbeats are noted at these times. -/
structure Timely (g : Guard) (rule : HeartbeatRule) (v : Vigil) : Prop where
  /-- The connection is closed just if the watch gave it up or it was closed otherwise. -/
  closed : g.isOpen v.service = false ↔ v.gaveUp.isSome ∨ v.lost.isSome
  /-- The watch gives it up at the first time that a span has passed, and at no other. -/
  first : ∀ t, v.gaveUp = some t → rule.FirstExpiry g.since v.beats t
  /-- It does so, unless the connection was closed otherwise. -/
  gives : ∀ t, rule.FirstExpiry g.since v.beats t → v.lost = none → g.Reached v t →
    v.gaveUp = some t
  /-- It does not as long as every span that has passed had a heartbeat in it. -/
  spared : (∀ a ∈ g.since :: v.beats, a + rule.span ≤ v.service.exchange.clock →
    ∃ b ∈ v.beats, a < b ∧ b < a + rule.span) → v.gaveUp = none
  /-- A connection closed otherwise was closed by that time, and is not given up any more: the
  watch has no effect, and its next look ends it. -/
  lost : ∀ t, v.lost = some t → v.gaveUp = none ∧
    (∀ t', rule.FirstExpiry g.since v.beats t' → t ≤ t') ∧
    ∀ l, v.service.lines[g.line]? = some l →
      l.watchHeartbeat v.service.exchange = ({ l with heartbeat := none }, v.service.exchange)
  /-- The count with one more miss is never above the limit. -/
  misses : ∀ l w, v.service.lines[g.line]? = some l → l.heartbeat = some w →
    w.misses + 1 ≤ max 1 rule.maxMisses

/-- **A watch for heartbeats keeps time**, whatever else happens to the service. -/
theorem timely_of_course (h : g.Course v) (hwatcher : g.watcher = .heartbeat)
    (hrule : g.plan.heartbeat = some rule) (hinterval : 0 < rule.interval)
    (hoffbeat : rule.Offbeat g.since v.beats) : g.Timely rule v := by
  have hs := h.sound
  have hk := h.keeps_timekeeping hwatcher hrule hinterval hoffbeat
  refine ⟨hs.closed, fun t ht => ⟨hk.gaveUp t ht, fun t' ht' => hk.intime t t' (.inl ht) ht'⟩,
    fun t ht hlost hreached => ?_, fun hfed => ?_,
    fun t ht => ⟨?_, fun t' ht' => hk.intime t t' (.inr ht) ht'.expires, fun l hl => ?_⟩,
    fun l w hl hw => h.countsFew hrule hl w hw⟩
  · refine hk.gives hs ?_ (fun t' ht' hle => ?_) ht.expires hlost hreached
    · exact fun l hopen hl hawake t => not_reached_of_expires hs hwatcher hrule hopen hl hawake
    · exact Nat.le_antisymm hle (ht.first t' ht')
  · refine Option.eq_none_iff_forall_ne_some.mpr fun t ht => ?_
    obtain ⟨a, ha, rfl, hnone⟩ := hk.gaveUp t ht
    obtain ⟨b, hb, hlt⟩ := hfed a ha (hs.gaveUp _ ht)
    exact hnone b hb hlt
  · exact hs.once.resolve_right fun hnone => nomatch hnone.symm.trans ht
  · have hclosed : g.isOpen v.service = false := hs.closed.mpr (.inr (ht ▸ rfl))
    refine l.watchHeartbeat_of_closed (hs.plan ▸ hrule) ?_
    rw [hs.closed_eq hl, hclosed]
    rfl

/-- A watch that has noted every heartbeat and has time left has nothing to do. -/
theorem rests_of_lt (hwatcher : g.watcher = .heartbeat)
    (h : ∃ l ∈ v.service.lines[g.line]?, ∃ w ∈ l.heartbeat,
      l.isClosed v.service.exchange = false ∧
        (v.service.exchange.hub.mark l.place).heartbeat = false ∧
        v.service.exchange.clock < w.due) : g.Rests v := by
  obtain ⟨l, hl, w, hw, hopen, hnoted, hdue⟩ := h
  intro l' hl'
  obtain rfl := Option.some.inj (hl'.symm.trans hl)
  rw [hwatcher]
  exact Line.watchHeartbeat_of_lt hw hopen hnoted hdue

/-- The watch notes a heartbeat, counts a miss and gives the connection up. -/
theorem timely_of_course_after_beat :
    let rule : HeartbeatRule := ⟨2, 1392, false, 2⟩
    let plan : Plan := ⟨.empty, .standard, some rule, none, .none⟩
    let g : Guard := ⟨.heartbeat, 0, 0, 0, plan⟩
    let s := (ofPlan plan (.fresh true)).run [.accepts .tcp "p", .welcomes 0]
    let beat : Incident := .moves (.handles (.ofBlock 0 [] []) .noteHeartbeat)
    let look : Incident := .looks 0 .heartbeat
    let tick : Incident := .moves .ticks
    let v := [tick, beat, look, tick, tick, look, tick, tick, look].foldl g.next (g.start s)
    g.Course v ∧ 0 < rule.interval ∧ rule.Offbeat g.since v.beats ∧ v.beats = [1] ∧
      v.gaveUp = some 5 ∧ g.Timely rule v := by
  intro rule plan g s beat look tick v
  have hstart : g.Course (g.start s) := .begins rfl rfl rfl rfl
  have hgoes : g.Goes (g.start s) [tick, beat, look, tick, tick, look, tick, tick, look] := by
    refine ⟨rfl, fun _ => rests_of_lt rfl ?_, rfl, rests_of_elapsed rfl,
      rfl, rests_of_elapsed rfl, rfl, fun _ => rests_of_lt rfl ?_,
      rfl, fun _ => rests_of_lt rfl ?_, rfl, rests_of_elapsed rfl,
      rfl, fun _ => rests_of_lt rfl ?_, rfl, fun _ => rests_of_lt rfl ?_,
      rfl, rests_of_elapsed rfl, trivial⟩
    all_goals decide +kernel
  have hcourse : g.Course v := hstart.foldl hgoes
  have hinterval : 0 < rule.interval := by decide
  have hbeats : v.beats = [1] := by decide +kernel
  have hoffbeat : rule.Offbeat g.since v.beats := by
    rw [hbeats]
    refine .cons_cons (fun k hk => ?_) (.singleton _)
    show 1 ≠ 0 + k * 2
    omega
  exact ⟨hcourse, hinterval, hoffbeat, hbeats, by decide +kernel,
    timely_of_course hcourse rfl rfl hinterval hoffbeat⟩

end Service.Guard

end Switchboard
