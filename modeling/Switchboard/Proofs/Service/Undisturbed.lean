import Switchboard.Proofs.Service.Elsewhere

/-!
# Proofs/Service/Undisturbed — a line that nobody else touches

Every line has a connection for itself, with a queue that no other connection has.  As long as
nobody is ever in a pool, only its own moves and the handlers of its own requests touch it
(`Service.Hosts`, `Service.Hosts.undisturbed`).
-/

namespace Switchboard

namespace Service

variable {s : Service} {move : Move} {o : Occurrence} {i j : Nat} {l : Line} {c : Place}

/-! ## The line of a move -/

/-- The line that a move is about. -/
def Move.line? : Move → Option Nat
  | .welcomes i | .equips i | .reads i | .watches i | .writes i | .leaves i | .departs i
  | .peers i _ => some i
  | _ => none

/-- The line that something is about. -/
def Occurrence.line? : Occurrence → Option Nat
  | .moves move => move.line?
  | _ => none

theorem getElem?_onLine_of_ne {f : Line → Exchange → Line × Exchange} (hi : s.lines[i]? = some l)
    (hne : j ≠ i) : (s.onLine j f).lines[i]? = some l := by
  cases hj : s.lines[j]? with
  | none => rw [onLine_of_none hj, hi]
  | some l₀ => rw [lines_onLine hj, List.getElem?_set_ne hne, hi]

/-- **Other moves** leave a line alone. -/
theorem getElem?_perform_of_ne (hi : s.lines[i]? = some l) (hne : move.line? ≠ some i) :
    (s.perform move).lines[i]? = some l := by
  have hother {j : Nat} (h : move.line? = some j) : j ≠ i := fun heq => hne (heq ▸ h)
  cases move with
  | accepts network peer =>
    exact (List.getElem?_append_left (List.getElem?_eq_some_iff.mp hi).1).trans hi
  | welcomes j | equips j | reads j | watches j | writes j | leaves j | departs j =>
    exact getElem?_onLine_of_ne hi (hother rfl)
  | peers j f =>
    show (s.lines.modify j _)[i]? = _
    rw [List.getElem?_modify, hi, Option.map_eq_map, Option.map_some, if_neg (hother rfl)]
  | stops closeAll =>
    show (s.stop closeAll).2.lines[i]? = some l
    rw [lines_stop, hi]
  | receives | handles | closes | ticks | becomes => exact hi

/-- Nobody takes a pool away or brings one in. -/
theorem pool_perform (hs : s.Seated) (move : Move) :
    (s.perform move).exchange.hub.pool.isSome = s.exchange.hub.pool.isSome := by
  generalize hx : (s.perform move).exchange = x
  have h : Happens s move x := hx ▸ happens_perform hs move
  cases h with
  | steady _ h => rw [h.online.pool]
  | joins _ h => rw [h.pool]
  | signals => rfl
  | calls => exact (Hub.samePlaces_perform _ _).pool

/-! ## Queues -/

/-- **Every connection has a queue**, and nobody is in a pool. -/
structure Housed (s : Service) : Prop where
  placed : s.Placed
  queues : ∀ d < s.exchange.hub.connections.length,
    (s.exchange.connection d).queue < s.exchange.hub.queues.length
  nobody : s.exchange.hub.pool = none

/-- Without a pool nobody is online. -/
theorem not_isOnline {hub : Hub} (h : hub.pool = none) (d : Place) : ¬hub.IsOnline d := by
  rintro ⟨user, hd⟩
  rw [Hub.onlineAt, h] at hd
  cases hd

/-- Without a pool nobody comes to be in one. -/
theorem pool_perform_of_none (hs : s.Seated) (h : s.exchange.hub.pool = none) (move : Move) :
    (s.perform move).exchange.hub.pool = none := by
  have hsome := pool_perform hs move
  rw [h] at hsome
  exact Option.isNone_iff_eq_none.mp (Option.isSome_eq_false_iff.mp hsome)

/-- A move keeps everybody's queue; a datagram must arrive where there is one. -/
theorem Housed.perform (h : s.Housed)
    (hmove : ∀ network queue peer received, move = .receives network queue peer received →
      queue < s.exchange.hub.queues.length) : (s.perform move).Housed where
  placed := h.placed.perform move
  nobody := pool_perform_of_none h.placed.seated h.nobody move
  queues d hd := by
    rw [Exchange.connection]
    cases s.alters_perform move with
    | touches honly =>
      rw [(Connection.sameMake_of_made (honly.made d)).queue, honly.queues]
      exact h.queues d (honly.length ▸ hd)
    | accepts _ hconnections hqueues =>
      rw [hqueues, List.length_append]
      rcases Hub.connection_of_concat hconnections hd with ⟨hlt, hsame⟩ | ⟨-, hnew⟩
      · rw [hsame]
        exact Nat.lt_succ_of_lt (h.queues d hlt)
      · rw [hnew]
        exact Nat.lt_succ_self _
    | receives hreceives hconnections hqueues =>
      rw [hqueues]
      rcases Hub.connection_of_concat hconnections hd with ⟨hlt, hsame⟩ | ⟨-, hnew⟩
      · rw [hsame]
        exact h.queues d hlt
      · rw [hnew]
        exact hmove _ _ _ _ hreceives

theorem Housed.of_keeps {s' : Service} (h : s.Housed) (hlines : s'.lines = s.lines)
    (hk : Keeps s.exchange s'.exchange) : s'.Housed where
  placed := h.placed.of_keeps hlines hk
  nobody := hk.pool.trans h.nobody
  queues d hd := by
    rw [(Connection.sameMake_of_made (hk.made d)).queue]
    exact Nat.lt_of_lt_of_le (h.queues d (hk.length ▸ hd)) hk.queues

theorem Housed.occur (h : s.Housed) (o : Occurrence) : (s.occur o).Housed := by
  unfold Service.occur
  split
  case isFalse => exact h
  case isTrue hcan =>
    cases o with
    | moves move =>
      refine h.perform ?_
      rintro network queue peer received rfl
      exact of_decide_eq_true hcan
    | binds => exact h.of_keeps rfl (keeps_addQueue s.exchange)
    | changes queue f => exact h.of_keeps rfl (keeps_modifyQueue s.exchange queue f)

/-- **Line `i` has the connection at a place for itself**, and the connection its queue. -/
structure Hosts (i : Nat) (c : Place) (s : Service) : Prop extends Housed s where
  lines : ∀ (j : Nat) (l : Line), s.lines[j]? = some l → (l.place = c ↔ j = i)
  here : i < s.lines.length
  place : c < s.exchange.hub.connections.length
  alone : ∀ d < s.exchange.hub.connections.length, d ≠ c →
    (s.exchange.connection d).queue ≠ (s.exchange.connection c).queue

/-- A stream that was just accepted. -/
theorem hosts_accept (h : s.Housed) (network : Network) (peer : String) :
    (s.accept network peer).2.Hosts s.lines.length s.exchange.hub.connections.length := by
  have hconnections : (s.accept network peer).2.exchange.hub.connections =
      s.exchange.hub.connections ++ [_] := rfl
  have hlength := congrArg List.length hconnections
  rw [List.length_append, List.length_singleton] at hlength
  have hnew : (s.accept network peer).2.exchange.connection s.exchange.hub.connections.length = _ :=
    ((Hub.connection_of_concat hconnections (hlength ▸ Nat.lt_succ_self _)).resolve_left
      fun h => Nat.lt_irrefl _ h.1).2
  have hhoused : (s.perform (.accepts network peer)).Housed := h.perform nofun
  refine
    { toHoused := hhoused
      lines := fun j l hj => ?_
      here := ?_
      place := hlength ▸ Nat.lt_succ_self _
      alone := fun d hd hne => ?_ }
  · have hj : (s.lines ++ [(Line.accept network peer s.exchange).1])[j]? = some l := hj
    rcases Nat.lt_trichotomy j s.lines.length with hlt | rfl | hgt
    · rw [List.getElem?_append_left hlt] at hj
      exact iff_of_false (Nat.ne_of_lt (h.placed.seated j l hj).place) (Nat.ne_of_lt hlt)
    · rw [List.getElem?_concat_length] at hj
      rw [← Option.some.inj hj]
      exact iff_of_true (Line.place_accept ..) rfl
    · rw [List.getElem?_eq_none (by rw [List.length_append]; exact hgt)] at hj
      exact nomatch hj
  · show _ < (s.lines ++ [_]).length
    rw [List.length_append]
    exact Nat.lt_succ_self _
  · rw [hnew]
    rcases Hub.connection_of_concat hconnections hd with ⟨hlt, hsame⟩ | ⟨heq, -⟩
    · rw [Exchange.connection, hsame]
      exact Nat.ne_of_lt (h.queues d hlt)
    · exact absurd heq hne

/-- **Every move keeps it** but a datagram that arrives at the queue. -/
theorem Hosts.perform (h : s.Hosts i c)
    (hmove : ∀ network queue peer received, move = .receives network queue peer received →
      queue < s.exchange.hub.queues.length ∧ queue ≠ (s.exchange.connection c).queue) :
    (s.perform move).Hosts i c := by
  have hgrows := s.grows_perform move
  have hmake := Connection.sameMake_of_made (hgrows.made c h.place)
  obtain ⟨l₀, hl₀⟩ : ∃ l₀, s.lines[i]? = some l₀ := ⟨_, List.getElem?_eq_getElem h.here⟩
  obtain ⟨l₁, hl₁, hgoes₁⟩ := goes_perform h.placed.seated hl₀ move
  have hplace₁ : l₁.place = c := hgoes₁.place.trans ((h.lines i l₀ hl₀).mpr rfl)
  refine
    { toHoused := h.toHoused.perform fun network queue peer received hreceives =>
        (hmove network queue peer received hreceives).1
      lines := fun j l hj => ?_
      here := (List.getElem?_eq_some_iff.mp hl₁).1
      place := Nat.lt_of_lt_of_le h.place hgrows.length
      alone := fun d hd hne => ?_ }
  · rcases lines_perform h.placed.seated hj with ⟨l', hl', hgoes⟩ | ⟨network, peer, rfl, rfl⟩
    · rw [hgoes.place]
      exact h.lines j l' hl'
    · -- the new line has a new place, and line `i` its own
      have hne : (Line.accept network peer s.exchange).1.place ≠ c := by
        rw [Line.place_accept]
        exact Nat.ne_of_gt h.place
      refine iff_of_false hne fun heq => hne ?_
      rw [heq, hl₁] at hj
      rw [← Option.some.inj hj, hplace₁]
  · -- whoever joins with a queue brings a new one
    show ((s.perform move).exchange.hub.connection d).queue ≠
      ((s.perform move).exchange.hub.connection c).queue
    rw [hmake.queue]
    cases s.alters_perform move with
    | touches honly =>
      rw [(Connection.sameMake_of_made (honly.made d)).queue]
      exact h.alone d (honly.length ▸ hd) hne
    | accepts _ hconnections =>
      rcases Hub.connection_of_concat hconnections hd with ⟨hlt, hsame⟩ | ⟨-, hnew⟩
      · rw [hsame]
        exact h.alone d hlt hne
      · rw [hnew]
        exact Nat.ne_of_gt (h.queues c h.place)
    | receives hreceives hconnections =>
      rcases Hub.connection_of_concat hconnections hd with ⟨hlt, hsame⟩ | ⟨-, hnew⟩
      · rw [hsame]
        exact h.alone d hlt hne
      · rw [hnew]
        exact (hmove _ _ _ _ hreceives).2

theorem Hosts.keeps (h : s.Hosts i c) {x : Exchange} (hk : Keeps s.exchange x) :
    ({ s with exchange := x } : Service).Hosts i c where
  toHoused := h.toHoused.of_keeps rfl hk
  lines := h.lines
  here := h.here
  place := hk.length ▸ h.place
  alone d hd hne := by
    show (x.connection d).queue ≠ (x.connection c).queue
    rw [(Connection.sameMake_of_made (hk.made d)).queue,
      (Connection.sameMake_of_made (hk.made c)).queue]
    exact h.alone d (hk.length ▸ hd) hne

/-- The queue of a connection is left alone by what touches neither it nor, out of turn, its
queue. -/
theorem Hosts.spares (h : s.Hosts i c) (hline : move.line? ≠ some i)
    (hhandles : ∀ r a, move = .handles r a →
      (s.exchange.connection r.place).queue ≠ (s.exchange.connection c).queue)
    (hcloses : ∀ d, move = .closes d →
      (s.exchange.connection d).queue ≠ (s.exchange.connection c).queue) :
    s.exchange.hub.Spares (s.exchange.connection c).queue (s.perform move).exchange.hub := by
  refine spares_perform (h.queues c h.place) fun d hd => ?_
  have hother {j : Nat} (hj : move.line? = some j)
      (hd : ∃ l, s.lines[j]? = some l ∧ d = l.place) :
      (s.exchange.connection d).queue ≠ (s.exchange.connection c).queue := by
    obtain ⟨l, hl, rfl⟩ := hd
    exact h.alone l.place (h.placed.seated j l hl).place fun heq =>
      hline (hj.trans (congrArg some ((h.lines j l hl).mp heq)))
  cases move with
  | welcomes j | equips j | reads j | watches j | writes j | leaves j | departs j =>
    exact hother rfl hd
  | handles r a =>
    rcases hd with rfl | ⟨-, honline⟩
    · exact hhandles r a rfl
    · exact absurd honline (not_isOnline h.nobody d)
  | closes d' =>
    obtain rfl : d = d' := hd
    exact hcloses d rfl
  | stops closeAll => exact absurd hd (not_isOnline h.nobody d)
  | accepts | receives | peers | ticks | becomes => exact hd.elim

/-! ## What happens without it -/

/-- Does it happen without line `i` and elsewhere than at the connection at a place? -/
def isAside (s : Service) (i : Nat) (c : Place) (o : Occurrence) : Bool :=
  s.isElsewhere (s.exchange.connection c).queue o && o.line? != some i

/-- **A line, its connection and its queue are undisturbed** by what happens without it. -/
theorem Hosts.undisturbed (h : s.Hosts i c) (ho : s.isAside i c o = true) :
    (s.occur o).Hosts i c ∧ (s.occur o).lines[i]? = s.lines[i]? ∧
      s.exchange.hub.Spares (s.exchange.connection c).queue (s.occur o).exchange.hub := by
  obtain ⟨helsewhere, hline⟩ := Bool.and_eq_true_iff.mp ho
  have hline : o.line? ≠ some i := bne_iff_ne.mp hline
  unfold Service.occur
  split
  case isFalse =>
    exact ⟨h, rfl, .refl _ _⟩
  case isTrue hcan =>
    cases o with
    | moves move =>
      have hl := List.getElem?_eq_getElem h.here
      refine ⟨h.perform ?_, (getElem?_perform_of_ne hl hline).trans hl.symm, h.spares hline ?_ ?_⟩
      · rintro network queue peer received rfl
        exact ⟨of_decide_eq_true hcan, bne_iff_ne.mp helsewhere⟩
      · rintro r a rfl
        exact bne_iff_ne.mp helsewhere
      · rintro d rfl
        exact bne_iff_ne.mp helsewhere
    | binds =>
      exact ⟨h.keeps (keeps_addQueue s.exchange), rfl,
        Hub.spares_addQueue _ _ (h.queues c h.place)⟩
    | changes queue f =>
      exact ⟨h.keeps (keeps_modifyQueue s.exchange queue f), rfl,
        Hub.spares_modifyQueue _ f (bne_iff_ne.mp helsewhere)⟩

end Service

end Switchboard
