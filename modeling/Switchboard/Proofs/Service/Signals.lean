import Mathlib.Data.List.Induction
import Switchboard.Proofs.Service.Moves

/-!
# Proofs/Service/Signals — which connections a stop reaches

A service that closes by signal counts its signals, and a line remembers how many there had been
when its watches were set up.  The watch closes the connection once there were more, so a signal
reaches the lines that were set up when it was given; it passes by a line whose hook still runs,
since that line will count it among the old ones, and a service that was stopped before gives none.

Whatever order things come in, a line obeys a signal just if it was told (`Service.Told`).
-/

namespace Switchboard

namespace Line

variable {l : Line} {x : Exchange}

/-- **The connection is closed, or its watch has a signal to obey.** -/
def Heeds (l : Line) (x : Exchange) : Prop :=
  l.isClosed x = true ∨ ∃ n ∈ l.signal, n < x.signals

instance (l : Line) (x : Exchange) : Decidable (l.Heeds x) :=
  inferInstanceAs (Decidable (_ ∨ _))

/-- Just then the connection is closed when the watch has looked. -/
theorem heeds_iff_isClosed_watchSignal (hs : l.Sits x) :
    l.Heeds x ↔ l.isClosed (l.watchSignal x).2 = true := by
  unfold Heeds watchSignal
  cases l.signal with
  | none => simp
  | some n =>
    dsimp only
    split
    · exact iff_of_true (.inr ⟨n, rfl, ‹_›⟩) (closed_close hs)
    · refine or_iff_left ?_
      rintro ⟨m, hm, hgt⟩
      exact ‹¬n < x.signals› (Option.some.inj hm ▸ hgt)

end Line

namespace Service

open Line

variable {s : Service} {moves : List Move} {move : Move} {i : Nat} {l l' : Line} {x' : Exchange}

/-! ## How often a signal is given -/

/-- A stop of a service that closes by signal gives one. -/
theorem signals_stop (hsignal : s.exchange.plan.settings.closesBySignal = true)
    (hphase : s.life.phase ≠ .stopped) :
    (s.perform (.stops true)).exchange.signals = s.exchange.signals + 1 := by
  show (s.stop true).2.exchange.signals = _
  rw [Service.stop, Lifecycle.stop, if_neg hphase]
  show s.exchange.closeAll.signals = _
  rw [Exchange.closeAll, if_pos hsignal]

/-- Does this move give a signal? -/
def Signals (s : Service) (move : Move) : Prop := move = .stops true ∧ s.life.phase ≠ .stopped

/-- **No other move gives one.** -/
theorem signals_of_not (hs : s.Seated) (hmove : ¬s.Signals move) :
    (s.perform move).exchange.signals = s.exchange.signals := by
  generalize hx : (s.perform move).exchange = x
  have h : Happens s move x := hx ▸ happens_perform hs move
  cases h with
  | steady _ h => exact h.signals
  | joins _ h => exact h.signals
  | signals hstop hphase => exact absurd ⟨hstop, hphase⟩ hmove
  | calls => rfl

/-! ## Who was told -/

/-- Are the watches of line `i` set up? -/
def IsEquipped (s : Service) (i : Nat) : Prop := ∃ l ∈ s.lines[i]?, l.stage ≠ .accepted

/-- **Line `i` was told to close**: a signal was given when its watches were set up. -/
def Told (s : Service) (moves : List Move) (i : Nat) : Prop :=
  ∃ before after, moves = before ++ .stops true :: after ∧ (s.run before).IsEquipped i ∧
    (s.run before).life.phase ≠ .stopped

/-- Who is told by one more move. -/
theorem told_concat : s.Told (moves ++ [move]) i ↔
    s.Told moves i ∨ (s.run moves).Signals move ∧ (s.run moves).IsEquipped i := by
  constructor
  · rintro ⟨before, after, hacts, hequipped, hphase⟩
    rcases List.eq_nil_or_concat after with rfl | ⟨after, last, rfl⟩
    · obtain ⟨rfl, hmove⟩ := List.append_inj' hacts rfl
      exact .inr ⟨⟨List.cons.inj hmove |>.1, hphase⟩, hequipped⟩
    · rw [List.concat_eq_append, ← List.cons_append, ← List.append_assoc] at hacts
      exact .inl ⟨before, after, (List.append_inj' hacts rfl).1, hequipped, hphase⟩
  · rintro (⟨before, after, rfl, htold⟩ | ⟨⟨rfl, hphase⟩, hequipped⟩)
    · exact ⟨before, after ++ [move], by rw [List.append_assoc, List.cons_append], htold⟩
    · exact ⟨moves, [], rfl, hequipped, hphase⟩

/-! ## What a line remembers -/

/-- A line that was set up stays so. -/
theorem IsEquipped.perform (hs : s.Seated) (h : s.IsEquipped i) (move : Move) :
    (s.perform move).IsEquipped i := by
  obtain ⟨l, hl, hstage⟩ := h
  obtain ⟨l', hl', hgoes⟩ := goes_perform hs hl move
  exact ⟨l', hl', fun haccepted => hstage (hgoes.accepted haccepted)⟩

theorem IsEquipped.run (hs : s.Seated) (h : s.IsEquipped i) (moves : List Move) :
    (s.run moves).IsEquipped i := by
  induction moves generalizing s with
  | nil => exact h
  | cons move moves ih => exact ih (seated_perform hs move) (h.perform hs move)

/-- Nobody is told before the watches are set up. -/
theorem Told.isEquipped (hs : s.Seated) (h : s.Told moves i) : (s.run moves).IsEquipped i := by
  obtain ⟨before, after, rfl, hequipped, -⟩ := h
  rw [run_append]
  exact hequipped.run (seated_run hs before) _

/-- **What a line remembers** of the signals: as many as there are, or fewer if it was told. -/
def Remembers (s : Service) (l : Line) (told : Prop) : Prop :=
  ∃ n ∈ l.signal, n ≤ s.exchange.signals ∧ (n < s.exchange.signals ↔ told)

/-- One more move leaves a line closed, or it remembers what it should. -/
theorem remembers_perform {told : Prop} (hs : s.Seated)
    (hsignal : s.exchange.plan.settings.closesBySignal = true)
    (hi : s.lines[i]? = some l) (hstage : l.stage ≠ .accepted)
    (hgoes : Goes i move l s.exchange l' (s.perform move).exchange)
    (h : l.isClosed s.exchange = true ∨ s.Remembers l told) :
    l'.isClosed (s.perform move).exchange = true ∨
      (s.perform move).Remembers l' (told ∨ s.Signals move ∧ s.IsEquipped i) := by
  have hequipped : s.IsEquipped i := ⟨l, hi, hstage⟩
  unfold isClosed
  rw [hgoes.place]
  rcases h with hclosed | ⟨n, hn, hle, hlt⟩
  · exact .inl ((happens_perform hs move).later.closed _ (hs i l hi).place hclosed)
  rcases (hgoes.signal hstage).symm with ⟨-, hclosed⟩ | hsame
  · exact .inl hclosed
  refine .inr ⟨n, hsame ▸ hn, ?_⟩
  by_cases hgives : s.Signals move
  · obtain ⟨rfl, hphase⟩ := id hgives
    rw [signals_stop hsignal hphase]
    exact ⟨by omega, iff_of_true (by omega) (.inr ⟨hgives, hequipped⟩)⟩
  · rw [signals_of_not hs hgives, hlt]
    exact ⟨hle, (or_iff_left fun h => hgives h.1).symm⟩

/-- **Whatever order things come in**, a line that was set up is closed, or remembers fewer signals
than there are just if it was told. -/
theorem remembers_run (hs : s.Seated) (hnone : s.lines = [])
    (hsignal : s.exchange.plan.settings.closesBySignal = true) (moves : List Move)
    (hi : (s.run moves).lines[i]? = some l) (hstage : l.stage ≠ .accepted) :
    l.isClosed (s.run moves).exchange = true ∨ (s.run moves).Remembers l (s.Told moves i) := by
  induction moves using List.reverseRecOn generalizing l with
  | nil =>
    rw [run_nil, hnone, List.getElem?_nil] at hi
    exact nomatch hi
  | append_singleton moves move ih =>
    have hseated : (s.run moves).Seated := seated_run hs moves
    have hplan : (s.run moves).exchange.plan.settings.closesBySignal = true := by
      rw [plan_run hs moves, hsignal]
    rw [run_concat] at hi ⊢
    rcases (lines_perform hseated hi).symm with ⟨network, peer, -, rfl⟩ | ⟨l₀, hl₀, hgoes⟩
    · exact absurd rfl hstage
    simp only [told_concat]
    by_cases haccepted : l₀.stage = .accepted
    · -- The line was just set up: it counts every signal so far, and nobody told it.
      obtain ⟨rfl, hset⟩ := (hgoes.equipped haccepted).resolve_left hstage
      have hgives : ¬(s.run moves).Signals (.equips i) := nofun
      have huntold : ¬s.Told moves i := fun htold => by
        obtain ⟨l₂, hl₂, hserved⟩ := htold.isEquipped hs
        exact hserved (Option.some.inj (hl₀.symm.trans hl₂) ▸ haccepted)
      rw [if_pos hplan] at hset
      refine .inr ⟨_, hset, Nat.le_of_eq (signals_of_not hseated hgives).symm, ?_⟩
      rw [signals_of_not hseated hgives]
      exact iff_of_false (Nat.lt_irrefl _) fun h => h.elim huntold fun h => hgives h.1
    · exact remembers_perform hseated hplan hl₀ haccepted hgoes (ih hl₀ haccepted)

/-! ## Whom a stop reaches -/

/-- **A line obeys a signal just if it was told**, when the watches of lines are set up and the
service is stopped in any order: its connection is closed, or a stop of all connections stopped the
service after the watches were set up.  The watch closes the connection of such a line and of no
other. -/
theorem heeds_run_iff {plan : Plan} (hsignal : plan.settings.closesBySignal = true) (host : Host)
    (moves : List Move) {i : Nat} {l : Line} :
    let s := (ofPlan plan host).run moves
    s.lines[i]? = some l → l.stage ≠ .accepted →
      (l.Heeds s.exchange ↔ l.isClosed s.exchange = true ∨ (ofPlan plan host).Told moves i) ∧
      (l.Heeds s.exchange ↔ l.isClosed (l.watchSignal s.exchange).2 = true) := by
  intro s hi hstage
  have hseated : s.Seated := seated_run (seated_ofPlan plan host) moves
  refine ⟨?_, heeds_iff_isClosed_watchSignal (hseated i l hi)⟩
  rcases remembers_run (seated_ofPlan plan host) rfl hsignal moves hi hstage with
    hclosed | ⟨n, hn, -, hlt⟩
  · exact iff_of_true (.inl hclosed) (.inl hclosed)
  · refine or_congr_right ⟨?_, fun htold => ⟨n, hn, hlt.mpr htold⟩⟩
    rintro ⟨m, hm, hgt⟩
    exact hlt.mp (Option.some.inj (hn.symm.trans hm) ▸ hgt)

/-- A stop after the watches were set up. -/
theorem heeds_run_iff_stopped :
    let settings : Settings := { Settings.standard with closesBySignal := true }
    let plan : Plan := ⟨.empty, settings, none, none, .none⟩
    let running : Lifecycle := (Lifecycle.initial.spawned .tcp "127.0.0.1:5000").2
    let moves : List Move := [.becomes running, .accepts .tcp "p", .welcomes 0, .equips 0,
      .stops true]
    let s := (ofPlan plan (.fresh true)).run moves
    plan.settings.closesBySignal = true ∧ ∃ l ∈ s.lines[0]?, l.stage ≠ .accepted ∧
      l.isClosed s.exchange = false ∧ l.Heeds s.exchange ∧
      l.isClosed (l.watchSignal s.exchange).2 = true := by
  intro settings plan running moves s
  have hsignal : plan.settings.closesBySignal = true := rfl
  have hline : ∃ l ∈ s.lines[0]?, l.stage ≠ .accepted ∧ l.isClosed s.exchange = false := by
    decide +kernel
  obtain ⟨l, hl, hstage, hopen⟩ := hline
  have htold : (ofPlan plan (.fresh true)).Told moves 0 := by
    refine ⟨moves.take 4, [], rfl, ?_, by decide +kernel⟩
    show ∃ l ∈ ((ofPlan plan (.fresh true)).run (moves.take 4)).lines[0]?, l.stage ≠ .accepted
    decide +kernel
  obtain ⟨htells, hcloses⟩ := heeds_run_iff hsignal (.fresh true) moves hl hstage
  have hheeds : l.Heeds s.exchange := htells.mpr (.inr htold)
  exact ⟨hsignal, l, hl, hstage, hopen, hheeds, hcloses.mp hheeds⟩

/-- **A stop passes by a line whose hook runs**, and a second stop by every line: connections that
were accepted before it stay open. -/
theorem not_heeds_stopped_while_welcomed :
    let settings : Settings := { Settings.standard with closesBySignal := true }
    let plan : Plan := ⟨.empty, settings, none, none, .none⟩
    let s := ((ofPlan plan (.fresh true)).listen "tcp" "127.0.0.1:5000" false).2
    let before : List Move := [.accepts .tcp "p", .welcomes 0]
    let welcomed := s.run (before ++ .stops true :: [.equips 0, .watches 0])
    let twice := s.run (before ++ [.equips 0, .stops false] ++ .stops true :: [.watches 0])
    let shut := (s.run (before ++ [.equips 0, .stops false])).shutdown.perform (.watches 0)
    ∀ t ∈ [welcomed, twice, shut], t.isRunning = false ∧ ∃ l ∈ t.lines[0]?, l.stage = .served ∧
      l.isClosed t.exchange = false ∧ ¬l.Heeds t.exchange := by
  decide +kernel

end Service

end Switchboard
