import Switchboard.Proofs.Service.Overlap
import Switchboard.Service.Server

/-!
# Proofs/Service/Listening — what a service does with its listeners is an interleaving

A service binds addresses on its machine, and it goes on with a start each time it has let listeners
end.  Whatever it so does to its listeners is a list of acts: when it listens
(`Service.reaches_listen`), is stopped (`Service.run_stop`), begins a start
(`Service.reaches_beginStart`), lets listeners end (`Service.run_endLoops`), and goes on with a
start (`Service.reaches_pursue`) until that has returned (`Service.reaches_complete`).  So some
interleaving leads to where the listeners of a service are (`Service.Interleaved`), whatever is
asked of it and however much time passes.
-/

namespace Switchboard

/-! ## Going on with one call -/

namespace Lifecycle.History

variable {h : History} {i : Nat} {took : List Listener} {life life' : Lifecycle}
  {stage stage' : Stage}

/-- Without a new call, acts lead to where `life` has become of the listeners and call `i` has come
so far. -/
def Reaches (h : History) (i : Nat) (took : List Listener) (life : Lifecycle) (stage : Stage) :
    Prop :=
  ∃ acts : List Act, (∀ act ∈ acts, ¬act.IsCall) ∧
    (h.run acts).life = life ∧ (h.run acts).calls[i]? = some ⟨took, stage⟩

theorem Reaches.refl (hi : h.calls[i]? = some ⟨took, stage⟩) : h.Reaches i took h.life stage :=
  ⟨[], List.forall_mem_nil _, rfl, hi⟩

/-- More acts may come first, if none is a call. -/
theorem Reaches.after {acts : List Act} (hacts : ∀ act ∈ acts, ¬act.IsCall)
    (hr : (h.run acts).Reaches i took life stage) : h.Reaches i took life stage := by
  obtain ⟨more, hmore, hreached⟩ := hr
  exact ⟨acts ++ more, List.forall_mem_append.mpr ⟨hacts, hmore⟩, (run_append ..).symm ▸ hreached⟩

/-- One more act may come first, if it is no call. -/
theorem Reaches.cons (act : Act) (hact : ¬act.IsCall)
    (hr : (h.perform act).Reaches i took life stage) : h.Reaches i took life stage :=
  .after (List.forall_mem_singleton.mpr hact) hr

/-- Where one run of acts leaves the call, the next one takes it up. -/
theorem Reaches.trans (hr : h.Reaches i took life stage)
    (hnext : ∀ h' : History, h'.life = life → h'.calls[i]? = some ⟨took, stage⟩ →
      h'.Reaches i took life' stage') : h.Reaches i took life' stage' := by
  obtain ⟨acts, hacts, hlife, hi⟩ := hr
  exact .after hacts (hnext _ hlife hi)

/-- One act lets the call come so far. -/
theorem reaches_set {act : Act} {old c : Call} (hact : ¬act.IsCall) (hi : h.calls[i]? = some old)
    {g : History} (hcalls : g.calls = h.calls) (hperform : h.perform act = g.set i c life) :
    h.Reaches i c.took life c.stage := by
  refine ⟨[act], List.forall_mem_singleton.mpr hact, congrArg History.life hperform, ?_⟩
  rw [run_cons, hperform, run_nil]
  exact calls_set_self (hcalls ▸ hi)

/-- A start goes on past all listeners that have ended. -/
theorem reaches_go (taken rest : List Listener)
    (hi : h.calls[i]? = some ⟨took, .starting (.waiting taken rest)⟩) :
    h.Reaches i took (awaitEnds.go h.life taken rest).2
      (.starting (awaitEnds.go h.life taken rest).1) := by
  induction rest generalizing h with
  | nil =>
    have hperform : h.perform (.passes i) = h.set i ⟨took, .starting (.binding taken)⟩ h.life := by
      rw [perform, pass, hi]
      rfl
    exact reaches_set id hi rfl hperform
  | cons x rest ih =>
    cases hended : h.life.hasEnded x with
    | false =>
      have hgo : awaitEnds.go h.life taken (x :: rest) = (.waiting taken (x :: rest), h.life) := by
        simp [awaitEnds.go, awaitEnd, hended]
      rw [hgo]
      exact .refl hi
    | true =>
      have hgo : awaitEnds.go h.life taken (x :: rest) =
          awaitEnds.go (h.life.tell (rest.take 1)) taken rest := by
        simp [awaitEnds.go, awaitEnd, hended]
      have hperform : h.perform (.passes i) = h.set i ⟨took, .starting (.waiting taken rest)⟩
          (h.life.tell (rest.take 1)) := by
        simp [perform, pass, hi, awaitEnd, hended]
      rw [hgo]
      refine .cons (.passes i) id ?_
      rw [hperform]
      exact ih (calls_set_self hi)

/-- **A start that waits for tasks to end comes as far by single acts**: one for each listener. -/
theorem reaches_awaitEnds {start : Start} (hi : h.calls[i]? = some ⟨took, .starting start⟩) :
    h.Reaches i took (h.life.awaitEnds start).2 (.starting (h.life.awaitEnds start).1) := by
  cases start with
  | waiting taken rest => exact reaches_go taken rest hi
  | binding rest => exact .refl hi

end Lifecycle.History

/-! ## Starts that took something -/

/-- Has the start taken any listener that it must bind again? -/
def Start.HasListeners : Start → Prop
  | waiting taken _ => taken ≠ []
  | binding rest => rest ≠ []

/-- A start that took listeners goes on with some until all have ended. -/
theorem Start.HasListeners.go {taken : List Listener} (hne : taken ≠ []) (rest : List Listener)
    (l : Lifecycle) : (Lifecycle.awaitEnds.go l taken rest).1.HasListeners := by
  induction rest generalizing l with
  | nil => exact hne
  | cons x rest ih =>
    rw [Lifecycle.awaitEnds.go]
    split
    · exact ih _
    · exact hne

/-- To wait for tasks takes nothing away from what the start took. -/
theorem Start.HasListeners.awaitEnds {start : Start} (hs : start.HasListeners) (l : Lifecycle) :
    (l.awaitEnds start).1.HasListeners := by
  cases start with
  | waiting taken rest => exact .go hs rest l
  | binding rest => exact hs

/-! ## What a service does -/

namespace Service

open Lifecycle History

variable {s : Service} {h : History} {i : Nat} {took : List Listener}

/-- How far a call to start has come. -/
def Attempt.stage : Attempt → Stage
  | .waiting start => .starting start
  | .over result => .returned result

/-- If it waits, it has listeners to bind. -/
def Attempt.HasListeners : Attempt → Prop
  | .waiting start => start.HasListeners
  | .over _ => True

@[simp] theorem life_bind (s : Service) (network : Network) (address : String) :
    (s.bind network address).2.life = s.life := rfl

@[simp] theorem life_beginLoop (s : Service) (listener : Listener) (binding : Binding) (b : Bool) :
    (s.beginLoop listener binding b).life = s.life := rfl

@[simp] theorem life_serveOn (s : Service) (network : Network) (binding : Binding) (b : Bool) :
    (s.serveOn network binding b).life = (s.life.spawned network binding.address).2 := rfl

section

variable {x : Listener} {rest : List Listener}

/-- A listener that cannot be bound is the end of the start: all that are left are put back. -/
theorem rebind_of_error {e : ServiceError}
    (hbind : (s.bind x.network x.address).1 = .error e) : s.rebind (x :: rest) =
      (.error e, { (s.bind x.network x.address).2 with life := s.life.giveUp (x :: rest) }) := by
  rw [rebind, show s.bind x.network x.address = (.error e, _) from Prod.ext hbind rfl]
  rfl

/-- A listener that is bound is recorded and served, and the next one's turn comes. -/
theorem rebind_of_ok {b : Binding} (hbind : (s.bind x.network x.address).1 = .ok b) :
    s.rebind (x :: rest) = Service.rebind
      (({ (s.bind x.network x.address).2 with
          life := (s.life.record x.network b.address).2 } : Service).beginLoop
        (s.life.record x.network b.address).1 b false) rest := by
  rw [rebind, show s.bind x.network x.address = (.ok b, _) from Prod.ext hbind rfl]
  rfl

/-- The failing bind is one act of the interleaving, and the call returns with it. -/
theorem reaches_rebind_of_error {e : ServiceError} (hlife : h.life = s.life)
    (hi : h.calls[i]? = some ⟨took, .starting (.binding (x :: rest))⟩)
    (hbind : (s.bind x.network x.address).1 = .error e) :
    h.Reaches i took (s.rebind (x :: rest)).2.life (.returned (s.rebind (x :: rest)).1) := by
  rw [rebind_of_error hbind, ← hlife]
  exact reaches_set id hi rfl (perform_fails e hi)

/-- **Binding addresses again** ends a start. -/
theorem reaches_rebind (hlife : h.life = s.life)
    (hi : h.calls[i]? = some ⟨took, .starting (.binding (x :: rest))⟩) :
    h.Reaches i took (s.rebind (x :: rest)).2.life (.returned (s.rebind (x :: rest)).1) := by
  induction rest generalizing s h x with
  | nil =>
    cases hbind : (s.bind x.network x.address).1 with
    | error e => exact reaches_rebind_of_error hlife hi hbind
    | ok b =>
      rw [rebind_of_ok hbind, ← hlife, rebind, life_beginLoop]
      exact reaches_set (g := h.bind i) id hi rfl (perform_binds b.address hi)
  | cons y rest ih =>
    cases hbind : (s.bind x.network x.address).1 with
    | error e => exact reaches_rebind_of_error hlife hi hbind
    | ok b =>
      rw [rebind_of_ok hbind, ← hlife]
      refine .cons (.binds i b.address) id ?_
      rw [perform_binds b.address hi]
      exact ih (by rw [life_beginLoop]; rfl) (calls_set_self (h := h.bind i) hi)

end

/-- **Going on with a start** lets its call go on. -/
theorem reaches_pursue {start : Start} (hlife : h.life = s.life)
    (hi : h.calls[i]? = some ⟨took, .starting start⟩) (hs : start.HasListeners) :
    h.Reaches i took (s.pursue start).2.life (s.pursue start).1.stage ∧
      (s.pursue start).1.HasListeners := by
  have hreach := reaches_awaitEnds hi
  have hne := hs.awaitEnds h.life
  rw [hlife] at hreach hne
  rw [pursue]
  split
  · rename_i taken rest life hends
    rw [hends] at hreach hne
    exact ⟨hreach, hne⟩
  · rename_i rest life hends
    rw [hends] at hreach hne
    cases rest with
    | nil => exact absurd rfl hne
    | cons x rest => exact ⟨hreach.trans fun h' hlife' hi' => reaches_rebind hlife' hi', trivial⟩

/-- **Beginning a start** is a call for one. -/
theorem reaches_beginStart (hlife : h.life = s.life) :
    ∃ took, (h.perform .starts).Reaches h.calls.length took s.beginStart.2.life
      s.beginStart.1.stage ∧ s.beginStart.1.HasListeners := by
  rw [perform, History.start, beginStart, hlife]
  rcases beginStart_cases s.life with ⟨-, hne, hbegin⟩ | ⟨e, hbegin⟩ <;> rw [hbegin]
  · exact ⟨s.life.cache, reaches_pursue rfl List.getElem?_concat_length hne⟩
  · exact ⟨[], .refl List.getElem?_concat_length, trivial⟩

/-- Loops that end are tasks that end, one act for each. -/
theorem run_foldl_endLoop (loops : List Loop) (hlife : h.life = s.life) :
    ∃ acts : List Act, (∀ act ∈ acts, ¬act.IsCall) ∧
      (h.run acts).life = (loops.foldl endLoop s).life ∧ (h.run acts).calls = h.calls := by
  induction loops generalizing s h with
  | nil => exact ⟨[], List.forall_mem_nil _, hlife, rfl⟩
  | cons loop loops ih =>
    rw [List.foldl_cons]
    by_cases htold : s.life.isTold loop.listener = true
    · have hends : (h.perform (.ends loop.listener.serial)).life = (s.endLoop loop).life := by
        rw [perform, hlife, endLoop, if_pos htold]
      obtain ⟨acts, hacts, hrun⟩ := ih hends
      exact ⟨_ :: acts, List.forall_mem_cons.mpr ⟨id, hacts⟩, hrun⟩
    · rw [endLoop, if_neg htold]
      exact ih hlife

/-- **Letting listeners end** does so. -/
theorem run_endLoops (hlife : h.life = s.life) :
    ∃ acts : List Act, (∀ act ∈ acts, ¬act.IsCall) ∧
      (h.run acts).life = s.endLoops.life ∧ (h.run acts).calls = h.calls :=
  run_foldl_endLoop _ hlife

/-- **A start runs to where some interleaving comes**, and returns what the call returned there.
-/
theorem reaches_completeWithin {attempt : Attempt} (budget : Nat) (hlife : h.life = s.life)
    (hi : h.calls[i]? = some ⟨took, attempt.stage⟩) (hs : attempt.HasListeners) :
    ∃ stage, h.Reaches i took (completeWithin budget attempt s).2.life stage ∧
      ∀ r, stage = .returned r → (completeWithin budget attempt s).1 = r := by
  induction budget generalizing s h attempt with
  | zero =>
    refine ⟨attempt.stage, ?_⟩
    rcases attempt with start | result
    · exact ⟨hlife ▸ .refl hi, fun _ => nofun⟩
    · exact ⟨hlife ▸ .refl hi, fun r hr => Stage.returned.inj hr⟩
  | succ budget ih =>
    rcases attempt with start | result
    · obtain ⟨acts, hacts, hlife, hcalls⟩ := run_endLoops hlife
      obtain ⟨⟨more, hmore, hlife, hi⟩, hs⟩ := reaches_pursue hlife (hcalls ▸ hi) hs
      obtain ⟨stage, hreach, hreturned⟩ := ih hlife hi hs
      exact ⟨stage, .after hacts (.after hmore hreach), hreturned⟩
    · exact ⟨.returned result, hlife ▸ .refl hi, fun r hr => Stage.returned.inj hr⟩

/-- **Completing a start** goes on with its call, and if that returns this is how it ends. -/
theorem reaches_complete {attempt : Attempt} (hlife : h.life = s.life)
    (hi : h.calls[i]? = some ⟨took, attempt.stage⟩) (hs : attempt.HasListeners) :
    ∃ stage, h.Reaches i took (complete attempt s).2.life stage ∧
      ∀ r, stage = .returned r → (complete attempt s).1 = r := by
  rcases attempt with start | result
  · exact reaches_completeWithin _ hlife hi hs
  · exact ⟨.returned result, hlife ▸ .refl hi, fun r hr => Stage.returned.inj hr⟩

/-- **Starting** is one call, from its beginning on. -/
theorem reaches_start (hlife : h.life = s.life) :
    ∃ took stage, (h.perform .starts).Reaches h.calls.length took s.start.2.life stage ∧
      ∀ r, stage = .returned r → s.start.1 = r := by
  obtain ⟨took, ⟨acts, hacts, hlife, hi⟩, hs⟩ := reaches_beginStart hlife
  obtain ⟨stage, hreach, hreturned⟩ := reaches_complete hlife hi hs
  exact ⟨took, stage, .after hacts hreach, hreturned⟩

/-- **Listening** is one call, unless no network has the name. -/
theorem reaches_listen {network : String} {n : Network} (hparse : Network.parse network = .ok n)
    (address : String) (isAwaited : Bool) (hlife : h.life = s.life) :
    (h.perform (.listens n)).Reaches h.calls.length [] (s.listen network address isAwaited).2.life
      (.returned ((s.listen network address isAwaited).1.map fun _ => ())) := by
  have hi : (h.perform (.listens n)).calls[h.calls.length]? = some ⟨[], .listening n⟩ :=
    List.getElem?_concat_length
  rw [listen, hparse]
  dsimp only
  split
  · rename_i e s' hbind
    obtain rfl : (s.bind n address).2 = s' := congrArg Prod.snd hbind
    rw [life_bind, ← hlife]
    exact reaches_set id hi rfl (perform_fails_new e hi)
  · rename_i b s' hbind
    obtain rfl : (s.bind n address).2 = s' := congrArg Prod.snd hbind
    rw [life_serveOn, life_bind, ← hlife]
    exact reaches_set (g := ((h.perform (.listens n)).bind _).ask n b.address) id hi rfl
      (perform_binds_new b.address hi)

/-- **Stopping** is one call, which returns at once. -/
theorem run_stop (closeAll : Bool) (hlife : h.life = s.life) :
    (h.perform .stops).life = (s.stop closeAll).2.life ∧
      (h.perform .stops).calls = h.calls ++ [⟨[], .returned (s.stop closeAll).1⟩] := by
  rw [perform, hlife, stop]
  rcases stop_cases s.life with ⟨-, hstop⟩ | ⟨e, hstop⟩ <;> rw [hstop]
  · cases closeAll <;> exact ⟨rfl, rfl⟩
  · exact ⟨rfl, rfl⟩

/-! ## Every service -/

/-- **Some interleaving leads to where the listeners of the service are.** -/
def Interleaved (s : Service) : Prop := ∃ acts, (initial.run acts).life = s.life

variable {s' : Service}

/-- What does not touch the listeners leaves them where some interleaving has led. -/
theorem Interleaved.of_life_eq (hs : s.Interleaved) (hlife : s'.life = s.life) : s'.Interleaved :=
  Exists.imp (fun _ h => h.trans hlife.symm) hs

/-- A call and what it comes to are one more stretch of the interleaving. -/
theorem Interleaved.of_reaches {acts : List Act} {act : Act} {stage : Stage}
    (hr : ((initial.run acts).perform act).Reaches i took s.life stage) : s.Interleaved := by
  obtain ⟨more, -, hlife, -⟩ := hr
  exact ⟨acts ++ act :: more, by rw [run_append, run_cons, hlife]⟩

/-- Before anything happens, no act is needed. -/
theorem interleaved_ofPlan (plan : Plan) (host : Host) : (ofPlan plan host).Interleaved := ⟨[], rfl⟩

/-- To listen leads where some interleaving does, whether or not the address can be bound. -/
theorem Interleaved.listen (hs : s.Interleaved) (network address : String) (isAwaited : Bool) :
    (s.listen network address isAwaited).2.Interleaved := by
  obtain ⟨acts, hlife⟩ := hs
  cases hparse : Network.parse network with
  | error e =>
    rw [Service.listen, hparse]
    exact ⟨acts, hlife⟩
  | ok n => exact .of_reaches (reaches_listen hparse address isAwaited hlife)

/-- A failure that is noted in the log is no act. -/
theorem Interleaved.listenAndServe (hs : s.Interleaved) (network address : String) :
    (s.listenAndServe network address).2.Interleaved := by
  have hlisten := hs.listen network address true
  unfold Service.listenAndServe
  split
  · rename_i e s' hfailed
    rw [hfailed] at hlisten
    exact hlisten.of_life_eq rfl
  · exact hlisten

/-- To stop, with or without closing connections, is one act. -/
theorem Interleaved.stop (hs : s.Interleaved) (closeAll : Bool) :
    (s.stop closeAll).2.Interleaved := by
  obtain ⟨acts, hlife⟩ := hs
  exact ⟨acts ++ [Act.stops], by rw [run_append, ← (run_stop closeAll hlife).1]; rfl⟩

/-- **A start is a call and what it comes to**, up to where it returns. -/
theorem Interleaved.start (hs : s.Interleaved) : s.start.2.Interleaved := by
  obtain ⟨acts, hlife⟩ := hs
  obtain ⟨took, stage, hreach, -⟩ := reaches_start hlife
  exact .of_reaches hreach

/-- A restart is a stop and a start. -/
theorem Interleaved.restart (hs : s.Interleaved) (closeAll : Bool) :
    (s.restart closeAll).2.Interleaved := by
  have hstop := hs.stop closeAll
  unfold Service.restart
  split <;> rename_i s' hstopped <;> rw [hstopped] at hstop
  · exact hstop
  · have hnoted : (s'.onExchange fun x => x.note .restarting).Interleaved := hstop.of_life_eq rfl
    exact hnoted.start

/-- To shut down is to stop, as far as listeners are concerned. -/
theorem Interleaved.shutdown (hs : s.Interleaved) : s.shutdown.Interleaved :=
  (hs.stop true).of_life_eq rfl

@[simp] theorem life_sendLetter (loop : Loop) (s : Service) :
    (s.sendLetter loop).life = s.life := by
  unfold sendLetter
  split <;> rfl

@[simp] theorem life_sendLetters (loop : Loop) (s : Service) :
    (s.sendLetters loop).life = s.life := by
  unfold sendLetters
  split
  case h_2 => rfl
  rename_i m _
  generalize (s.exchange.hub.queue m.queue).replies.length = n
  induction n with
  | zero => rfl
  | succ n ih => exact (life_sendLetter loop _).trans ih

@[simp] theorem life_foldl_sendLetters (loops : List Loop) (s : Service) :
    (loops.foldl sendLetters s).life = s.life := by
  induction loops generalizing s with
  | nil => rfl
  | cons loop loops ih => rw [List.foldl_cons, ih, life_sendLetters]

@[simp] theorem life_eachLine (f : Line → Exchange → Line × Exchange) (s : Service) :
    (s.eachLine f).life = s.life := rfl

@[simp] theorem life_onExchange (f : Exchange → Exchange) (s : Service) :
    (s.onExchange f).life = s.life := rfl

/-- In a turn only the end of listeners changes what became of them. -/
theorem life_turn (s : Service) : s.turn.life = s.endLoops.life := by
  simp only [turn, life_eachLine, life_foldl_sendLetters, life_onExchange]

/-- A turn of all lines ends tasks, and calls nothing. -/
theorem Interleaved.turn (hs : s.Interleaved) : s.turn.Interleaved := by
  obtain ⟨acts, hlife⟩ := hs
  obtain ⟨more, -, hends, -⟩ := run_endLoops hlife
  exact ⟨acts ++ more, by rw [run_append, hends, life_turn]⟩

/-- What keeps to interleavings does so however often it is done. -/
theorem Interleaved.repeat {f : Service → Service}
    (hf : ∀ {s : Service}, s.Interleaved → (f s).Interleaved) (hs : s.Interleaved) (n : Nat) :
    (n.repeat f s).Interleaved := by
  induction n with
  | zero => exact hs
  | succ n ih => exact hf ih

theorem Interleaved.settle (hs : s.Interleaved) : s.settle.Interleaved :=
  .repeat Interleaved.turn hs turns

theorem Interleaved.tick (hs : s.Interleaved) : s.tick.Interleaved := by
  rw [Service.tick]
  have hlater : (s.onExchange fun x => { x with clock := x.clock + 1 }).Interleaved :=
    hs.of_life_eq rfl
  split
  · exact hlater.settle
  · exact hlater

/-- **Whatever time brings is an interleaving**, too. -/
theorem Interleaved.pass (hs : s.Interleaved) (milliseconds : Nat) :
    (s.pass milliseconds).Interleaved :=
  .repeat Interleaved.tick hs milliseconds

end Service

end Switchboard
