import Switchboard.Service.Lifecycle

/-!
# Proofs/Service/Overlap — calls to a service that overlap

Listening and starting take time: the one waits for an address to be bound, the other for listeners
to end and then for each of their addresses.  Wherever a call waits, others can be made or go on.  A
history (`Lifecycle.History`) keeps the calls made so far and how far each has come, and one act
lets a call be made or go on up to where it waits next (`Lifecycle.History.perform`).  An
interleaving is any list of acts; an act for which there is no occasion changes nothing.

What an act does to the service is what `Lifecycle` says it does, and `Lifecycle.History.Moves`
lists the cases.  Everything that is known of interleavings is shown by going through them once.
-/

namespace Switchboard

/-- Whether two calls came to the same can be decided. -/
instance decidableEqExcept {ε α : Type} [DecidableEq ε] [DecidableEq α] : DecidableEq (Except ε α)
  | .ok a, .ok b => decidable_of_iff (a = b) ⟨congrArg _, Except.ok.inj⟩
  | .error e, .error f => decidable_of_iff (e = f) ⟨congrArg _, Except.error.inj⟩
  | .ok _, .error _ | .error _, .ok _ => isFalse nofun

/-- What a listener is bound to. -/
def Listener.pair (x : Listener) : Network × String := (x.network, x.address)

namespace Lifecycle

/-! ## Steps of the service -/

variable {l : Lifecycle}

/-- A start takes all listeners of a stopped service, or it is refused. -/
theorem beginStart_cases (l : Lifecycle) :
    (l.phase = .stopped ∧ l.cache ≠ [] ∧ l.beginStart = (.ok (.waiting l.cache l.cache),
      { l.tell (l.cache.take 1) with phase := .starting, cache := [] })) ∨
      ∃ e, l.beginStart = (.error e, l) := by
  cases hphase : l.phase with
  | running => exact .inr ⟨.alreadyRunning, by rw [beginStart, hphase]⟩
  | starting => exact .inr ⟨.starting, by rw [beginStart, hphase]⟩
  | stopped =>
    by_cases hcache : l.cache = []
    · exact .inr ⟨.noListeners, by rw [beginStart, hphase]; exact if_pos hcache⟩
    · exact .inl ⟨rfl, hcache, by rw [beginStart, hphase]; exact if_neg hcache⟩

/-- A stop tells all remembered listeners to end, or it is refused. -/
theorem stop_cases (l : Lifecycle) :
    (l.phase ≠ .stopped ∧ l.stop = (.ok (), { l.tell l.cache with phase := .stopped })) ∨
      ∃ e, l.stop = (.error e, l) := by
  by_cases hphase : l.phase = .stopped
  · exact .inr ⟨.alreadyStopped, if_pos hphase⟩
  · exact .inl ⟨hphase, if_neg hphase⟩

@[simp] theorem cache_finish (l : Lifecycle) (b : Bool) : (l.finish b).cache = l.cache := by
  unfold finish
  split <;> rfl

@[simp] theorem fresh_finish (l : Lifecycle) (b : Bool) : (l.finish b).fresh = l.fresh := by
  unfold finish
  split <;> rfl

@[simp] theorem cache_giveUp (l : Lifecycle) (xs : List Listener) :
    (l.giveUp xs).cache = xs ++ l.cache :=
  cache_finish ..

@[simp] theorem cache_spawned (l : Lifecycle) (network : Network) (address : String) :
    (l.spawned network address).2.cache = l.cache ++ [⟨l.fresh, network, address⟩] := by
  unfold spawned record
  dsimp only
  split <;> rfl

/-! ## Calls -/

/-- How far a call has come. -/
inductive Stage where
  /-- It waits for an address of this network to be bound. -/
  | listening (network : Network)
  /-- It starts the service. -/
  | starting (s : Start)
  /-- It has returned. -/
  | returned (result : Except ServiceError Unit)

/-- A call, made to listen on an address, or to start or stop the service. -/
structure Call where
  /-- The listeners it took, if it started the service. -/
  took : List Listener
  /-- How far it has come. -/
  stage : Stage

namespace Call

/-- The listeners whose end it waits for. -/
def awaited (c : Call) : List Listener :=
  match c.stage with
  | .starting s => s.awaited
  | .listening _ | .returned _ => []

/-- The listeners it took and has not bound again. -/
def held (c : Call) : List Listener :=
  match c.stage with
  | .starting (.waiting taken _) => taken
  | .starting (.binding rest) => rest
  | .listening _ | .returned _ => []

/-- Is it starting the service? -/
def IsStarting (c : Call) : Prop := ∃ s, c.stage = .starting s

/-- Does it wait for the address it was made to listen on? -/
def IsListening (c : Call) : Prop := ∃ network, c.stage = .listening network

/-- Has it returned? -/
def HasReturned (c : Call) : Prop := ∃ result, c.stage = .returned result

/-- Has it returned without an error? -/
def Succeeded (c : Call) : Prop := c.stage = .returned (.ok ())

theorem IsStarting.not_hasReturned {c : Call} (h : c.IsStarting) : ¬c.HasReturned := by
  rintro ⟨result, hresult⟩
  obtain ⟨s, hs⟩ := h
  cases hs.symm.trans hresult

theorem IsListening.not_hasReturned {c : Call} (h : c.IsListening) : ¬c.HasReturned := by
  rintro ⟨result, hresult⟩
  obtain ⟨network, hnetwork⟩ := h
  cases hnetwork.symm.trans hresult

/-- Only a start holds listeners. -/
theorem held_eq_nil {c : Call} (hc : ¬c.IsStarting) : c.held = [] := by
  obtain ⟨took, stage⟩ := c
  cases stage with
  | starting s => exact absurd ⟨s, rfl⟩ hc
  | listening network => rfl
  | returned result => rfl

instance (c : Call) : Decidable c.IsStarting :=
  match c with
  | ⟨_, .starting s⟩ => isTrue ⟨s, rfl⟩
  | ⟨_, .listening _⟩ | ⟨_, .returned _⟩ => isFalse nofun

instance (c : Call) : Decidable c.IsListening :=
  match c with
  | ⟨_, .listening network⟩ => isTrue ⟨network, rfl⟩
  | ⟨_, .starting _⟩ | ⟨_, .returned _⟩ => isFalse nofun

instance (c : Call) : Decidable c.HasReturned :=
  match c with
  | ⟨_, .returned result⟩ => isTrue ⟨result, rfl⟩
  | ⟨_, .starting _⟩ | ⟨_, .listening _⟩ => isFalse fun ⟨_, h⟩ => nomatch h

instance (c : Call) : Decidable c.Succeeded :=
  match c with
  | ⟨_, .returned (.ok ())⟩ => isTrue rfl
  | ⟨_, .returned (.error _)⟩ | ⟨_, .starting _⟩ | ⟨_, .listening _⟩ => isFalse nofun

end Call

/-- What can happen to a service whose calls overlap. -/
inductive Act where
  /-- A call is made to listen on an address of a network. -/
  | listens (network : Network)
  /-- A call is made to start the service. -/
  | starts
  /-- A call is made to stop it. -/
  | stops
  /-- A listener ends. -/
  | ends (serial : Nat)
  /-- The start that is call `i` goes on past a listener that has ended. -/
  | passes (i : Nat)
  /-- The address that call `i` waits for is bound, and this is what it is bound to. -/
  | binds (i : Nat) (address : String)
  /-- The address that call `i` waits for cannot be bound. -/
  | fails (i : Nat) (e : ServiceError)
deriving Repr, DecidableEq

/-- Is this a new call? -/
def Act.IsCall : Act → Prop
  | listens _ | starts | stops => True
  | ends _ | passes _ | binds _ _ | fails _ _ => False

instance : (act : Act) → Decidable act.IsCall
  | .listens _ | .starts | .stops => isTrue trivial
  | .ends _ | .passes _ | .binds _ _ | .fails _ _ => isFalse id

/-- A service, the calls made to it, and what they have bound. -/
structure History where
  /-- The service. -/
  life : Lifecycle
  /-- The calls, in the order they were made. -/
  calls : List Call
  /-- For each listener the call that bound it. -/
  binders : List Nat
  /-- What the calls that were made to listen have bound. -/
  asked : List (Network × String)

namespace History

/-- A service that nobody has called yet. -/
def initial : History := ⟨.initial, [], [], []⟩

/-- The history with one more call. -/
def call (h : History) (c : Call) (life : Lifecycle) : History :=
  { h with life := life, calls := h.calls ++ [c] }

/-- The history with a call gone on. -/
def set (h : History) (i : Nat) (c : Call) (life : Lifecycle) : History :=
  { h with life := life, calls := h.calls.set i c }

section

variable {h : History} {i j : Nat} {c d old : Call} {life : Lifecycle}

/-- A call stays where it was when another is made. -/
theorem calls_call (hd : h.calls[j]? = some d) : (h.call c life).calls[j]? = some d :=
  (List.getElem?_append_left (List.getElem?_eq_some_iff.mp hd).1).trans hd

theorem calls_set_self (hi : h.calls[i]? = some old) : (h.set i c life).calls[i]? = some c :=
  List.getElem?_set_self (List.getElem?_eq_some_iff.mp hi).1

/-- When call `i` goes on, a call stays where it was or it is call `i`, -/
theorem calls_set (c : Call) (life : Lifecycle) (hi : h.calls[i]? = some old)
    (hd : h.calls[j]? = some d) :
    (d = old ∧ (h.set i c life).calls[j]? = some c) ∨ (h.set i c life).calls[j]? = some d := by
  by_cases hij : i = j
  · subst hij
    exact .inl ⟨Option.some.inj (hd.symm.trans hi), calls_set_self hi⟩
  · exact .inr ((List.getElem?_set_ne hij).trans hd)

/-- and so was every call that is found then. -/
theorem of_calls_set (hi : h.calls[i]? = some old) (hd : (h.set i c life).calls[j]? = some d) :
    (i = j ∧ d = c) ∨ (i ≠ j ∧ h.calls[j]? = some d) := by
  by_cases hij : i = j
  · subst hij
    exact .inl ⟨rfl, Option.some.inj (hd.symm.trans (calls_set_self hi))⟩
  · exact .inr ⟨hij, (List.getElem?_set_ne hij).symm.trans hd⟩

end

/-- The history with a listener that call `i` has bound. -/
def bind (h : History) (i : Nat) : History := { h with binders := h.binders ++ [i] }

/-- The history with one more address that was asked for. -/
def ask (h : History) (network : Network) (address : String) : History :=
  { h with asked := h.asked ++ [(network, address)] }

/-- A start that binds the address of `x` again, and goes on to the next, if there is one. -/
def rebind (h : History) (i : Nat) (took : List Listener) (x : Listener) (address : String) :
    List Listener → History
  | [] => (h.bind i).set i ⟨took, .returned (.ok ())⟩
      ((h.life.record x.network address).2.finish true)
  | y :: rest => (h.bind i).set i ⟨took, .starting (.binding (y :: rest))⟩
      (h.life.record x.network address).2

/-- Call `i` goes on past a listener that has ended, if it waits for one. -/
def pass (h : History) (i : Nat) : History :=
  match h.calls[i]? with
  | some ⟨took, .starting s⟩ =>
    match h.life.awaitEnd s with
    | some (s, life) => h.set i ⟨took, .starting s⟩ life
    | none => h
  | _ => h

/-- The address that call `i` waits for is bound, if it waits for one. -/
def succeed (h : History) (i : Nat) (address : String) : History :=
  match h.calls[i]? with
  | some ⟨took, .listening network⟩ =>
    ((h.bind i).ask network address).set i ⟨took, .returned (.ok ())⟩
      (h.life.spawned network address).2
  | some ⟨took, .starting (.binding (x :: rest))⟩ => h.rebind i took x address rest
  | _ => h

/-- The address that call `i` waits for cannot be bound, if it waits for one. -/
def fail (h : History) (i : Nat) (e : ServiceError) : History :=
  match h.calls[i]? with
  | some ⟨took, .listening _⟩ => h.set i ⟨took, .returned (.error e)⟩ h.life
  | some ⟨took, .starting (.binding (x :: rest))⟩ =>
    h.set i ⟨took, .returned (.error e)⟩ (h.life.giveUp (x :: rest))
  | _ => h

/-- A start is called for. -/
def start (h : History) : History :=
  match h.life.beginStart with
  | (.ok s, life) => h.call ⟨h.life.cache, .starting s⟩ life
  | (.error e, life) => h.call ⟨[], .returned (.error e)⟩ life

/-- **One act.** -/
def perform (h : History) : Act → History
  | .listens network => h.call ⟨[], .listening network⟩ h.life
  | .starts => h.start
  | .stops => h.call ⟨[], .returned h.life.stop.1⟩ h.life.stop.2
  | .ends serial => { h with life := h.life.noteEnd serial }
  | .passes i => h.pass i
  | .binds i address => h.succeed i address
  | .fails i e => h.fail i e

/-- **An interleaving**, one act after another. -/
def run (h : History) (acts : List Act) : History := acts.foldl perform h

@[simp] theorem run_nil (h : History) : h.run [] = h := rfl

@[simp] theorem run_cons (h : History) (act : Act) (acts : List Act) :
    h.run (act :: acts) = (h.perform act).run acts := rfl

theorem run_append (h : History) (acts more : List Act) :
    h.run (acts ++ more) = (h.run acts).run more := List.foldl_append ..

section

variable {h : History} {i : Nat} {took rest : List Listener} {x : Listener} {network : Network}

theorem perform_binds_new (address : String) (hi : h.calls[i]? = some ⟨took, .listening network⟩) :
    h.perform (.binds i address) = ((h.bind i).ask network address).set i ⟨took, .returned (.ok ())⟩
      (h.life.spawned network address).2 := by
  rw [perform, succeed, hi]

theorem perform_fails_new (e : ServiceError)
    (hi : h.calls[i]? = some ⟨took, .listening network⟩) :
    h.perform (.fails i e) = h.set i ⟨took, .returned (.error e)⟩ h.life := by
  rw [perform, fail, hi]

theorem perform_binds (address : String)
    (hi : h.calls[i]? = some ⟨took, .starting (.binding (x :: rest))⟩) :
    h.perform (.binds i address) = h.rebind i took x address rest := by
  rw [perform, succeed, hi]

theorem perform_fails (e : ServiceError)
    (hi : h.calls[i]? = some ⟨took, .starting (.binding (x :: rest))⟩) :
    h.perform (.fails i e) = h.set i ⟨took, .returned (.error e)⟩ (h.life.giveUp (x :: rest)) := by
  rw [perform, fail, hi]

end

/-! ## What an act can do -/

/-- **What an act can do without a new call.** -/
inductive Goes (h : History) : Act → History → Prop where
  /-- There is no occasion for it. -/
  | idle (act : Act) : Goes h act h
  /-- A listener ends. -/
  | ends (serial : Nat) : Goes h (.ends serial) { h with life := h.life.noteEnd serial }
  /-- A start goes on past a listener that has ended. -/
  | passes {i : Nat} {took taken rest : List Listener} {x : Listener}
      (hi : h.calls[i]? = some ⟨took, .starting (.waiting taken (x :: rest))⟩) :
      Goes h (.passes i) (h.set i ⟨took, .starting (.waiting taken rest)⟩
        (h.life.tell (rest.take 1)))
  /-- A start waits for no listener any more. -/
  | turns {i : Nat} {took taken : List Listener}
      (hi : h.calls[i]? = some ⟨took, .starting (.waiting taken [])⟩) :
      Goes h (.passes i) (h.set i ⟨took, .starting (.binding taken)⟩ h.life)
  /-- A call has bound the address it was made to listen on. -/
  | listens {i : Nat} {took : List Listener} {network : Network} {address : String}
      (hi : h.calls[i]? = some ⟨took, .listening network⟩) :
      Goes h (.binds i address) (((h.bind i).ask network address).set i ⟨took, .returned (.ok ())⟩
        (h.life.spawned network address).2)
  /-- It cannot be bound. -/
  | refuses {i : Nat} {took : List Listener} {network : Network} {e : ServiceError}
      (hi : h.calls[i]? = some ⟨took, .listening network⟩) :
      Goes h (.fails i e) (h.set i ⟨took, .returned (.error e)⟩ h.life)
  /-- A start has bound an address again, and goes on to the next. -/
  | rebinds {i : Nat} {took rest : List Listener} {x y : Listener} {address : String}
      (hi : h.calls[i]? = some ⟨took, .starting (.binding (x :: y :: rest))⟩) :
      Goes h (.binds i address) ((h.bind i).set i ⟨took, .starting (.binding (y :: rest))⟩
        (h.life.record x.network address).2)
  /-- A start has bound the last address again. -/
  | completes {i : Nat} {took : List Listener} {x : Listener} {address : String}
      (hi : h.calls[i]? = some ⟨took, .starting (.binding [x])⟩) :
      Goes h (.binds i address) ((h.bind i).set i ⟨took, .returned (.ok ())⟩
        ((h.life.record x.network address).2.finish true))
  /-- It cannot bind it. -/
  | givesUp {i : Nat} {took rest : List Listener} {x : Listener} {e : ServiceError}
      (hi : h.calls[i]? = some ⟨took, .starting (.binding (x :: rest))⟩) :
      Goes h (.fails i e) (h.set i ⟨took, .returned (.error e)⟩ (h.life.giveUp (x :: rest)))

/-- **What an act can do.** -/
inductive Moves (h : History) : Act → History → Prop where
  /-- No call is made. -/
  | goes {act : Act} {h' : History} (hgoes : Goes h act h') : Moves h act h'
  /-- A call is made that changes nothing yet, or never will. -/
  | calls {act : Act} (stage : Stage) (hstage : ∀ s, stage ≠ .starting s) :
      Moves h act (h.call ⟨[], stage⟩ h.life)
  /-- The service is stopped. -/
  | stops (hphase : h.life.phase ≠ .stopped) :
      Moves h .stops (h.call ⟨[], .returned (.ok ())⟩
        { h.life.tell h.life.cache with phase := .stopped })
  /-- A start begins. -/
  | starts (hphase : h.life.phase = .stopped) (hne : h.life.cache ≠ []) :
      Moves h .starts (h.call ⟨h.life.cache, .starting (.waiting h.life.cache h.life.cache)⟩
        { h.life.tell (h.life.cache.take 1) with phase := .starting, cache := [] })

theorem goes_pass (h : History) (i : Nat) : Goes h (.passes i) (h.pass i) := by
  unfold pass
  split
  · rename_i took s hi
    rcases s with ⟨taken, _ | ⟨x, rest⟩⟩ | rest
    · exact .turns hi
    · cases hended : h.life.hasEnded x <;> simp only [awaitEnd, hended]
      · exact .idle _
      · exact .passes hi
    · exact .idle _
  · exact .idle _

theorem goes_succeed (h : History) (i : Nat) (address : String) :
    Goes h (.binds i address) (h.succeed i address) := by
  unfold succeed
  split
  · exact .listens ‹_›
  · rename_i x rest hi
    cases rest with
    | nil => exact .completes hi
    | cons y rest => exact .rebinds hi
  · exact .idle _

theorem goes_fail (h : History) (i : Nat) (e : ServiceError) :
    Goes h (.fails i e) (h.fail i e) := by
  unfold fail
  split
  · exact .refuses ‹_›
  · exact .givesUp ‹_›
  · exact .idle _

theorem moves_start (h : History) : Moves h .starts h.start := by
  unfold start
  rcases beginStart_cases h.life with ⟨hphase, hne, hbegin⟩ | ⟨e, hbegin⟩ <;> rw [hbegin]
  · exact .starts hphase hne
  · exact .calls (.returned (.error e)) nofun

theorem moves_stop (h : History) : Moves h .stops (h.perform .stops) := by
  rw [perform]
  rcases stop_cases h.life with ⟨hphase, hstop⟩ | ⟨e, hstop⟩ <;> rw [hstop]
  · exact .stops hphase
  · exact .calls (.returned (.error e)) nofun

/-- **An act that is no call lets calls go on.** -/
theorem goes_perform (h : History) {act : Act} (hact : ¬act.IsCall) :
    Goes h act (h.perform act) := by
  cases act with
  | listens network => exact absurd trivial hact
  | starts => exact absurd trivial hact
  | stops => exact absurd trivial hact
  | ends serial => exact .ends serial
  | passes i => exact h.goes_pass i
  | binds i address => exact h.goes_succeed i address
  | fails i e => exact h.goes_fail i e

/-- **Every act is one of these moves.** -/
theorem moves_perform (h : History) (act : Act) : Moves h act (h.perform act) := by
  by_cases hact : act.IsCall
  · cases act with
    | listens network => exact .calls (.listening network) nofun
    | starts => exact h.moves_start
    | stops => exact h.moves_stop
    | _ => exact hact.elim
  · exact .goes (h.goes_perform hact)

/-- **What every move keeps holds after every interleaving.** -/
theorem run_induction {P : History → Prop} {h : History} (hstart : P h)
    (hmoves : ∀ {h h' : History} {act : Act}, P h → Moves h act h' → P h') (acts : List Act) :
    P (h.run acts) := by
  induction acts generalizing h with
  | nil => exact hstart
  | cons act acts ih => exact ih (hmoves hstart (h.moves_perform act))

/-- **What is kept while calls go on holds until the next one is made.** -/
theorem goes_induction {P : History → Prop} {h : History} (hstart : P h)
    (hgoes : ∀ {h h' : History} {act : Act}, P h → Goes h act h' → P h') {acts : List Act}
    (hacts : ∀ act ∈ acts, ¬act.IsCall) : P (h.run acts) := by
  induction acts generalizing h with
  | nil => exact hstart
  | cons act acts ih =>
    exact ih (hgoes hstart (h.goes_perform (hacts act List.mem_cons_self))) fun later hlater =>
      hacts later (List.mem_cons_of_mem _ hlater)

end History

end Lifecycle

end Switchboard
