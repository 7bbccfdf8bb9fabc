import Mathlib.Data.List.Basic
import Switchboard.Proofs.Service.Members

/-!
# Proofs/Service/Traffic — calls of the pool that come between each other

A handler may take its connection online or offline at any time, and a line that leaves is removed
from the pool.  Handlers run side by side, so a call of the pool is not one move but several
(`Traffic`): entries are read and changed under a lock, and whatever a call does to a connection
before or after that is done while others go on.  A call that is not interrupted comes to what the
move comes to (`Traffic.run_uninterrupted`).

What an act can do is said once (`Traffic.Does`).  Among all that happens are the changes of entries
(`Traffic.changes`), and they alone tell who is online (`Traffic.onlineAt_run`).
-/

namespace Switchboard

open Service (Move)

/-- **A call of the pool that is under way**, but for those that hold the lock. -/
inductive Errand where
  /-- A handler that takes its connection offline knows the name. -/
  | removes (user : String)
  /-- It has removed the entry of a connection, which still has the name in mind, -/
  | clears (c : Place)
  /-- and then is to be closed. -/
  | closes (c : Place)
  /-- A line that leaves knows the name of its connection. -/
  | evicts (i : Nat) (user : String) (c : Place)
deriving DecidableEq

namespace Errand

/-- The connection an errand is about. -/
def place? : Errand → Option Place
  | removes _ => none
  | clears c | closes c | evicts _ _ c => some c

/-- Is it the errand of line `i`, which leaves? -/
def isOf (i : Nat) : Errand → Bool
  | evicts j _ _ => j = i
  | _ => false

end Errand

/-- A service, and the calls of its pool that are under way. -/
structure Traffic where
  /-- The service. -/
  service : Service
  /-- Who is being registered, and under which name.  Meanwhile nobody else changes entries. -/
  registering : Option (String × Place)
  /-- The other calls. -/
  errands : List Errand

namespace Traffic

/-- What happens at a service whose handlers run side by side. -/
inductive Act where
  /-- A move; a call of the pool just begins by it. -/
  | moves (move : Move)
  /-- Who is being registered is entered, and the lock is released. -/
  | enters
  /-- A call takes its next step. -/
  | resumes (e : Errand)

/-- The service before anything happened. -/
def start (plan : Plan) (host : Host) : Traffic := ⟨.ofPlan plan host, none, []⟩

/-- The connections, the queues and the pool. -/
def hub (t : Traffic) : Hub := t.service.exchange.hub

/-- The traffic once the hub has changed. -/
def onHub (t : Traffic) (f : Hub → Hub) : Traffic :=
  { t with service := t.service.onExchange fun x => x.withHub (f x.hub) }

/-- The traffic after one move in one go. -/
def pass (t : Traffic) (move : Move) : Traffic := { t with service := t.service.perform move }

/-- The traffic once line `i` has left the pool. -/
def markLeft (t : Traffic) (i : Nat) : Traffic :=
  { t with service :=
    { t.service with lines := t.service.lines.modify i fun l => { l with stage := .left } } }

/-- Is line `i` about to leave? -/
def isParting (t : Traffic) (i : Nat) : Bool := t.errands.any (Errand.isOf i)

/-- The errand that a move comes to, if it comes to one: to go offline, a handler looks for the name
of its connection, as does a line that leaves. -/
def errand? (t : Traffic) : Move → Option Errand
  | .handles r .offline =>
    if t.hub.reachesPool r.place then (t.hub.connection r.place).username.map .removes else none
  | .leaves i =>
    (t.service.lines[i]?.filter fun l => l.IsDone).bind fun l =>
      (t.hub.connection l.place).username.map fun u => .evicts i u l.place
  | _ => none

/-- Begins an errand, or makes the move in one go. -/
def send (t : Traffic) (move : Move) : Traffic :=
  match t.errand? move with
  | some e => { t with errands := t.errands ++ [e] }
  | none => t.pass move

/-- **A move begins.**  To come online a handler gives up the entry under the previous name first,
once nobody else is being registered. -/
def begin (t : Traffic) (move : Move) : Traffic :=
  match move with
  | .handles r (.online u) =>
    if t.hub.reachesPool r.place then
      if t.registering.isSome then t
      else { t.onHub fun hub => hub.giveUp u r.place with registering := some (u, r.place) }
    else t.pass move
  | .leaves i => if t.isParting i then t else t.send move
  | _ => t.send move

/-- **An errand goes on** to its next step.  Where entries are changed nobody must be being
registered. -/
def resume (t : Traffic) (e : Errand) : Traffic :=
  let rest := t.errands.erase e
  match e with
  | .removes u =>
    if t.registering.isSome then t
    else
      let (owner, hub) := t.hub.removeEntry u
      { t.onHub fun _ => hub with errands := rest ++ (owner.map Errand.clears).toList }
  | .clears c => { t.onHub fun hub => hub.setName none c with errands := rest ++ [.closes c] }
  | .closes c => { t.onHub fun hub => hub.close c with errands := rest }
  | .evicts i u c =>
    if t.registering.isSome then t
    else { (t.onHub fun hub => hub.evict u c).markLeft i with errands := rest }

/-- **One act**; what cannot happen changes nothing. -/
def perform (t : Traffic) : Act → Traffic
  | .moves move => t.begin move
  | .enters =>
    match t.registering with
    | some (u, c) => { t.onHub fun hub => hub.enter u c with registering := none }
    | none => t
  | .resumes e => if e ∈ t.errands then t.resume e else t

/-- **Acts in any order**, one after another. -/
def run (t : Traffic) (acts : List Act) : Traffic := acts.foldl perform t

theorem run_append (t : Traffic) (acts more : List Act) :
    t.run (acts ++ more) = (t.run acts).run more := List.foldl_append ..

/-! ## Calls that are not interrupted -/

variable {t : Traffic} {s : Service} {r : Request} {u : String} {i : Nat} {l : Line} {move : Move}
variable {e : Errand}

theorem run_cons (t : Traffic) (act : Act) (acts : List Act) :
    t.run (act :: acts) = (t.perform act).run acts := rfl

/-- A move that comes to an errand only begins it. -/
theorem send_of_some (h : t.errand? move = some e) :
    t.send move = { t with errands := t.errands ++ [e] } := by
  rw [send, h]

/-- Any other move is made in one go. -/
theorem send_of_none (h : t.errand? move = none) : t.send move = t.pass move := by
  rw [send, h]

theorem perform_resumes (h : e ∈ t.errands) : t.perform (.resumes e) = t.resume e := if_pos h

/-- The errand of a line that leaves. -/
theorem errand?_leaves_eq_some_iff :
    t.errand? (.leaves i) = some e ↔ ∃ l u, t.service.lines[i]? = some l ∧ l.IsDone ∧
      (t.hub.connection l.place).username = some u ∧ e = .evicts i u l.place := by
  simp only [errand?, Option.bind_eq_some_iff, Option.map_eq_some_iff, Option.filter_eq_some_iff,
    decide_eq_true_eq]
  constructor
  · rintro ⟨l, ⟨hl, hdone⟩, u, hname, rfl⟩
    exact ⟨l, u, hl, hdone, hname, rfl⟩
  · rintro ⟨l, u, hl, hdone, hname, rfl⟩
    exact ⟨l, ⟨hl, hdone⟩, u, hname, rfl⟩

/-- Coming online, in one go, is a call of the pool. -/
theorem handle_online (hreach : s.exchange.hub.reachesPool r.place = true) (u : String) :
    s.perform (.handles r (.online u)) =
      s.onExchange fun x => x.withHub (x.hub.online u r.place) := by
  show s.handle r (.online u) = _
  rw [Service.handle, Service.onExchange, Turn.perform_online hreach]
  rfl

/-- Going offline, in one go, is a call of the pool. -/
theorem handle_offline (hreach : s.exchange.hub.reachesPool r.place = true) :
    s.perform (.handles r .offline) =
      s.onExchange fun x => x.withHub (Turn.goOffline r.place x.hub) := by
  show s.handle r .offline = _
  rw [Service.handle, Service.onExchange, Turn.perform_offline hreach]
  rfl

/-- Coming online is to give up the previous name and to enter. -/
theorem run_online (hreach : s.exchange.hub.reachesPool r.place = true) (u : String) :
    run ⟨s, none, []⟩ [.moves (.handles r (.online u)), .enters] =
      ⟨s.perform (.handles r (.online u)), none, []⟩ := by
  have hbegin : perform ⟨s, none, []⟩ (.moves (.handles r (.online u))) =
      ⟨s.onExchange fun x => x.withHub (x.hub.giveUp u r.place), some (u, r.place), []⟩ :=
    if_pos hreach
  have honline := Hub.online_of_pool (Bool.and_eq_true_iff.mp hreach).2 u r.place
  rw [run_cons, hbegin, handle_online hreach, Service.onExchange, Service.onExchange, honline]
  rfl

/-- The end of going offline. -/
theorem run_clears (s : Service) (d : Place) :
    run ⟨s, none, [.clears d]⟩ [.resumes (.clears d), .resumes (.closes d)] =
      ⟨s.onExchange fun x => x.withHub ((x.hub.setName none d).close d), none, []⟩ := by
  rw [run_cons, perform_resumes List.mem_cons_self, resume, List.erase_cons_head, List.nil_append,
    run_cons, perform_resumes List.mem_cons_self, resume, List.erase_cons_head]
  rfl

/-- Going offline is to look for the name, to remove its entry, and to clear and close whose it
was. -/
theorem run_offline (hreach : s.exchange.hub.reachesPool r.place = true) :
    ∃ acts, run ⟨s, none, []⟩ (.moves (.handles r .offline) :: acts) =
      ⟨s.perform (.handles r .offline), none, []⟩ := by
  have herrand : errand? ⟨s, none, []⟩ (.handles r .offline) =
      (s.exchange.hub.connection r.place).username.map .removes := if_pos hreach
  cases hname : (s.exchange.hub.connection r.place).username with
  | none =>
    rw [hname] at herrand
    exact ⟨[], send_of_none herrand⟩
  | some u =>
    rw [hname] at herrand
    have hbegin : perform ⟨s, none, []⟩ (.moves (.handles r .offline)) = ⟨s, none, [.removes u]⟩ :=
      send_of_some herrand
    have hresumes : perform ⟨s, none, [.removes u]⟩ (.resumes (.removes u)) =
        ⟨s.onExchange fun x => x.withHub (x.hub.removeEntry u).2, none,
          (((s.exchange.hub.removeEntry u).1).map .clears).toList⟩ := by
      rw [perform_resumes List.mem_cons_self, resume, List.erase_cons_head]
      rfl
    have hgo : s.perform (.handles r .offline) =
        s.onExchange fun x => x.withHub (x.hub.offline u).2 := by
      rw [handle_offline hreach, Service.onExchange, Turn.goOffline, hname]
      rfl
    rw [Hub.fst_removeEntry] at hresumes
    cases honline : s.exchange.hub.onlineAt u with
    | none =>
      refine ⟨[.resumes (.removes u)], ?_⟩
      rw [run_cons, hbegin, run_cons, hresumes, honline, hgo, Service.onExchange,
        Service.onExchange, Hub.offline_of_none honline, Hub.removeEntry, honline]
      rfl
    | some d =>
      refine ⟨[.resumes (.removes u), .resumes (.clears d), .resumes (.closes d)], ?_⟩
      rw [run_cons, hbegin, run_cons, hresumes, honline, hgo, Service.onExchange,
        Service.onExchange, Hub.offline_of_some honline]
      exact run_clears _ d

/-- Leaving is to look for the name and to remove its entry. -/
theorem run_leaves (s : Service) (i : Nat) :
    ∃ acts, run ⟨s, none, []⟩ (.moves (.leaves i) :: acts) = ⟨s.perform (.leaves i), none, []⟩ := by
  cases herrand : errand? ⟨s, none, []⟩ (.leaves i) with
  | none => exact ⟨[], send_of_none herrand⟩
  | some e =>
    obtain ⟨l, u, hi, hdone, hname, rfl⟩ := errand?_leaves_eq_some_iff.mp herrand
    have hbegin : perform ⟨s, none, []⟩ (.moves (.leaves i)) =
        ⟨s, none, [.evicts i u l.place]⟩ := send_of_some herrand
    refine ⟨[.resumes (.evicts i u l.place)], ?_⟩
    rw [run_cons, hbegin, run_cons, perform_resumes List.mem_cons_self, resume,
      List.erase_cons_head]
    have hforget : s.exchange.hub.forget l.place = s.exchange.hub.evict u l.place := by
      rw [Hub.forget, show (s.exchange.hub.connection l.place).username = some u from hname]
    have hleave : l.leave s.exchange = ({ l with stage := .left },
        s.exchange.withHub (s.exchange.hub.evict u l.place)) :=
      (if_pos hdone).trans (by rw [hforget])
    have hset : s.lines.modify i (fun l => { l with stage := .left }) =
        s.lines.set i { l with stage := .left } := by
      rw [List.modify_eq_set_getElem?, show s.lines[i]? = some l from hi]
      rfl
    show (⟨_, none, []⟩ : Traffic) = ⟨s.onLine i Line.leave, none, []⟩
    rw [Service.onLine, show s.lines[i]? = some l from hi]
    dsimp only
    rw [hleave, ← hset]
    rfl

/-- **A call that is not interrupted** comes to what the move comes to in one go. -/
theorem run_uninterrupted (s : Service) (move : Move) :
    ∃ acts, run ⟨s, none, []⟩ (.moves move :: acts) = ⟨s.perform move, none, []⟩ := by
  cases move with
  | leaves i => exact run_leaves s i
  | handles r a =>
    by_cases hreach : s.exchange.hub.reachesPool r.place = true
    · cases a with
      | online u => exact ⟨_, run_online hreach u⟩
      | offline => exact run_offline hreach
      | _ => exact ⟨[], rfl⟩
    · cases a with
      | online u => exact ⟨[], if_neg hreach⟩
      | offline => exact ⟨[], send_of_none (if_neg hreach)⟩
      | _ => exact ⟨[], rfl⟩
  | _ => exact ⟨[], rfl⟩

/-! ## What changes entries -/

/-- A change of entries. -/
inductive Change where
  /-- A connection is entered under a name. -/
  | enters (user : String) (c : Place)
  /-- The entry under a name is removed. -/
  | removes (user : String)
  /-- The entry under a name is removed if it is the connection's own. -/
  | evicts (user : String) (c : Place)
deriving DecidableEq

/-- Does a change end a registration of the connection under the name? -/
def Change.Ends (u : String) (c : Place) : Change → Prop
  | enters v _ | removes v => v = u
  | evicts v d => v = u ∧ d = c

instance (u : String) (c : Place) (change : Change) : Decidable (change.Ends u c) := by
  cases change <;> unfold Change.Ends <;> infer_instance

/-- The change that an act comes to, if it comes to one. -/
def change? (t : Traffic) : Act → Option Change
  | .moves (.handles r (.online u)) =>
    if t.hub.reachesPool r.place ∧ t.registering = none then
      ((t.hub.connection r.place).username.filter (· ≠ u)).map fun v => .evicts v r.place
    else none
  | .enters => t.registering.map fun (u, c) => .enters u c
  | .resumes (.removes u) =>
    if .removes u ∈ t.errands ∧ t.registering = none then some (.removes u) else none
  | .resumes (.evicts i u c) =>
    if .evicts i u c ∈ t.errands ∧ t.registering = none then some (.evicts u c) else none
  | _ => none

/-- Only what enters somebody is an entry. -/
theorem change?_eq_enters_iff {act : Act} {c : Place} :
    t.change? act = some (.enters u c) ↔ act = .enters ∧ t.registering = some (u, c) := by
  constructor
  · intro h
    unfold change? at h
    split at h
    · obtain ⟨-, hsome⟩ := Option.ite_none_right_eq_some.mp h
      obtain ⟨_, -, heq⟩ := Option.map_eq_some_iff.mp hsome
      exact nomatch heq
    · obtain ⟨⟨v, d⟩, hregistering, heq⟩ := Option.map_eq_some_iff.mp h
      obtain ⟨rfl, rfl⟩ := Change.enters.inj heq
      exact ⟨rfl, hregistering⟩
    · exact nomatch (Option.ite_none_right_eq_some.mp h).2
    · exact nomatch (Option.ite_none_right_eq_some.mp h).2
    · exact nomatch h
  · rintro ⟨rfl, hregistering⟩
    exact congrArg (Option.map _) hregistering

/-- **The changes of entries** in a series of acts, in order. -/
def changes (t : Traffic) : List Act → List Change
  | [] => []
  | act :: acts => (t.change? act).toList ++ (t.perform act).changes acts

/-! ## What an act can do -/

variable {t' : Traffic} {act : Act} {c d : Place} {v : String} {j : Nat}

/-- **What an act can do.** -/
inductive Does (t : Traffic) : Act → Traffic → Prop where
  /-- Nothing. -/
  | waits {act : Act} (hchange : t.change? act = none) : Does t act t
  /-- A move is made in one go, and changes neither entries nor names. -/
  | passes {move : Move} (hchange : t.change? (.moves move) = none)
      (hunmoved : t.service.exchange.Unmoved (t.service.perform move).exchange)
      (hleaves : ∀ i, move = .leaves i → t.isParting i = false ∧ t.errand? move = none) :
      Does t (.moves move) (t.pass move)
  /-- An errand begins. -/
  | sends {move : Move} {e : Errand} (herrand : t.errand? move = some e)
      (halone : ∀ i, move = .leaves i → t.isParting i = false) :
      Does t (.moves move) { t with errands := t.errands ++ [e] }
  /-- An entry is given up, and somebody is being registered. -/
  | gives {r : Request} {u : String} (hfree : t.registering = none)
      (hreach : t.hub.reachesPool r.place = true) :
      Does t (.moves (.handles r (.online u)))
        { t.onHub fun hub => hub.giveUp u r.place with registering := some (u, r.place) }
  /-- Who is being registered is entered. -/
  | enters {u : String} {c : Place} (hregistering : t.registering = some (u, c)) :
      Does t .enters { t.onHub fun hub => hub.enter u c with registering := none }
  /-- An entry is removed. -/
  | removes {u : String} (hmem : .removes u ∈ t.errands) (hfree : t.registering = none) :
      Does t (.resumes (.removes u))
        { t.onHub fun hub => (hub.removeEntry u).2 with
          errands := t.errands.erase (.removes u) ++ ((t.hub.onlineAt u).map .clears).toList }
  /-- A name is cleared. -/
  | clears {c : Place} (hmem : .clears c ∈ t.errands) :
      Does t (.resumes (.clears c))
        { t.onHub fun hub => hub.setName none c with
          errands := t.errands.erase (.clears c) ++ [.closes c] }
  /-- A connection is closed. -/
  | closes {c : Place} (hmem : .closes c ∈ t.errands) :
      Does t (.resumes (.closes c))
        { t.onHub fun hub => hub.close c with errands := t.errands.erase (.closes c) }
  /-- A line has left. -/
  | evicts {i : Nat} {u : String} {c : Place} (hmem : .evicts i u c ∈ t.errands)
      (hfree : t.registering = none) :
      Does t (.resumes (.evicts i u c))
        { (t.onHub fun hub => hub.evict u c).markLeft i with
          errands := t.errands.erase (.evicts i u c) }

/-- A move that begins no errand changes neither entries nor names. -/
theorem unmoved_of_errand? (hs : t.service.Seated) (herrand : t.errand? move = none)
    (hmove : ∀ r u, move = .handles r (.online u) → t.hub.reachesPool r.place ≠ true) :
    t.service.exchange.Unmoved (t.service.perform move).exchange := by
  refine Service.unmoved_perform hs fun call hcall => ?_
  rcases Service.poolCall?_cases hcall with
    ⟨i, l, rfl, hi, hdone, rfl⟩ | ⟨r, u, rfl, hreach, -⟩ | ⟨r, u, rfl, hreach, hname, -⟩
  · refine ⟨_, rfl, Option.eq_none_iff_forall_ne_some.mpr fun u hname => ?_⟩
    exact nomatch herrand.symm.trans (errand?_leaves_eq_some_iff.mpr ⟨l, u, hi, hdone, hname, rfl⟩)
  · exact absurd hreach (hmove r u rfl)
  · have hsome : t.errand? (.handles r .offline) = some (.removes u) :=
      (if_pos hreach).trans (congrArg (Option.map Errand.removes) hname)
    exact nomatch herrand.symm.trans hsome

/-- What just begins changes no entries, unless somebody comes online. -/
theorem change?_of_errand? (herrand : t.errand? move = some e) :
    t.change? (.moves move) = none := by
  cases move with
  | handles r a => cases a <;> first | rfl | exact nomatch herrand
  | _ => rfl

theorem does_send (hs : t.service.Seated)
    (hchange : t.errand? move = none → t.change? (.moves move) = none)
    (hmove : ∀ r u, move = .handles r (.online u) → t.hub.reachesPool r.place ≠ true)
    (hleaves : ∀ i, move = .leaves i → t.isParting i = false) :
    Does t (.moves move) (t.send move) := by
  cases herrand : t.errand? move with
  | some e =>
    rw [send_of_some herrand]
    exact .sends herrand hleaves
  | none =>
    rw [send_of_none herrand]
    exact .passes (hchange herrand) (unmoved_of_errand? hs herrand hmove)
      fun i hi => ⟨hleaves i hi, herrand⟩

/-- **Every move begins in one of these ways.** -/
theorem does_begin (hs : t.service.Seated) (move : Move) :
    Does t (.moves move) (t.begin move) := by
  unfold begin
  split
  · rename_i r u
    split
    · rename_i hreach
      split
      · rename_i hbusy
        exact .waits (if_neg fun h => by rw [h.2] at hbusy; exact nomatch hbusy)
      · rename_i hfree
        exact .gives (Option.not_isSome_iff_eq_none.mp hfree) hreach
    · rename_i hreach
      refine .passes (if_neg fun h => hreach h.1) (unmoved_of_errand? hs rfl ?_) nofun
      rintro _ _ ⟨⟩
      exact hreach
  · rename_i i
    split
    · exact .waits rfl
    · rename_i hparting
      refine does_send hs (fun _ => rfl) nofun ?_
      rintro _ ⟨⟩
      exact Bool.eq_false_iff.mpr hparting
  · rename_i hhandles hleaves
    refine does_send hs (fun _ => ?_) (fun r u h => absurd h (hhandles r u))
      fun i h => absurd h (hleaves i)
    cases move with
    | handles r a => cases a <;> first | rfl | exact absurd rfl (hhandles r _)
    | _ => rfl

/-- **Every errand goes on in one of these ways.** -/
theorem does_resume (hmem : e ∈ t.errands) : Does t (.resumes e) (t.resume e) := by
  by_cases hbusy : t.registering.isSome = true
  · -- Whoever changes entries waits, and the others need not.
    have hne : t.registering ≠ none := fun h => by rw [h] at hbusy; exact nomatch hbusy
    cases e with
    | clears c => exact .clears hmem
    | closes c => exact .closes hmem
    | removes | evicts =>
      rw [resume, if_pos hbusy]
      exact .waits (if_neg fun h => hne h.2)
  · have hfree := Option.not_isSome_iff_eq_none.mp hbusy
    cases e with
    | clears c => exact .clears hmem
    | closes c => exact .closes hmem
    | removes u =>
      have hremoves := Does.removes hmem hfree
      rw [← Hub.fst_removeEntry] at hremoves
      rwa [resume, if_neg hbusy]
    | evicts i u c =>
      rw [resume, if_neg hbusy]
      exact .evicts hmem hfree

/-- **Every act is one of these.** -/
theorem does_perform (hs : t.service.Seated) (act : Act) : Does t act (t.perform act) := by
  cases act with
  | moves move => exact does_begin hs move
  | enters =>
    rw [perform]
    cases hregistering : t.registering with
    | none => exact .waits (congrArg (Option.map _) hregistering)
    | some r => exact .enters hregistering
  | resumes e =>
    by_cases hmem : e ∈ t.errands
    · rw [perform_resumes hmem]
      exact does_resume hmem
    · have hwaits : t.perform (.resumes e) = t := if_neg hmem
      rw [hwaits]
      refine .waits ?_
      cases e with
      | removes | evicts => exact if_neg fun h => hmem h.1
      | clears | closes => rfl

/-! ## What every act keeps -/

/-- **Connections last**, whatever is done. -/
theorem Does.lasts (h : Does t act t') : t.service.exchange.Lasts t'.service.exchange := by
  cases h with
  | waits | sends => exact (Exchange.Steady.refl _).unmoved.toLasts
  | passes _ hunmoved _ => exact hunmoved.toLasts
  | gives => exact Exchange.lasts_of_onlyPool (Hub.onlyPool_giveUp ..)
  | enters =>
    refine Exchange.lasts_withHub (Hub.samePlaces_enter t.hub _ _) fun c hclosed => ?_
    rw [(Hub.onlyPool_enter ..).connection, Hub.closed_setName]
    exact hclosed
  | removes => exact Exchange.lasts_of_onlyPool (Hub.onlyPool_removeEntry ..)
  | clears =>
    refine Exchange.lasts_withHub (Hub.samePlaces_setName t.hub _ _) fun c hclosed => ?_
    rw [Hub.closed_setName]
    exact hclosed
  | closes => exact (Exchange.steady_close _ _).unmoved.toLasts
  | evicts => exact Exchange.lasts_of_onlyPool (Hub.onlyPool_evict ..)

/-- **The traffic is in order**: lines have connections, connections are numbered in turn, whoever
is online, about to be, or called upon is one of them, and nobody leaves twice at a time. -/
structure Sound (t : Traffic) : Prop where
  seated : t.service.Seated
  numbered : t.service.exchange.Numbered
  entries : ∀ u c, t.hub.onlineAt u = some c → c < t.hub.connections.length
  registering : ∀ u c, t.registering = some (u, c) →
    t.hub.pool.isSome = true ∧ c < t.hub.connections.length
  errands : ∀ e ∈ t.errands, ∀ c ∈ e.place?, c < t.hub.connections.length
  alone : ∀ i u c v d, .evicts i u c ∈ t.errands → .evicts i v d ∈ t.errands → u = v ∧ c = d

/-- Only whoever is online under a name owns the entry. -/
theorem Sound.owns_iff (ht : t.Sound) (hd : d < t.hub.connections.length)
    (honline : t.hub.onlineAt u = some c) : t.hub.Owns d u ↔ d = c :=
  ht.numbered.distinct.owns_iff (ht.entries u c honline) hd honline

/-- **To give up an entry** is to remove one's own under the name in mind. -/
theorem Sound.onlineAt_giveUp (ht : t.Sound) (hfree : t.registering = none)
    (hreach : t.hub.reachesPool r.place = true) (v : String) :
    (t.hub.giveUp v r.place).onlineAt u = some c ↔
      (∀ change ∈ t.change? (.moves (.handles r (.online v))), ¬change.Ends u c) ∧
        t.hub.onlineAt u = some c := by
  have hchange : t.change? (.moves (.handles r (.online v))) =
      ((t.hub.connection r.place).username.filter (· ≠ v)).map fun w => .evicts w r.place :=
    if_pos ⟨hreach, hfree⟩
  rw [Hub.onlineAt_giveUp, hchange]
  refine and_congr_left fun honline => ?_
  constructor
  · intro hkeeps change hmem
    obtain ⟨w, hfilter, rfl⟩ := Option.map_eq_some_iff.mp hmem
    obtain ⟨hname, hne⟩ := Option.filter_eq_some_iff.mp hfilter
    rintro ⟨rfl, rfl⟩
    exact hkeeps ⟨of_decide_eq_true hne, hname, _, honline, rfl⟩
  · rintro hkeeps ⟨hne, hname, howns⟩
    refine hkeeps (.evicts u r.place) (Option.map_eq_some_iff.mpr ⟨u, ?_, rfl⟩) ⟨rfl, ?_⟩
    · exact Option.filter_eq_some_iff.mpr ⟨hname, decide_eq_true hne⟩
    · exact (ht.owns_iff (Service.lt_of_reachesPool hreach) honline).mp howns

/-- **To leave** is to remove one's own entry under the name found. -/
theorem Sound.onlineAt_evict (ht : t.Sound) (hd : d < t.hub.connections.length) (v : String) :
    (t.hub.evict v d).onlineAt u = some c ↔
      ¬(Change.evicts v d).Ends u c ∧ t.hub.onlineAt u = some c := by
  rw [Hub.onlineAt_evict, Change.Ends]
  refine and_congr_left fun honline => ?_
  rw [ht.owns_iff hd honline, eq_comm (a := v)]

/-- **What an act does to the entry under a name** is what its change does. -/
theorem Does.onlineAt (h : Does t act t') (ht : t.Sound) (u : String) (c : Place) :
    t'.hub.onlineAt u = some c ↔ t.change? act = some (.enters u c) ∨
      (∀ change ∈ t.change? act, ¬change.Ends u c) ∧ t.hub.onlineAt u = some c := by
  -- Who changes no entries leaves them.
  have hsame (hchange : t.change? act = none) (hentries : t'.hub.onlineAt u = t.hub.onlineAt u) :
      t'.hub.onlineAt u = some c ↔ t.change? act = some (.enters u c) ∨
        (∀ change ∈ t.change? act, ¬change.Ends u c) ∧ t.hub.onlineAt u = some c := by
    simp [hchange, hentries]
  cases h with
  | waits hchange => exact hsame hchange rfl
  | passes hchange hunmoved _ => exact hsame hchange (congrArg (Option.bind · _) hunmoved.entries)
  | sends herrand _ => exact hsame (change?_of_errand? herrand) rfl
  | clears | closes => exact hsame rfl rfl
  | gives hfree hreach =>
    refine (ht.onlineAt_giveUp hfree hreach _).trans (or_iff_right fun hsome => ?_).symm
    exact nomatch (change?_eq_enters_iff.mp hsome).1
  | @enters v d hregistering =>
    have hchange : t.change? .enters = some (.enters v d) := congrArg (Option.map _) hregistering
    show (t.hub.enter v d).onlineAt u = some c ↔ _
    rw [Hub.onlineAt_enter (ht.registering v d hregistering).1, hchange]
    simp [Change.Ends, eq_comm]
  | @removes v hmem hfree =>
    have hchange : t.change? (.resumes (.removes v)) = some (.removes v) := if_pos ⟨hmem, hfree⟩
    show (t.hub.removeEntry v).2.onlineAt u = some c ↔ _
    rw [Hub.onlineAt_removeEntry, hchange]
    simp [Change.Ends, eq_comm]
  | @evicts i v d hmem hfree =>
    have hchange : t.change? (.resumes (.evicts i v d)) = some (.evicts v d) :=
      if_pos ⟨hmem, hfree⟩
    refine (ht.onlineAt_evict (ht.errands _ hmem d rfl) v).trans ?_
    rw [hchange]
    simp

/-- A line is about to leave while its errand is under way. -/
theorem isParting_iff : t.isParting i = true ↔ ∃ u c, .evicts i u c ∈ t.errands := by
  rw [isParting, List.any_eq_true]
  constructor
  · rintro ⟨e, hmem, hof⟩
    cases e with
    | evicts j u c =>
      obtain rfl : j = i := of_decide_eq_true hof
      exact ⟨u, c, hmem⟩
    | _ => exact nomatch hof
  · rintro ⟨u, c, hmem⟩
    exact ⟨_, hmem, decide_eq_true rfl⟩

/-- The connection of an errand that begins is one there is. -/
theorem lt_of_errand? (hs : t.service.Seated) (h : t.errand? move = some e) :
    ∀ c ∈ e.place?, c < t.hub.connections.length := by
  unfold errand? at h
  split at h
  · obtain ⟨-, hsome⟩ := Option.ite_none_right_eq_some.mp h
    obtain ⟨u, -, rfl⟩ := Option.map_eq_some_iff.mp hsome
    nofun
  · rename_i i
    obtain ⟨l, u, hi, -, -, rfl⟩ := errand?_leaves_eq_some_iff.mp h
    rintro _ ⟨⟩
    exact (hs i l hi).place
  · exact nomatch h

/-- Only a line that leaves knows its name. -/
theorem eq_leaves_of_errand? (h : t.errand? move = some (.evicts i u c)) : move = .leaves i := by
  have hall := h
  unfold errand? at h
  split at h
  · obtain ⟨-, hsome⟩ := Option.ite_none_right_eq_some.mp h
    obtain ⟨_, -, hremoves⟩ := Option.map_eq_some_iff.mp hsome
    exact nomatch hremoves
  · obtain ⟨l, v, -, -, -, heq⟩ := errand?_leaves_eq_some_iff.mp hall
    rw [(Errand.evicts.inj heq).1]
  · exact nomatch h

/-- **An errand was under way before**, or it begins, or it is what going offline comes to next. -/
theorem Does.errand (h : Does t act t') (hmem : e ∈ t'.errands) :
    e ∈ t.errands ∨
      (∃ move, act = .moves move ∧ t.errand? move = some e ∧
        ∀ i, move = .leaves i → t.isParting i = false) ∨
      (∃ u c, e = .clears c ∧ t.hub.onlineAt u = some c) ∨
      ∃ c, e = .closes c ∧ .clears c ∈ t.errands := by
  cases h with
  | waits | passes | gives | enters => exact .inl hmem
  | sends herrand halone =>
    rcases List.mem_append.mp hmem with hmem | hmem
    · exact .inl hmem
    · obtain rfl := List.mem_singleton.mp hmem
      exact .inr (.inl ⟨_, rfl, herrand, halone⟩)
  | @removes u =>
    rcases List.mem_append.mp hmem with hmem | hmem
    · exact .inl (List.mem_of_mem_erase hmem)
    · obtain ⟨c, honline, rfl⟩ := Option.map_eq_some_iff.mp (Option.mem_toList.mp hmem)
      exact .inr (.inr (.inl ⟨u, c, rfl, honline⟩))
  | @clears c hclears =>
    rcases List.mem_append.mp hmem with hmem | hmem
    · exact .inl (List.mem_of_mem_erase hmem)
    · exact .inr (.inr (.inr ⟨c, List.mem_singleton.mp hmem, hclears⟩))
  | closes | evicts => exact .inl (List.mem_of_mem_erase hmem)

/-- **Whoever knows the name of a line that leaves** knew it, or the line begins to leave. -/
theorem Does.evicting (h : Does t act t') (hmem : .evicts i u c ∈ t'.errands) :
    .evicts i u c ∈ t.errands ∨ act = .moves (.leaves i) ∧ t.isParting i = false ∧
      t.errand? (.leaves i) = some (.evicts i u c) := by
  rcases h.errand hmem with hbefore | ⟨move, rfl, herrand, halone⟩ | ⟨_, _, heq, -⟩ | ⟨_, heq, -⟩
  · exact .inl hbefore
  · obtain rfl := eq_leaves_of_errand? herrand
    exact .inr ⟨rfl, halone i rfl, herrand⟩
  · exact nomatch heq
  · exact nomatch heq

/-- An errand stays until it goes on. -/
theorem Does.mem_errands (h : Does t act t') (hmem : e ∈ t.errands) (hact : act ≠ .resumes e) :
    e ∈ t'.errands := by
  have herase {e' : Errand} (hne : Act.resumes e' ≠ .resumes e) : e ∈ t.errands.erase e' :=
    (List.mem_erase_of_ne fun h => hne (congrArg Act.resumes h.symm)).mpr hmem
  cases h with
  | waits | passes | gives | enters => exact hmem
  | sends => exact List.mem_append_left _ hmem
  | removes | clears => exact List.mem_append_left _ (herase hact)
  | closes | evicts => exact herase hact

/-- **Who is being registered** was before, or gave up its entry. -/
theorem Does.registering (h : Does t act t') (hsome : t'.registering = some (u, c)) :
    t.registering = some (u, c) ∨ t.registering = none ∧ t.hub.reachesPool c = true ∧
      ∃ r, act = .moves (.handles r (.online u)) ∧ r.place = c := by
  cases h with
  | gives hfree hreach =>
    obtain ⟨rfl, rfl⟩ := Prod.mk.inj (Option.some.inj hsome)
    exact .inr ⟨hfree, hreach, _, rfl, rfl⟩
  | enters => exact nomatch hsome
  | _ => exact .inl hsome

/-- Every line keeps its connection over one act. -/
theorem Does.seated (h : Does t act t') (hs : t.service.Seated) : t'.service.Seated := by
  have hlater := h.lasts.later
  cases h with
  | passes => exact Service.seated_perform hs _
  | evicts =>
    intro j l' hj
    have hj : (t.service.lines.modify _ _)[j]? = some l' := hj
    rw [List.getElem?_modify] at hj
    obtain ⟨l, hl, rfl⟩ := Option.map_eq_some_iff.mp hj
    have hsits := Service.sits_of_later (hs j l hl) hlater
    split
    · exact ⟨hsits.place, hsits.closed⟩
    · exact hsits
  | _ => exact fun i l hi => Service.sits_of_later (hs i l hi) hlater

/-- **Every act keeps the order.** -/
theorem Sound.does (ht : t.Sound) (h : Does t act t') : t'.Sound := by
  have hlasts := h.lasts
  have hlength (c : Place) (hc : c < t.hub.connections.length) : c < t'.hub.connections.length :=
    Nat.lt_of_lt_of_le hc hlasts.later.length
  refine ⟨h.seated ht.seated, hlasts.numbered ht.numbered, fun u c honline => ?_,
    fun u c hsome => ?_, fun e hmem c hc => ?_, fun i u c v d hu hv => ?_⟩
  · rcases (h.onlineAt ht u c).mp honline with hchange | ⟨-, hbefore⟩
    · exact hlength c (ht.registering u c (change?_eq_enters_iff.mp hchange).2).2
    · exact hlength c (ht.entries u c hbefore)
  · have hthere : t.hub.pool.isSome = true ∧ c < t.hub.connections.length := by
      rcases h.registering hsome with hbefore | ⟨-, hreach, -⟩
      · exact ht.registering u c hbefore
      · exact ⟨(Bool.and_eq_true_iff.mp hreach).2, Service.lt_of_reachesPool hreach⟩
    exact ⟨hlasts.pool.trans hthere.1, hlength c hthere.2⟩
  · refine hlength c ?_
    rcases h.errand hmem with hbefore | ⟨move, -, herrand, -⟩ | ⟨u, d, rfl, honline⟩ |
      ⟨d, rfl, hclears⟩
    · exact ht.errands e hbefore c hc
    · exact lt_of_errand? ht.seated herrand c hc
    · obtain rfl := Option.some.inj hc
      exact ht.entries u _ honline
    · exact ht.errands _ hclears c hc
  · have hparting {u : String} {c : Place} (hmem : .evicts i u c ∈ t.errands)
        (halone : t.isParting i = false) : False :=
      Bool.false_ne_true (halone.symm.trans (isParting_iff.mpr ⟨u, c, hmem⟩))
    rcases h.evicting hu with hu | ⟨-, halone, hu⟩ <;>
      rcases h.evicting hv with hv | ⟨-, halone', hv⟩
    · exact ht.alone i u c v d hu hv
    · exact (hparting hu halone').elim
    · exact (hparting hv halone).elim
    · have hsame := Option.some.inj (hu.symm.trans hv)
      exact (Errand.evicts.inj hsame).2

/-- What is known of the traffic is known after one act. -/
theorem Sound.perform (ht : t.Sound) (act : Act) : (t.perform act).Sound :=
  ht.does (does_perform ht.seated act)

/-- What is known of the traffic is known after all acts. -/
theorem Sound.run (ht : t.Sound) (acts : List Act) : (t.run acts).Sound := by
  induction acts generalizing t with
  | nil => exact ht
  | cons act acts ih => exact ih (ht.perform act)

/-- At first nobody is online. -/
theorem onlineAt_start (plan : Plan) (host : Host) (u : String) :
    (start plan host).hub.onlineAt u = none := by
  show (Hub.empty plan.settings.hasPool).pool.bind _ = none
  unfold Hub.empty
  split <;> rfl

theorem sound_start (plan : Plan) (host : Host) : (start plan host).Sound where
  seated := Service.seated_ofPlan plan host
  numbered := Exchange.numbered_ofPlan plan
  entries u _ honline := nomatch (onlineAt_start plan host u).symm.trans honline
  registering := nofun
  errands := nofun
  alone := nofun

/-! ## The history of the pool -/

/-- **The changes tell who is online**: a connection was entered under the name, or was under it in
the first place, and no change has ended that. -/
theorem onlineAt_run (ht : t.Sound) (acts : List Act) (u : String) (c : Place) :
    (t.run acts).hub.onlineAt u = some c ↔
      (∃ before after, acts = before ++ .enters :: after ∧
        (t.run before).registering = some (u, c) ∧
        ∀ change ∈ ((t.run before).perform .enters).changes after, ¬change.Ends u c) ∨
      (∀ change ∈ t.changes acts, ¬change.Ends u c) ∧ t.hub.onlineAt u = some c := by
  induction acts generalizing t with
  | nil => simp [run, changes]
  | cons act acts ih =>
    have hact := (does_perform ht.seated act).onlineAt ht u c
    have hchanges : t.changes (act :: acts) =
      (t.change? act).toList ++ (t.perform act).changes acts := rfl
    rw [run_cons, ih (ht.perform act), hact, change?_eq_enters_iff]
    constructor
    · rintro (⟨before, after, rfl, hregistering, hafter⟩ |
        ⟨hkeeps, ⟨rfl, hregistering⟩ | ⟨hkeep, hfirst⟩⟩)
      · exact .inl ⟨act :: before, after, rfl, hregistering, hafter⟩
      · exact .inl ⟨[], acts, rfl, hregistering, hkeeps⟩
      · refine .inr ⟨?_, hfirst⟩
        rw [hchanges, List.forall_mem_append]
        exact ⟨fun change hmem => hkeep change (Option.mem_toList.mp hmem), hkeeps⟩
    · rintro (⟨_ | ⟨_, before⟩, after, heq, hregistering, hafter⟩ | ⟨hkeeps, hfirst⟩)
      · obtain ⟨rfl, rfl⟩ := List.cons.inj heq
        exact .inr ⟨hafter, .inl ⟨rfl, hregistering⟩⟩
      · obtain ⟨rfl, rfl⟩ := List.cons.inj heq
        exact .inl ⟨before, after, rfl, hregistering, hafter⟩
      · rw [hchanges, List.forall_mem_append] at hkeeps
        exact .inr ⟨hkeeps.2, .inr ⟨fun change hmem =>
          hkeeps.1 change (Option.mem_toList.mpr hmem), hfirst⟩⟩

end Traffic

end Switchboard
