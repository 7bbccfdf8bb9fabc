import Switchboard.Proofs.Session.Apart
import Switchboard.Proofs.Session.Trace
import Switchboard.Service.Exchange

/-!
# Proofs/Session/Performs — a chain is one action after another

However handlers are nested, and however often the chain is started over, what the chain of a
request makes of the hub is made by actions that serve this request, one after another
(`Hub.Performed`, `Hub.performed_dispatch`).  So a request of a connection that cannot reach the
pool does nothing but work for its own connection (`Exchange.works_serve`).
-/

namespace Switchboard

namespace Hub

variable {hub hub' hub'' : Hub} {c : Place} {block : Bytes}

/-- The hub after an action that serves a request. -/
def afterAction (hub : Hub) (r : Request) (a : Action) : Hub :=
  (Turn.perform id a ⟨⟨hub, [], []⟩, r, false⟩).2.desk.hub

/-- **What a request has made of the hub**: one action after another. -/
inductive Performed (c : Place) (block : Bytes) (hub : Hub) : Hub → Prop where
  /-- Nothing was done. -/
  | nothing : Performed c block hub hub
  /-- One more action was performed. -/
  | action {hub' : Hub} (r : Request) (a : Action) (h : Performed c block hub hub')
      (hplace : r.place = c) (hblock : r.block = block) :
      Performed c block hub (hub'.afterAction r a)

theorem Performed.trans (h : Performed c block hub hub') (h' : Performed c block hub' hub'') :
    Performed c block hub hub'' := by
  induction h' with
  | nothing => exact h
  | action r a _ hplace hblock ih => exact .action r a ih hplace hblock

/-- Out of reach of the pool all of it is done at the place of the request. -/
theorem Performed.works (h : Performed c block hub hub') (hreach : hub.reachesPool c = false) :
    hub.Works c hub' := by
  induction h with
  | nothing => exact .nothing
  | @action hub' r a _ hplace _ ih =>
    have hstays : hub'.reachesPool r.place = false := by
      rw [reachesPool, (Connection.sameMake_of_made (ih.onlyAt.made r.place)).pooled, ih.pool,
        hplace]
      exact hreach
    exact .acts ih (hplace ▸ acts_perform_of_not_reaches ⟨⟨hub', [], []⟩, r, false⟩ a hstays)

end Hub

namespace Turn

variable {t t' t'' : Turn} {rest : Turn → Turn}

/-- What an action does to the hub depends on the hub and the request alone. -/
theorem hub_perform (rest : Turn → Turn) (t : Turn) {a : Action} (hnext : a ≠ .next) :
    (perform rest a t).2.desk.hub = t.desk.hub.afterAction t.request a := by
  unfold Hub.afterAction
  cases a with
  | next => exact absurd rfl hnext
  | messageId | header | urlPattern | bind | bindWith => simp only [perform, snd_viewing]
  | replyJson | online | offline =>
    simp only [perform, sendPacked, withPool, snd_trying, hub_withHub]
  | reply | replyRaw | replyUrl | fill | sendToUser =>
    simp only [perform, sendPacked, withPool, snd_trying, hub_withHub]
    rfl
  | sendBack beat =>
    have hsame : (⟨⟨t.desk.hub, [], []⟩, t.request, false⟩ : Turn).packer = t.packer := rfl
    unfold perform
    dsimp only
    rw [hsame]
    cases Block.idOf t.request.block with
    | error e => rfl
    | ok id =>
      dsimp only
      split
      · rfl
      · simp only [sendPacked, snd_trying]
        rfl
  | upper id =>
    have hsame : (⟨⟨t.desk.hub, [], []⟩, t.request, false⟩ : Turn).packer = t.packer := rfl
    unfold perform
    dsimp only
    rw [hsame]
    cases t.packer.unpack .text t.request.block with
    | error e => rfl
    | ok m =>
      simp only [sendPacked, snd_trying]
      rfl
  | _ => rfl

/-- **The turn goes on** with the same request, by actions that serve it. -/
structure Onward (t t' : Turn) : Prop where
  place : t'.request.place = t.request.place
  block : t'.request.block = t.request.block
  hub : Hub.Performed t.request.place t.request.block t.desk.hub t'.desk.hub

theorem Onward.refl (t : Turn) : Onward t t := ⟨rfl, rfl, .nothing⟩

theorem Onward.trans (h : Onward t t') (h' : Onward t' t'') : Onward t t'' where
  place := h'.place.trans h.place
  block := h'.block.trans h.block
  hub := by
    have hub' := h'.hub
    rw [h.place, h.block] at hub'
    exact h.hub.trans hub'

/-- A turn with another log, other counts or another place in the chain. -/
theorem Onward.of_same (hplace : t'.request.place = t.request.place)
    (hblock : t'.request.block = t.request.block) (hhub : t'.desk.hub = t.desk.hub) :
    Onward t t' :=
  ⟨hplace, hblock, hhub ▸ .nothing⟩

theorem onward_note (t : Turn) (h : Script) (e : String → Entry) : Onward t (t.note h e) := by
  unfold note
  split <;> exact .of_same rfl rfl rfl

theorem onward_perform (hrest : ∀ t, Onward t (rest t)) (a : Action) (t : Turn) :
    Onward t (perform rest a t).2 := by
  by_cases hnext : a = .next
  · rw [hnext]
    exact hrest t
  have hrequest : (perform rest a t).2.request.place = t.request.place ∧
      (perform rest a t).2.request.block = t.request.block := by
    cases a with
    | next => exact absurd rfl hnext
    | messageId | header | urlPattern | bind | bindWith =>
      simp only [perform, snd_viewing, and_self]
    | reply | replyRaw | replyJson | replyUrl | fill | online | offline | sendToUser =>
      simp only [perform, sendPacked, withPool, snd_trying]
      exact ⟨rfl, rfl⟩
    | upper =>
      unfold perform
      dsimp only
      split
      · exact ⟨rfl, rfl⟩
      · simp only [sendPacked, snd_trying]
        exact ⟨rfl, rfl⟩
    | sendBack beat =>
      unfold perform
      dsimp only
      split
      · exact ⟨rfl, rfl⟩
      · split
        · exact ⟨rfl, rfl⟩
        · simp only [sendPacked, snd_trying]
          exact ⟨rfl, rfl⟩
    | _ => exact ⟨rfl, rfl⟩
  exact ⟨hrequest.1, hrequest.2, hub_perform rest t hnext ▸ .action t.request a .nothing rfl rfl⟩

theorem onward_step (hrest : ∀ t, Onward t (rest t)) (h : Script) (t : Turn) (s : Step × Nat) :
    Onward t (step rest h t s) := by
  cases hallow : t.allow? h s with
  | none =>
    rw [step_of_none hallow]
    exact .refl t
  | some u =>
    obtain ⟨uses, hu⟩ := exists_of_allow hallow
    rw [step_of_some hallow]
    have hallowed : Onward t u := by
      rw [hu]
      exact .of_same rfl rfl rfl
    refine (hallowed.trans (onward_perform hrest s.1.action u)).trans ?_
    unfold conclude
    split
    · exact .refl _
    · exact onward_note ..

/-- **The rest of the chain** goes on by actions that serve the request. -/
theorem onward_advance (budget : Nat) (t : Turn) : Onward t (advance budget t) := by
  induction budget generalizing t with
  | zero => exact .refl t
  | succ budget ih =>
    cases hnext : t.upcoming? with
    | none =>
      rw [advance_of_none hnext]
      exact .refl t
    | some h =>
      rw [advance_of_some hnext]
      have hsteps (steps : List (Step × Nat)) (t : Turn) :
          Onward t (steps.foldl (step (advance budget) h) t) := by
        induction steps generalizing t with
        | nil => exact .refl t
        | cons s steps ihsteps => exact (onward_step ih h t s).trans (ihsteps _)
      have henter : Onward t (t.enter h) := by
        have hmoved :
        Onward t { t with request := { t.request with cursor := t.request.cursor + 1 } } :=
          .of_same rfl rfl rfl
        exact hmoved.trans (onward_note _ h _)
      exact (henter.trans (hsteps _ _)).trans (ih _)

theorem onward_proceed (t : Turn) : Onward t t.proceed := onward_advance _ t

end Turn

/-- **What a dispatched request makes of the hub** is made by actions that serve it. -/
theorem Hub.performed_dispatch (desk : Desk) (router : Router Script) (c : Place) (block : Bytes) :
    Hub.Performed c block desk.hub (desk.dispatch router c block).2.hub := by
  unfold Desk.dispatch
  split
  · exact .nothing
  · rename_i chain _
    have hhub := (Turn.onward_proceed ⟨desk, Request.ofBlock c block chain, false⟩).hub
    obtain ⟨t, ht⟩ : ∃ t, Turn.proceed ⟨desk, Request.ofBlock c block chain, false⟩ = t := ⟨_, rfl⟩
    rw [ht] at hhub ⊢
    exact hhub

namespace Exchange

/-- **Runs one request**; if a handler breaks down, its connection is closed. -/
def serve (x : Exchange) (c : Place) (block : Bytes) : Exchange :=
  let (broke, x) := x.runRequest c block
  if broke then x.close c else x

theorem works_serve (x : Exchange) {c : Place} (hreach : x.hub.reachesPool c = false)
    (block : Bytes) : x.hub.Works c (x.serve c block).hub := by
  have hrun : x.hub.Works c (x.runRequest c block).2.hub :=
    (Hub.performed_dispatch { x.desk with log := [] } x.plan.router c block).works hreach
  unfold serve
  dsimp only
  split
  · exact .acts hrun (Hub.acts_close ..)
  · exact hrun

/-- Nobody joins. -/
theorem nextId_serve (x : Exchange) (c : Place) (block : Bytes) :
    (x.serve c block).nextId = x.nextId := by
  unfold serve
  dsimp only
  split <;> rfl

theorem plan_serve (x : Exchange) (c : Place) (block : Bytes) :
    (x.serve c block).plan = x.plan := by
  unfold serve
  dsimp only
  split <;> rfl

end Exchange

end Switchboard
