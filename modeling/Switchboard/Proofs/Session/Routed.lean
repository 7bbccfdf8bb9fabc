import Switchboard.Proofs.Routing.Targets
import Switchboard.Proofs.Session.Apart
import Switchboard.Proofs.Session.Trace

/-!
# Proofs/Session/Routed — what becomes of any octets that are dispatched

Octets that no handler takes leave everything as it is; all others run through the chain of the
handler they go to (`Desk.GoesTo`).  What follows a block is seen by nobody but a handler that logs
the octets as they came: two turns that differ in it go on alike (`Turn.Trails`), so neither the
outcome nor any connection, queue or user depends on it.  `Desk.dispatch_routed` puts this together
with the choice of the handler.
-/

namespace Switchboard

namespace Turn

variable {t t' u : Turn} {b : Block} {rest : Bytes} {f : Turn → Turn} {h : Script}

/-! ## Octets after the block -/

/-- The turn with octets after its request, and with another log. -/
def trailedBy (t : Turn) (rest : Bytes) (log : List Entry) : Turn :=
  { t with
    desk := { t.desk with log := log }
    request := { t.request with block := t.request.block ++ rest } }

/-- **The second turn has octets after its block**, and what its handlers logged may show them. -/
structure Trails (b : Block) (rest : Bytes) (t t' : Turn) : Prop where
  block : t.request.block = b.bytes
  trailed : ∃ log, t' = t.trailedBy rest log

/-- Does running the rest of the chain keep turns alike? -/
def KeepsTrails (b : Block) (rest : Bytes) (f : Turn → Turn) : Prop :=
  ∀ t t', Trails b rest t t' → Trails b rest (f t) (f t')

theorem Trails.answers (h : Trails b rest t t') (hb : b.Fits) :
    Block.Answers t.request.block b ∧ Block.Answers t'.request.block b := by
  obtain ⟨hblock, log, rfl⟩ := h
  have hanswers := Block.answers_bytes_append hb []
  rw [List.append_nil, ← hblock] at hanswers
  refine ⟨hanswers, ?_⟩
  show Block.Answers (t.request.block ++ rest) b
  rw [hblock]
  exact Block.answers_bytes_append hb rest

/-- **An action does the same** whatever follows the block. -/
theorem Trails.perform (h : Trails b rest t t') (hb : b.Fits) (hf : KeepsTrails b rest f)
    (a : Action) : Trails b rest (perform f a t).2 (perform f a t').2 := by
  cases a with
  | next => exact hf t t' h
  | messageId | header | urlPattern | bind | bindWith =>
    simp only [Turn.perform, snd_viewing]
    exact h
  | reply | replyRaw | replyJson | replyUrl | fill | online | offline | sendToUser =>
    obtain ⟨hblock, log, rfl⟩ := h
    simp only [Turn.perform, sendPacked, withPool, snd_trying]
    exact ⟨hblock, log, rfl⟩
  | sendBack beat =>
    obtain ⟨hanswers, hanswers'⟩ := h.answers hb
    obtain ⟨hblock, log, rfl⟩ := h
    simp only [Turn.perform, hanswers.id, hanswers'.id, hanswers.bodyBytes, hanswers'.bodyBytes]
    split
    · exact ⟨hblock, log, rfl⟩
    · simp only [sendPacked, snd_trying]
      exact ⟨hblock, log, rfl⟩
  | upper id =>
    obtain ⟨hblock, log, rfl⟩ := h
    have hunpack : (t.trailedBy rest log).packer.unpack .text (t.request.block ++ rest) =
        t.packer.unpack .text t.request.block := by
      rw [hblock]
      exact (Block.sameAnswers_bytes_append hb rest).message _ _
    unfold Turn.perform
    dsimp only
    rw [show (t.trailedBy rest log).request.block = t.request.block ++ rest from rfl, hunpack]
    split
    · exact ⟨hblock, log, rfl⟩
    · simp only [sendPacked, snd_trying]
      exact ⟨hblock, log, rfl⟩
  | _ =>
    obtain ⟨hblock, log, rfl⟩ := h
    exact ⟨hblock, log, rfl⟩

theorem Trails.note (h : Trails b rest t t') (s : Script) (e e' : String → Entry) :
    Trails b rest (t.note s e) (t'.note s e') := by
  obtain ⟨hblock, log, rfl⟩ := h
  unfold Turn.note
  split
  · exact ⟨hblock, _, rfl⟩
  · exact ⟨hblock, log, rfl⟩

theorem Trails.broken (h : Trails b rest t t') : t'.broken = t.broken := by
  obtain ⟨-, log, rfl⟩ := h
  rfl

theorem Trails.conclude {r r' : Answer × Turn} (h : Trails b rest r.2 r'.2) (s : Script)
    (a : Action) : Trails b rest (conclude s a r) (conclude s a r') := by
  unfold Turn.conclude
  rw [h.broken]
  split
  · exact h
  · exact h.note ..

/-- A step is passed over, or its action is performed, in both turns. -/
theorem Trails.step (h : Trails b rest t t') (hb : b.Fits) (hf : KeepsTrails b rest f) (s : Script)
    (p : Step × Nat) : Trails b rest (step f s t p) (step f s t' p) := by
  obtain ⟨hblock, log, rfl⟩ := h
  have hallow : (t.trailedBy rest log).allow? s p =
      (t.allow? s p).map fun u => u.trailedBy rest log := by
    unfold allow?
    show (if t.broken then _ else _) = _
    split
    · rfl
    · split
      · rfl
      · show (if t.usesOf _ < _ then _ else _) = _
        split <;> rfl
  cases hnext : t.allow? s p with
  | none =>
    rw [hnext] at hallow
    rw [step_of_none hnext, step_of_none hallow]
    exact ⟨hblock, log, rfl⟩
  | some u =>
    rw [hnext] at hallow
    have hallowed : Trails b rest u (u.trailedBy rest log) := by
      obtain ⟨uses, rfl⟩ := exists_of_allow hnext
      exact ⟨hblock, log, rfl⟩
    rw [step_of_some hnext, step_of_some hallow]
    exact (hallowed.perform hb hf _).conclude s _

theorem Trails.steps (h : Trails b rest t t') (hb : b.Fits) (hf : KeepsTrails b rest f) (s : Script)
    (ps : List (Step × Nat)) :
    Trails b rest (ps.foldl (Turn.step f s) t) (ps.foldl (Turn.step f s) t') := by
  induction ps generalizing t t' with
  | nil => exact h
  | cons p ps ih => exact ih (h.step hb hf s p)

/-- **The rest of the chain does the same** whatever follows the block. -/
theorem keepsTrails_advance (hb : b.Fits) (budget : Nat) : KeepsTrails b rest (advance budget) := by
  induction budget with
  | zero => exact fun _ _ h => h
  | succ budget ih =>
    intro t t' h
    have hupcoming : t'.upcoming? = t.upcoming? := by
      obtain ⟨-, log, rfl⟩ := h
      rfl
    cases hnext : t.upcoming? with
    | none =>
      rw [advance_of_none hnext, advance_of_none (hupcoming.trans hnext)]
      exact h
    | some s =>
      rw [advance_of_some hnext, advance_of_some (hupcoming.trans hnext)]
      have hmoved : Trails b rest
          { t with request := { t.request with cursor := t.request.cursor + 1 } }
          { t' with request := { t'.request with cursor := t'.request.cursor + 1 } } := by
        obtain ⟨hblock, log, rfl⟩ := h
        exact ⟨hblock, log, rfl⟩
      have henter : Trails b rest (t.enter s) (t'.enter s) := hmoved.note s _ _
      exact ih _ _ (henter.steps hb ih s _)

theorem Trails.proceed (h : Trails b rest t t') (hb : b.Fits) :
    Trails b rest t.proceed t'.proceed := by
  have hchain : t'.request.chain = t.request.chain := by
    obtain ⟨-, log, rfl⟩ := h
    rfl
  rw [Turn.proceed, Turn.proceed, hchain]
  exact keepsTrails_advance hb _ t t' h

/-! ## The whole chain -/

/-- How the request of a turn ended. -/
def outcome (t : Turn) : Outcome :=
  if t.broken then .brokeDown else if t.request.aborted then .aborted else .completed

theorem outcome_ne_unrouted (t : Turn) : t.outcome ≠ .unrouted := by
  unfold outcome
  split
  · nofun
  · split <;> nofun

theorem Trails.outcome (h : Trails b rest t t') : t'.outcome = t.outcome := by
  obtain ⟨-, log, rfl⟩ := h
  rfl

end Turn

namespace Desk

variable {desk : Desk} {router : Router Script} {place : Place} {input : Bytes}

/-- **Nothing runs and nothing changes** where no handler takes the octets. -/
theorem dispatch_of_unresolved (h : router.resolve input = none) :
    desk.dispatch router place input = (.unrouted, desk) := by
  rw [dispatch, h]

/-- The chain found is run. -/
theorem dispatch_of_resolve {chain : List Script} (h : router.resolve input = some chain) :
    desk.dispatch router place input =
      let t := Turn.proceed ⟨desk, Request.ofBlock place input chain, false⟩
      (t.outcome, t.desk) := by
  rw [dispatch, h]
  rfl

/-- The same chain ends the same with octets after the block. -/
theorem dispatch_bytes_append {b : Block} (hb : b.Fits) {rest : Bytes}
    (h : router.resolve (b.bytes ++ rest) = router.resolve b.bytes) :
    ∃ log, desk.dispatch router place (b.bytes ++ rest) =
      ((desk.dispatch router place b.bytes).1,
        { (desk.dispatch router place b.bytes).2 with log := log }) := by
  cases hchain : router.resolve b.bytes with
  | none =>
    rw [dispatch_of_unresolved hchain, dispatch_of_unresolved (h.trans hchain)]
    exact ⟨desk.log, rfl⟩
  | some chain =>
    rw [dispatch_of_resolve hchain, dispatch_of_resolve (h.trans hchain)]
    have hstart : Turn.Trails b rest ⟨desk, Request.ofBlock place b.bytes chain, false⟩
        ⟨desk, Request.ofBlock place (b.bytes ++ rest) chain, false⟩ := ⟨rfl, desk.log, rfl⟩
    have hends := hstart.proceed hb
    -- how the turns came about does not matter any more
    obtain ⟨t, ht⟩ : ∃ t, Turn.proceed ⟨desk, Request.ofBlock place b.bytes chain, false⟩ = t :=
      ⟨_, rfl⟩
    obtain ⟨t', ht'⟩ : ∃ t',
        Turn.proceed ⟨desk, Request.ofBlock place (b.bytes ++ rest) chain, false⟩ = t' := ⟨_, rfl⟩
    rw [ht, ht'] at hends ⊢
    obtain ⟨-, log, hdesk⟩ := id hends
    exact ⟨log, Prod.ext hends.outcome (congrArg Turn.desk hdesk)⟩

/-! ## The handler of a request -/

/-- **The octets run through a chain**: it is the one that they are resolved to, and dispatching
them is running it. -/
def RunsThrough (desk : Desk) (router : Router Script) (place : Place) (input : Bytes)
    (chain : List Script) : Prop :=
  let t := Turn.proceed ⟨desk, Request.ofBlock place input chain, false⟩
  router.resolve input = some chain ∧ desk.dispatch router place input = (t.outcome, t.desk) ∧
    t.outcome ≠ .unrouted

/-- **The octets go nowhere**: they are resolved to no chain, nothing runs and nothing changes. -/
def GoesNowhere (desk : Desk) (router : Router Script) (place : Place) (input : Bytes) : Prop :=
  router.resolve input = none ∧ desk.dispatch router place input = (.unrouted, desk)

/-- **The octets go to the handler of a key**, through its middleware, or nowhere without one. -/
def GoesTo (desk : Desk) (router : Router Script) (place : Place) (input : Bytes)
    (key : RouteKey) : Prop :=
  match router.find? key with
  | some g => g.key = key ∧ desk.RunsThrough router place input (router.chainOf g)
  | none => desk.GoesNowhere router place input

theorem runsThrough_of_resolve {chain : List Script} (h : router.resolve input = some chain) :
    desk.RunsThrough router place input chain :=
  ⟨h, dispatch_of_resolve h, Turn.outcome_ne_unrouted _⟩

theorem goesNowhere_of_unresolved (h : router.resolve input = none) :
    desk.GoesNowhere router place input := ⟨h, dispatch_of_unresolved h⟩

theorem goesTo_of_keyOf {key : RouteKey} (hraw : router.raw = none)
    (h : Router.keyOf input = some key) : desk.GoesTo router place input key := by
  have hresolve := Router.resolve_of_no_raw hraw input
  rw [Router.registrationFor?, h, Option.bind_some] at hresolve
  unfold GoesTo
  cases hfind : router.find? key with
  | none =>
    rw [hfind] at hresolve
    exact goesNowhere_of_unresolved hresolve
  | some g =>
    rw [hfind] at hresolve
    exact ⟨Router.key_of_find? hfind, runsThrough_of_resolve hresolve⟩

/-- **Any octets go to exactly one handler or to none.**  With a raw handler all of them go there,
through all middleware.  Without one they go nowhere unless a block is in front; then they go to
the pattern its header asks for, and to the message id if it asks for none.  Of fields with one key
the last counts.  Octets after the block change nothing but what handlers log, and where there is
no handler nothing changes at all. -/
theorem dispatch_routed (desk : Desk) (router : Router Script) (place : Place) (input : Bytes) :
    (∀ f, router.raw = some f →
      desk.RunsThrough router place input
        (router.globals ++ router.anchors.map Anchor.latest ++ [f])) ∧
    (router.raw = none →
      ((¬∃ b rest, Block.Begins input b rest) → desk.GoesNowhere router place input) ∧
      (∀ b rest, Block.Begins input b rest →
        (∀ pattern, Header.AsksFor b.header pattern →
          desk.GoesTo router place input (.urlPattern pattern)) ∧
        ((¬∃ pattern, Header.AsksFor b.header pattern) →
          desk.GoesTo router place input (.messageId b.id)) ∧
        ∃ log, desk.dispatch router place input =
          ((desk.dispatch router place b.bytes).1,
            { (desk.dispatch router place b.bytes).2 with log := log }))) ∧
    (∀ fs : List (String × Json), (∀ e ∈ fs, e.2.Plain (Json.Reader.maxDepth - 1)) → ∀ pattern,
      Header.AsksFor (Json.object fs).bytes pattern ↔
        Header.lastField fs "Router-Type" = some (.string "URL_PATTERN") ∧
          Header.lastField fs "Router-Pattern-Value" = some (.string pattern) ∧ pattern ≠ "") := by
  refine ⟨fun f hf => runsThrough_of_resolve (Router.resolve_of_raw hf input), fun hraw => ⟨?_, ?_⟩,
    fun fs hfs pattern => Header.asksFor_object_iff hfs⟩
  · intro hnone
    have hresolve := Router.resolve_of_no_raw hraw input
    rw [Router.registrationFor?, Router.keyOf_of_not_begins hnone] at hresolve
    exact goesNowhere_of_unresolved hresolve
  · intro b rest hbegins
    obtain ⟨hb, rfl⟩ := Block.begins_iff.mp hbegins
    refine ⟨fun pattern h => goesTo_of_keyOf hraw (Router.keyOf_of_asksFor hb h rest),
      fun h => goesTo_of_keyOf hraw (Router.keyOf_of_not_asksFor hb h rest),
      dispatch_bytes_append hb ?_⟩
    rw [Router.resolve_of_no_raw hraw, Router.resolve_of_no_raw hraw, Router.registrationFor?,
      Router.registrationFor?, Router.keyOf_bytes_append hb]

/-- Here the block asks for two patterns, and for the message id of a third handler; the last
pattern is taken, and the octets after the block do not matter. -/
theorem dispatch_routed_last_pattern :
    let header := (Json.object [("Router-Type", .string "URL_PATTERN"),
      ("Router-Pattern-Value", .string "/a"), ("Router-Pattern-Value", .string "/b")]).bytes
    let handler (n : Nat) : Script := ⟨n, none, [⟨.abort, none⟩]⟩
    let router := (((Router.empty.addBare (.messageId 7) (handler 0)).2.addBare (.urlPattern "/a")
      (handler 1)).2.addBare (.urlPattern "/b") (handler 2)).2
    (default : Desk).RunsThrough router 0 ((⟨7, header, []⟩ : Block).bytes ++ [1, 2, 3])
      [handler 2] := by
  intro header handler router
  have hfits : (⟨7, header, []⟩ : Block).Fits := by decide +kernel
  have hplain : ∀ e ∈ [("Router-Type", Json.string "URL_PATTERN"),
      ("Router-Pattern-Value", .string "/a"), ("Router-Pattern-Value", .string "/b")],
      e.2.Plain (Json.Reader.maxDepth - 1) := by
    have hscalar (s : String) : (Json.string s).Plain (Json.Reader.maxDepth - 1) :=
      ⟨trivial, trivial, Nat.zero_le _⟩
    simp only [List.mem_cons, List.not_mem_nil, or_false]
    rintro e (rfl | rfl | rfl) <;> exact hscalar _
  obtain ⟨-, hrouted, hasks⟩ := dispatch_routed default router 0
    ((⟨7, header, []⟩ : Block).bytes ++ [1, 2, 3])
  have hpattern := (hasks _ hplain "/b").mpr ⟨rfl, rfl, by decide⟩
  exact (((hrouted rfl).2 _ _ (Block.begins_iff.mpr ⟨hfits, rfl⟩)).1 "/b" hpattern).2

end Desk

end Switchboard
