import Switchboard.Proofs.Routing.History
import Switchboard.Service.Plan

/-!
# Proofs/Routing/Balance — what validation knows of activations and deactivations

Validation sees of each middleware key how often it was activated and how often it was deactivated
since its first use (`tallyOf`), and accepts as many of one as of the other, or one activation more
(`Tally.Balanced`).  An activation of an open key and a deactivation of a closed one upset a
balance, so they are caught unless the key is switched again (`Tally.not_balanced_of_out_of_turn`).
But later calls can always restore it (`exists_check_append`), and then validation accepts calls
that do not alternate (`not_alternates_of_check`).
-/

namespace Switchboard

/-- How often a middleware was activated and deactivated. -/
structure Tally where
  /-- The activations. -/
  opened : Nat
  /-- The deactivations. -/
  closed : Nat
deriving Repr, DecidableEq

namespace Tally

/-- The tally after one more switch; what was never activated cannot be deactivated. -/
def after (t : Tally) : Option Bool → Tally
  | none => t
  | some true => { t with opened := t.opened + 1 }
  | some false => if t.opened = 0 then t else { t with closed := t.closed + 1 }

/-- Is a range open? -/
def isOpen (t : Tally) : Bool := t.closed < t.opened

/-- **What validation accepts.** -/
def Balanced (t : Tally) : Prop := t.opened = t.closed ∨ t.opened = t.closed + 1

instance (t : Tally) : Decidable t.Balanced := inferInstanceAs (Decidable (_ ∨ _))

/-- What validation says of a key. -/
def verdict (t : Tally) (key : String) : Except RegistryError Unit :=
  if t.Balanced then .ok () else .error (.unbalanced key t.opened t.closed)

/-- A tally passes exactly if it balances. -/
theorem verdict_eq_ok_iff {t : Tally} {key : String} : t.verdict key = .ok () ↔ t.Balanced := by
  unfold verdict
  split <;> simp_all

/-- One that does not is told of with its key and both counts. -/
theorem verdict_eq_error_iff {t : Tally} {key : String} {e : RegistryError} :
    t.verdict key = .error e ↔ ¬t.Balanced ∧ e = .unbalanced key t.opened t.closed := by
  unfold verdict
  split <;> simp_all [eq_comm]

/-- What was never opened was never closed. -/
theorem closed_after {t : Tally} {on : Option Bool} (h : t.opened = 0 → t.closed = 0)
    (hzero : (t.after on).opened = 0) : (t.after on).closed = 0 := by
  unfold after at hzero ⊢
  split at hzero
  · exact h hzero
  · exact absurd hzero (Nat.succ_ne_zero _)
  · split at hzero
    · rename_i hnever
      rw [if_pos hnever]
      exact h hnever
    · contradiction

/-- **A switch to what is already the case upsets the balance.** -/
theorem not_balanced_of_out_of_turn {t : Tally} (hused : t.opened ≠ 0) :
    ¬(t.after (some t.isOpen)).Balanced := by
  unfold Balanced
  cases hopen : t.isOpen with
  | true =>
    have hlt : t.closed < t.opened := of_decide_eq_true hopen
    simp only [after]
    omega
  | false =>
    have hle : ¬t.closed < t.opened := of_decide_eq_false hopen
    simp only [after, if_neg hused]
    omega

end Tally

/-- The tally of an anchor. -/
def Anchor.tally {H : Type} (a : Anchor H) : Tally := ⟨a.starts.length, a.ends.length⟩

/-- **An anchor is judged by its tally alone.** -/
theorem Anchor.check_eq_verdict {H : Type} (a : Anchor H) : a.check = a.tally.verdict a.key := rfl

namespace Router

variable {H : Type} {calls before after : List (Call H)} {c : Call H} {key : String}

/-! ## What calls say of a key -/

/-- **How often a key was activated, and deactivated since its first use.** -/
def tallyOf (calls : List (Call H)) (key : String) : Tally :=
  calls.foldl (fun t c => t.after (c.switchOf key)) ⟨0, 0⟩

/-- A call changes the tally of the key it switches, and no other. -/
theorem tallyOf_concat (calls : List (Call H)) (c : Call H) (key : String) :
    tallyOf (calls ++ [c]) key = (tallyOf calls key).after (c.switchOf key) := List.foldl_append

/-- Calls about other keys change nothing. -/
theorem tallyOf_append_of_none (h : ∀ d ∈ after, d.switchOf key = none) :
    tallyOf (before ++ after) key = tallyOf before key := by
  induction after generalizing before with
  | nil => rw [List.append_nil]
  | cons d more ih =>
    obtain ⟨hd, hmore⟩ := List.forall_mem_cons.mp h
    rw [List.append_cons, ih hmore, tallyOf_concat, hd]
    rfl

/-- **A key has activations exactly if it was used.** -/
theorem opened_tallyOf (calls : List (Call H)) (key : String) :
    (tallyOf calls key).opened = calls.countP fun c => c.switchOf key = some true := by
  suffices h : ∀ t : Tally, (calls.foldl (fun t c => t.after (c.switchOf key)) t).opened =
      t.opened + calls.countP fun c => c.switchOf key = some true by
    rw [tallyOf, h, Nat.zero_add]
  induction calls with
  | nil => exact fun t => rfl
  | cons c more ih =>
    intro t
    rw [List.foldl_cons, ih, List.countP_cons]
    cases c.switchOf key with
    | none => rfl
    | some on =>
      cases on with
      | true => exact Nat.add_right_comm _ _ _
      | false =>
        show (if t.opened = 0 then t else { t with closed := t.closed + 1 }).opened + _ = _
        split <;> rfl

/-- A key has been opened exactly if it was used. -/
theorem opened_ne_zero_iff : (tallyOf calls key).opened ≠ 0 ↔ key ∈ keysOf calls := by
  rw [opened_tallyOf, ← Nat.pos_iff_ne_zero, List.countP_pos_iff]
  constructor
  · rintro ⟨c, hc, hon⟩
    exact mem_keysOf_of_switchOf hc (of_decide_eq_true hon)
  · intro hused
    obtain ⟨f, hf⟩ := mem_keysOf.mp hused
    exact ⟨_, hf, decide_eq_true (Call.switchOf_activate key f)⟩

/-- What was never activated was never deactivated. -/
theorem closed_tallyOf (calls : List (Call H)) (key : String)
    (h : (tallyOf calls key).opened = 0) : (tallyOf calls key).closed = 0 := by
  suffices hkept : ∀ t : Tally, (t.opened = 0 → t.closed = 0) →
      (calls.foldl (fun t c => t.after (c.switchOf key)) t).opened = 0 →
        (calls.foldl (fun t c => t.after (c.switchOf key)) t).closed = 0 from
    hkept ⟨0, 0⟩ (fun _ => rfl) h
  clear h
  induction calls with
  | nil => exact fun t ht => ht
  | cons c more ih => exact fun t ht => ih _ fun hzero => Tally.closed_after ht hzero

/-- A key that was never used has an empty tally. -/
theorem tallyOf_of_not_mem (h : key ∉ keysOf calls) : tallyOf calls key = ⟨0, 0⟩ := by
  have hopened : (tallyOf calls key).opened = 0 :=
    Decidable.not_not.mp fun hne => h (opened_ne_zero_iff.mp hne)
  have hclosed := closed_tallyOf calls key hopened
  generalize tallyOf calls key = t at hopened hclosed
  cases t
  obtain rfl := hopened
  obtain rfl := hclosed
  rfl

/-! ## What anchors know -/

/-- **The anchors of a router know the tallies of their keys.** -/
structure Tallied (calls : List (Call H)) : Prop where
  keys : (run calls).anchors.map Anchor.key = keysOf calls
  tallies : ∀ a ∈ (run calls).anchors, a.tally = tallyOf calls a.key

/-- **The anchors keep to the tallies over one call.** -/
theorem Tallied.concat (h : Tallied calls) (c : Call H) : Tallied (calls ++ [c]) where
  keys := by
    rw [run_concat]
    exact keys_perform (slotted_run calls) c h.keys
  tallies a ha := by
    rw [run_concat] at ha
    rw [tallyOf_concat]
    cases origin_perform (slotted_run calls) ha with
    | kept hmem hc =>
      rw [hc]
      exact h.tallies a hmem
    | @activated b f hmem hc =>
      subst hc
      show _ = (tallyOf calls b.key).after ((Call.activate b.key f).switchOf b.key)
      rw [Call.switchOf_activate, ← h.tallies b hmem, Anchor.tally, Anchor.activate,
        List.length_append]
      rfl
    | @first key f hnew hc =>
      subst hc
      show _ = (tallyOf calls key).after ((Call.activate key f).switchOf key)
      rw [h.keys] at hnew
      rw [Call.switchOf_activate, tallyOf_of_not_mem hnew]
      rfl
    | @deactivated b hmem hc =>
      subst hc
      have hused : (tallyOf calls b.key).opened ≠ 0 :=
        opened_ne_zero_iff.mpr (h.keys ▸ List.mem_map_of_mem hmem)
      show _ = (tallyOf calls b.key).after ((Call.deactivate b.key).switchOf b.key)
      rw [Call.switchOf_deactivate, Tally.after, if_neg hused, ← h.tallies b hmem, Anchor.tally,
        Anchor.deactivate, List.length_append]
      rfl

/-- The anchors keep to the tallies over all calls. -/
theorem Tallied.append (h : Tallied before) (calls : List (Call H)) :
    Tallied (before ++ calls) := by
  induction calls generalizing before with
  | nil => rwa [List.append_nil]
  | cons c more ih =>
    rw [List.append_cons]
    exact ih (h.concat c)

/-- **Every sequence of calls is tallied**, whether the calls alternate or not. -/
theorem tallied (calls : List (Call H)) : Tallied calls :=
  have hnil : Tallied ([] : List (Call H)) := ⟨rfl, fun _ ha => absurd ha List.not_mem_nil⟩
  hnil.append calls

/-! ## What validation says -/

section

variable {α ε : Type} {f : α → Except ε Unit} {l : List α}

/-- Checking one after another succeeds if each check does. -/
theorem forM_eq_ok_iff : l.forM f = .ok () ↔ ∀ a ∈ l, f a = .ok () := by
  induction l with
  | nil => exact iff_of_true rfl fun a ha => absurd ha List.not_mem_nil
  | cons a l ih =>
    rw [List.forall_mem_cons, ← ih]
    show (f a >>= fun _ => l.forM f) = .ok () ↔ _
    cases ha : f a with
    | ok u => exact ⟨fun h => ⟨rfl, h⟩, And.right⟩
    | error e => exact ⟨nofun, fun h => nomatch h.1⟩

/-- …and otherwise fails as the first check does that fails. -/
theorem forM_eq_error_iff {e : ε} :
    l.forM f = .error e ↔
      ∃ front a back, l = front ++ a :: back ∧ (∀ b ∈ front, f b = .ok ()) ∧ f a = .error e := by
  induction l with
  | nil =>
    refine ⟨nofun, ?_⟩
    rintro ⟨front, a, back, hl, -⟩
    cases front <;> cases hl
  | cons a l ih =>
    show (f a >>= fun _ => l.forM f) = .error e ↔ _
    cases ha : f a with
    | error e' =>
      constructor
      · intro h
        injection h with h
        exact ⟨[], a, l, rfl, nofun, h ▸ ha⟩
      · rintro ⟨front, b, back, hl, hfront, hb⟩
        cases front with
        | nil =>
          injection hl with hab
          rw [hab] at ha
          exact ha.symm.trans hb
        | cons c front =>
          injection hl with hac
          rw [← hac] at hfront
          exact nomatch ha.symm.trans (hfront a List.mem_cons_self)
    | ok u =>
      show l.forM f = .error e ↔ _
      rw [ih]
      constructor
      · rintro ⟨front, b, back, rfl, hfront, hb⟩
        exact ⟨a :: front, b, back, rfl, List.forall_mem_cons.mpr ⟨ha, hfront⟩, hb⟩
      · rintro ⟨front, b, back, hl, hfront, hb⟩
        cases front with
        | nil =>
          injection hl with hab
          rw [hab] at ha
          exact nomatch ha.symm.trans hb
        | cons c front =>
          injection hl with hac hl
          exact ⟨front, b, back, hl, (List.forall_mem_cons.mp hfront).2, hb⟩

end

/-- **Validation goes by the tallies**, the first key used first. -/
theorem check_run (calls : List (Call H)) :
    (run calls).check = (keysOf calls).forM fun key => (tallyOf calls key).verdict key := by
  have h := tallied calls
  suffices hsame : ∀ anchors : List (Anchor H),
      (∀ a ∈ anchors, a.tally = tallyOf calls a.key) →
        anchors.forM Anchor.check =
          (anchors.map Anchor.key).forM fun key => (tallyOf calls key).verdict key by
    rw [check, ← h.keys]
    exact hsame _ h.tallies
  intro anchors htallies
  induction anchors with
  | nil => rfl
  | cons a rest ih =>
    obtain ⟨ha, hrest⟩ := List.forall_mem_cons.mp htallies
    show (a.check >>= fun _ => rest.forM Anchor.check) =
      ((tallyOf calls a.key).verdict a.key >>= fun _ => (rest.map Anchor.key).forM _)
    rw [Anchor.check_eq_verdict, ha, ih hrest]

/-- **A router passes exactly if the tally of every key balances.** -/
theorem check_run_eq_ok_iff :
    (run calls).check = .ok () ↔ ∀ key ∈ keysOf calls, (tallyOf calls key).Balanced := by
  rw [check_run, forM_eq_ok_iff]
  exact forall₂_congr fun key _ => Tally.verdict_eq_ok_iff

/-- One that fails names the first key, in order of first use, whose tally does not. -/
theorem check_run_eq_error_iff {e : RegistryError} :
    (run calls).check = .error e ↔
      ∃ front key back, keysOf calls = front ++ key :: back ∧
        (∀ k ∈ front, (tallyOf calls k).Balanced) ∧ ¬(tallyOf calls key).Balanced ∧
          e = .unbalanced key (tallyOf calls key).opened (tallyOf calls key).closed := by
  rw [check_run, forM_eq_error_iff]
  simp only [Tally.verdict_eq_ok_iff, Tally.verdict_eq_error_iff]

/-- Calls in turn are balanced. -/
theorem balanced_of_alternates (h : Alternates calls) (hkey : key ∈ keysOf calls) :
    (tallyOf calls key).Balanced := by
  have htallied := tallied calls
  rw [← htallied.keys] at hkey
  obtain ⟨a, ha, rfl⟩ := List.mem_map.mp hkey
  rw [← htallied.tallies a ha]
  have hbalance := ((keeps_of_alternates h).records a ha).balance
  cases hactive : isActive calls a.key with
  | true => exact .inr (by rw [hactive] at hbalance; exact hbalance)
  | false => exact .inl (by rw [hactive] at hbalance; exact hbalance)

/-- **A call out of turn is caught**, unless its key is switched again. -/
theorem exists_unbalanced_of_out_of_turn (hused : key ∈ keysOf before)
    (hturn : c.switchOf key = some (tallyOf before key).isOpen)
    (hafter : ∀ d ∈ after, d.switchOf key = none) :
    ∃ k s e, (run (before ++ c :: after)).check = .error (.unbalanced k s e) := by
  have hkey : key ∈ keysOf (before ++ c :: after) := by
    obtain ⟨f, hf⟩ := mem_keysOf.mp hused
    exact mem_keysOf.mpr ⟨f, List.mem_append_left _ hf⟩
  have hunbalanced : ¬(tallyOf (before ++ c :: after) key).Balanced := by
    rw [List.append_cons, tallyOf_append_of_none hafter, tallyOf_concat, hturn]
    exact Tally.not_balanced_of_out_of_turn (opened_ne_zero_iff.mpr hused)
  cases hcheck : (run (before ++ c :: after)).check with
  | ok u => exact absurd (check_run_eq_ok_iff.mp hcheck key hkey) hunbalanced
  | error e =>
    obtain ⟨-, k, -, -, -, -, rfl⟩ := check_run_eq_error_iff.mp hcheck
    exact ⟨k, _, _, rfl⟩

/-! ## What validation misses -/

/-- The calls that even out what a key was switched too often. -/
def evenOut (t : Tally) (key : String) (f : H) : List (Call H) :=
  List.replicate (t.opened - t.closed) (.deactivate key) ++
    List.replicate (t.closed - t.opened) (.activate key f)

theorem mem_evenOut {t : Tally} {f : H} (h : c ∈ evenOut t key f) :
    c = .deactivate key ∨ c = .activate key f :=
  (List.mem_append.mp h).imp List.eq_of_mem_replicate List.eq_of_mem_replicate

theorem switchOf_of_mem_evenOut {t : Tally} {f : H} {k : String} (hne : key ≠ k)
    (h : c ∈ evenOut t key f) : c.switchOf k = none := by
  obtain rfl | rfl := mem_evenOut h <;> exact if_neg hne

/-- Each deactivation closes once more. -/
theorem tallyOf_deactivations (hused : key ∈ keysOf calls) (n : Nat) :
    tallyOf (calls ++ List.replicate n (.deactivate key)) key =
      ⟨(tallyOf calls key).opened, (tallyOf calls key).closed + n⟩ := by
  induction n with
  | zero => rw [List.replicate_zero, List.append_nil]; rfl
  | succ n ih =>
    rw [List.replicate_succ', ← List.append_assoc, tallyOf_concat, ih, Call.switchOf_deactivate]
    exact if_neg (opened_ne_zero_iff.mpr hused)

/-- Each activation opens once more. -/
theorem tallyOf_activations (calls : List (Call H)) (key : String) (f : H) (n : Nat) :
    tallyOf (calls ++ List.replicate n (.activate key f)) key =
      ⟨(tallyOf calls key).opened + n, (tallyOf calls key).closed⟩ := by
  induction n with
  | zero => rw [List.replicate_zero, List.append_nil]; rfl
  | succ n ih =>
    rw [List.replicate_succ', ← List.append_assoc, tallyOf_concat, ih, Call.switchOf_activate]
    rfl

/-- **A key that is evened out balances.** -/
theorem balanced_evenOut (hused : key ∈ keysOf calls) (f : H) :
    (tallyOf (calls ++ evenOut (tallyOf calls key) key f) key).Balanced := by
  rw [evenOut, ← List.append_assoc, tallyOf_activations, tallyOf_deactivations hused]
  left
  show (tallyOf calls key).opened + _ = (tallyOf calls key).closed + _
  omega

/-- Some keys can be evened out one after another. -/
theorem exists_even (f : H) (keys : List String) (hused : ∀ key ∈ keys, key ∈ keysOf calls) :
    ∃ more, (∀ key ∈ keysOf (calls ++ more), key ∈ keysOf calls) ∧
      ∀ key ∈ keys, (tallyOf (calls ++ more) key).Balanced := by
  induction keys with
  | nil => exact ⟨[], fun key hkey => by rwa [List.append_nil] at hkey, nofun⟩
  | cons k keys ih =>
    obtain ⟨hk, hkeys⟩ := List.forall_mem_cons.mp hused
    obtain ⟨more, hold, heven⟩ := ih hkeys
    have hused' : k ∈ keysOf (calls ++ more) := by
      obtain ⟨g, hg⟩ := mem_keysOf.mp hk
      exact mem_keysOf.mpr ⟨g, List.mem_append_left _ hg⟩
    refine ⟨more ++ evenOut (tallyOf (calls ++ more) k) k f, fun key hkey => ?_, fun key hkey => ?_⟩
    · rw [← List.append_assoc] at hkey
      obtain ⟨g, hg⟩ := mem_keysOf.mp hkey
      obtain hg | hg := List.mem_append.mp hg
      · exact hold key (mem_keysOf.mpr ⟨g, hg⟩)
      · obtain hg | hg := mem_evenOut hg <;> cases hg
        exact hk
    · rw [← List.append_assoc]
      by_cases hne : k = key
      · rw [← hne]
        exact balanced_evenOut hused' f
      · rw [tallyOf_append_of_none fun d hd => switchOf_of_mem_evenOut hne hd]
        obtain rfl | hkey := List.mem_cons.mp hkey
        · exact absurd rfl hne
        · exact heven key hkey

/-- **Whatever was called, calls can follow with which validation accepts it.** -/
theorem exists_check_append (f : H) (calls : List (Call H)) :
    ∃ more, (run (calls ++ more)).check = .ok () := by
  obtain ⟨more, hold, heven⟩ := exists_even f (keysOf calls) fun _ hkey => hkey
  exact ⟨more, check_run_eq_ok_iff.mpr fun key hkey => heven key (hold key hkey)⟩

end Router

namespace Plan

variable {router : Router Script} {id : Int32} {through : Bool} {handler : Script}

/-- **The handler of a rule** is refused if its message id is taken, and leaves the middleware
alone. -/
inductive Registered (router : Router Script) : Except RegistryError (Router Script) → Prop where
  /-- The message id is taken. -/
  | taken (key : RouteKey) : Registered router (.error (.duplicateRoute key))
  /-- It is not, or there is no rule. -/
  | done {router' : Router Script} (h : router'.check = router.check) :
      Registered router (.ok router')

theorem registered_register (router : Router Script) (id : Int32) (through : Bool)
    (handler : Script) : Registered router (register router id through handler) := by
  have heq : register router id through handler =
      (router.register (.messageId id) [] handler through).1.map
        fun _ => (router.register (.messageId id) [] handler through).2 := by
    cases through <;> rfl
  rw [heq]
  unfold Router.register
  split
  · exact .taken _
  · exact .done rfl

theorem registered_withHeartbeat (router : Router Script)
    (rule : Option (HeartbeatRule × Script)) : Registered router (withHeartbeat router rule) := by
  cases rule with
  | none => exact .done rfl
  | some rule => exact registered_register ..

theorem registered_withAuth (router : Router Script) (rule : Option (AuthRule × Script)) :
    Registered router (withAuth router rule) := by
  cases rule with
  | none => exact .done rfl
  | some rule => exact registered_register ..

/-- **A plan is made of a valid router only**: what validation says is the answer, unless the
handler of a rule is refused before. -/
theorem make_of_check_error {e : RegistryError} (h : router.check = .error e) (settings : Settings)
    (hooks : Hooks) (heartbeat : Option (HeartbeatRule × Script))
    (auth : Option (AuthRule × Script)) :
    make router settings hooks heartbeat auth = .error e ∨
      ∃ key, make router settings hooks heartbeat auth = .error (.duplicateRoute key) := by
  have hbeat := registered_withHeartbeat router heartbeat
  unfold make
  generalize withHeartbeat router heartbeat = beat at hbeat
  cases hbeat with
  | taken key => exact .inr ⟨key, rfl⟩
  | @done beat hbeat =>
    have hauth := registered_withAuth beat auth
    show (withAuth beat auth >>= _) = _ ∨ ∃ key, (withAuth beat auth >>= _) = _
    generalize withAuth beat auth = authed at hauth
    cases hauth with
    | taken key => exact .inr ⟨key, rfl⟩
    | @done authed hauth =>
      left
      show (authed.check >>= _) = _
      rw [hauth, hbeat, h]
      rfl

end Plan

namespace Router

/-- **What validation says of the calls that made a router**, and with it the builder of a service.
It accepts them just if each key is activated as often as it is deactivated since its first use, or
once more, and otherwise names the first key, in order of first use, for which that is not so.
Calls that alternate are accepted.  A call out of turn, an activation while a range is open or a
deactivation of a used key while none is, makes validation fail if its key is not switched again,
whatever else is called; but whatever was called, calls can follow that make up for it. -/
theorem check_run_of_tallies (calls : List (Call Script)) :
    ((run calls).check = .ok () ↔ ∀ key ∈ keysOf calls, (tallyOf calls key).Balanced) ∧
    (∀ e, (run calls).check = .error e ↔
      ∃ front key back, keysOf calls = front ++ key :: back ∧
        (∀ k ∈ front, (tallyOf calls k).Balanced) ∧ ¬(tallyOf calls key).Balanced ∧
          e = .unbalanced key (tallyOf calls key).opened (tallyOf calls key).closed) ∧
    (Alternates calls → (run calls).check = .ok ()) ∧
    (∀ before c after key, calls = before ++ c :: after → key ∈ keysOf before →
      c.switchOf key = some (tallyOf before key).isOpen →
        (∀ d ∈ after, d.switchOf key = none) →
          ∃ k s e, (run calls).check = .error (.unbalanced k s e)) ∧
    (∃ more, (run (calls ++ more)).check = .ok ()) ∧
    ∀ e settings hooks heartbeat auth, (run calls).check = .error e →
      Plan.make (run calls) settings hooks heartbeat auth = .error e ∨
        ∃ key, Plan.make (run calls) settings hooks heartbeat auth =
          .error (.duplicateRoute key) := by
  refine ⟨check_run_eq_ok_iff, fun e => check_run_eq_error_iff, fun halternates => ?_, ?_,
    exists_check_append default calls, fun e settings hooks heartbeat auth he =>
      Plan.make_of_check_error he settings hooks heartbeat auth⟩
  · exact check_run_eq_ok_iff.mpr fun key hkey => balanced_of_alternates halternates hkey
  · rintro before c after key rfl hused hturn hafter
    exact exists_unbalanced_of_out_of_turn hused hturn hafter

/-- A second activation, and nothing about its key after it. -/
theorem check_run_of_tallies_reused :
    let calls : List (Call Script) :=
      [.activate "A" default, .activate "A" default, .add (.messageId 1) [] default]
    ∃ k s e, (run calls).check = .error (.unbalanced k s e) :=
  (check_run_of_tallies _).2.2.2.1 [.activate "A" default] (.activate "A" default)
    [.add (.messageId 1) [] default] "A" rfl (by decide) (by decide) (by decide)

/-- **A later call makes up for one out of turn**: a key that was activated twice is deactivated
once, and validation accepts calls that do not alternate. -/
theorem not_alternates_of_check :
    ¬∀ calls : List (Call Script), (run calls).check = .ok () → Alternates calls := by
  intro hall
  have h := hall [.activate "A" default, .activate "A" default, .deactivate "A"] rfl
  exact absurd h (by decide)

end Router

end Switchboard
