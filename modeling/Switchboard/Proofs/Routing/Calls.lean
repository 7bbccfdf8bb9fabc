import Switchboard.Routing.Router

/-!
# Proofs/Routing/Calls — a router is made by a sequence of calls

`Router.run` performs calls one after another, those that fail included: they leave the router as it
is.  What the calls say is read off them without performing any: the global and raw handlers, the
middleware keys in order of first use, the function given last for a key, and whether a key was
switched on last.  `Router.Alternates` demands that each key is switched on and off in turn.
-/

namespace Switchboard

namespace Router

/-- A call that changes a router. -/
inductive Call (H : Type) where
  /-- Adds middleware for every request. -/
  | useGlobal (f : H)
  /-- Activates a middleware. -/
  | activate (key : String) (f : H)
  /-- Deactivates a middleware. -/
  | deactivate (key : String)
  /-- Registers a handler, with middleware of its own. -/
  | add (key : RouteKey) (own : List H) (handler : H)
  /-- Registers a handler that runs alone. -/
  | addBare (key : RouteKey) (handler : H)
  /-- Sends every request to one handler. -/
  | setRaw (f : H)
deriving Repr, DecidableEq

namespace Call

variable {H : Type}

/-- The router after a call, whether it fails or not. -/
def perform (r : Router H) : Call H → Router H
  | useGlobal f => r.useGlobal f
  | activate key f => r.activate key f
  | deactivate key => (r.deactivate key).2
  | add key own handler => (r.add key own handler).2
  | addBare key handler => (r.addBare key handler).2
  | setRaw f => r.setRaw f

/-- The global middleware that is added. -/
def global? : Call H → Option H
  | useGlobal f => some f
  | _ => none

/-- The raw handler that is set. -/
def raw? : Call H → Option H
  | setRaw f => some f
  | _ => none

/-- The middleware key that is used. -/
def usedKey? : Call H → Option String
  | activate key _ => some key
  | _ => none

/-- The function given for a middleware key. -/
def functionFor (key : String) : Call H → Option H
  | activate k f => if k = key then some f else none
  | _ => none

/-- Is a middleware switched on or off? -/
def switchOf (key : String) : Call H → Option Bool
  | activate k _ => if k = key then some true else none
  | deactivate k => if k = key then some false else none
  | _ => none

/-- What a handler is to be registered under. -/
def target? : Call H → Option RouteKey
  | add key _ _ => some key
  | addBare key _ => some key
  | _ => none

/-- Does the call register a handler?  It fails if the key is taken. -/
def Registers (r : Router H) (c : Call H) : Prop := ∃ key, c.target? = some key ∧ r.find? key = none

end Call

variable {H : Type} {α : Type}

/-- **The router after a sequence of calls.** -/
def run (calls : List (Call H)) : Router H := calls.foldl Call.perform empty

/-! ## What calls say -/

/-- The global middleware, in order. -/
def globalsOf (calls : List (Call H)) : List H := calls.filterMap Call.global?

/-- What the last call says of those that say anything. -/
def lastOf (say : Call H → Option α) (calls : List (Call H)) : Option α :=
  (calls.filterMap say).getLast?

/-- The raw handler set last. -/
def rawOf (calls : List (Call H)) : Option H := lastOf Call.raw? calls

/-- The middleware keys, in order of first use. -/
def keysOf (calls : List (Call H)) : List String := (calls.filterMap Call.usedKey?).eraseDups

/-- The function given last for a middleware key. -/
def latestOf (calls : List (Call H)) (key : String) : Option H :=
  lastOf (Call.functionFor key) calls

/-- Was the middleware switched on last? -/
def isActive (calls : List (Call H)) (key : String) : Bool :=
  lastOf (Call.switchOf key) calls = some true

/-! ## Alternation -/

/-- **Is it the call's turn?**  A middleware is activated while it is off and deactivated while it
is on.  Deactivating a key that was never used fails and changes nothing, so that is no turn. -/
def Call.InTurn (before : List (Call H)) : Call H → Prop
  | .activate key _ => isActive before key = false
  | .deactivate key => key ∈ keysOf before → isActive before key = true
  | _ => True

/-- The activations and deactivations of each key go on alternating. -/
def AlternatesAfter (before : List (Call H)) : List (Call H) → Prop
  | [] => True
  | c :: rest => c.InTurn before ∧ AlternatesAfter (before ++ [c]) rest

/-- **The activations and deactivations of each key alternate**, beginning with an activation. -/
def Alternates (calls : List (Call H)) : Prop := AlternatesAfter [] calls

instance (before : List (Call H)) : (c : Call H) → Decidable (c.InTurn before)
  | .activate key _ => inferInstanceAs (Decidable (isActive before key = false))
  | .deactivate key =>
    inferInstanceAs (Decidable (key ∈ keysOf before → isActive before key = true))
  | .useGlobal _ | .add .. | .addBare .. | .setRaw _ => .isTrue trivial

instance decidableAlternatesAfter :
    (before calls : List (Call H)) → Decidable (AlternatesAfter before calls)
  | _, [] => .isTrue trivial
  | before, c :: rest =>
    have := decidableAlternatesAfter (before ++ [c]) rest
    inferInstanceAs (Decidable (c.InTurn before ∧ AlternatesAfter (before ++ [c]) rest))

instance (calls : List (Call H)) : Decidable (Alternates calls) :=
  decidableAlternatesAfter [] calls

/-! ## One more call -/

theorem Call.switchOf_activate (key : String) (f : H) :
    (Call.activate key f).switchOf key = some true := if_pos rfl

theorem Call.switchOf_deactivate (key : String) :
    (Call.deactivate key : Call H).switchOf key = some false := if_pos rfl

theorem Call.functionFor_activate (key : String) (f : H) :
    (Call.activate key f).functionFor key = some f := if_pos rfl

/-- A call that does not switch a key gives no function for it. -/
theorem Call.functionFor_of_switchOf {c : Call H} {key : String} (h : c.switchOf key = none) :
    c.functionFor key = none := by
  cases c with
  | activate k f =>
    rw [switchOf] at h
    split at h
    · cases h
    · rename_i hk
      exact if_neg hk
  | useGlobal | deactivate | add | addBare | setRaw => rfl

section

variable {calls : List (Call H)} {c : Call H} {key : String}

theorem run_concat (calls : List (Call H)) (c : Call H) :
    run (calls ++ [c]) = c.perform (run calls) := List.foldl_append

theorem lastOf_concat (say : Call H → Option α) (calls : List (Call H)) (c : Call H) :
    lastOf say (calls ++ [c]) = (say c).or (lastOf say calls) := by
  unfold lastOf
  rw [List.filterMap_append, List.filterMap_cons, List.filterMap_nil]
  cases say c with
  | none => rw [List.append_nil]; rfl
  | some v => rw [List.getLast?_concat]; rfl

theorem lastOf_cons (say : Call H → Option α) (c : Call H) (calls : List (Call H)) :
    lastOf say (c :: calls) = (lastOf say calls).or (say c) := by
  unfold lastOf
  rw [List.filterMap_cons]
  cases say c with
  | none => rw [Option.or_none]
  | some v =>
    dsimp only
    rw [List.getLast?_cons]
    cases (calls.filterMap say).getLast? <;> rfl

theorem isActive_concat_of_none (h : c.switchOf key = none) :
    isActive (calls ++ [c]) key = isActive calls key := by
  rw [isActive, isActive, lastOf_concat, h, Option.none_or]

theorem isActive_concat_of_some {on : Bool} (h : c.switchOf key = some on) :
    isActive (calls ++ [c]) key = on := by
  rw [isActive, lastOf_concat, h, Option.some_or]
  cases on <;> rfl

theorem mem_keysOf : key ∈ keysOf calls ↔ ∃ f, Call.activate key f ∈ calls := by
  rw [keysOf, List.mem_eraseDups, List.mem_filterMap]
  constructor
  · rintro ⟨c, hc, hkey⟩
    cases c with
    | activate k f =>
      injection hkey with hkey
      exact ⟨f, hkey ▸ hc⟩
    | useGlobal | deactivate | add | addBare | setRaw => cases hkey
  · rintro ⟨f, hf⟩
    exact ⟨_, hf, rfl⟩

/-- A key that is switched on is used. -/
theorem mem_keysOf_of_switchOf (hc : c ∈ calls) (hon : c.switchOf key = some true) :
    key ∈ keysOf calls := by
  cases c with
  | activate k f =>
    rw [Call.switchOf] at hon
    split at hon
    · rename_i hk
      exact mem_keysOf.mpr ⟨f, hk ▸ hc⟩
    · cases hon
  | deactivate k =>
    rw [Call.switchOf] at hon
    split at hon <;> cases hon
  | useGlobal | add | addBare | setRaw => cases hon

/-- A key that was switched on was used. -/
theorem mem_keysOf_of_isActive (h : isActive calls key = true) : key ∈ keysOf calls := by
  obtain ⟨c, hc, hon⟩ := List.mem_filterMap.mp (List.mem_of_getLast? (of_decide_eq_true h))
  exact mem_keysOf_of_switchOf hc hon

theorem keysOf_concat_of_none (h : c.usedKey? = none) : keysOf (calls ++ [c]) = keysOf calls := by
  rw [keysOf, List.filterMap_append, List.filterMap_cons, h, List.filterMap_nil, List.append_nil]
  rfl

/-- A further use leaves a key where it is. -/
theorem keysOf_concat_of_mem (h : key ∈ keysOf calls) (f : H) :
    keysOf (calls ++ [.activate key f]) = keysOf calls := by
  rw [keysOf, List.mem_eraseDups] at h
  have hgone : [key].removeAll (calls.filterMap Call.usedKey?) = [] := by
    rw [List.cons_removeAll, List.contains_iff_mem.mpr h]
    rfl
  rw [keysOf, List.filterMap_append, List.eraseDups_append]
  show _ ++ ([key].removeAll _).eraseDups = _
  rw [hgone, List.eraseDups_nil, List.append_nil, keysOf]

/-- The first use puts a key at the end. -/
theorem keysOf_concat_of_not_mem (h : key ∉ keysOf calls) (f : H) :
    keysOf (calls ++ [.activate key f]) = keysOf calls ++ [key] := by
  rw [keysOf, List.mem_eraseDups] at h
  have hkept : [key].removeAll (calls.filterMap Call.usedKey?) = [key] := by
    rw [List.cons_removeAll, if_pos (Bool.eq_false_iff.mpr (mt List.contains_iff_mem.mp h))]
    rfl
  rw [keysOf, List.filterMap_append, List.eraseDups_append]
  show _ ++ ([key].removeAll _).eraseDups = _
  rw [hkept, keysOf]
  rfl

end

end Router

end Switchboard
