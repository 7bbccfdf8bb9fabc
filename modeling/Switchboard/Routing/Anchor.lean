import Switchboard.Routing.Key

/-!
# Routing/Anchor — when a middleware is active

Handlers are numbered in the order they are registered.  Activating a middleware opens a range at
the next number and deactivating it closes the range there, so a closed range covers the handlers
registered in between and an open one every handler from then on (`Anchor.contains`).  `check` only
counts: it accepts a history when the openings equal the closings or exceed them by one.
-/

namespace Switchboard

/-- The history of one middleware key. -/
structure Anchor (H : Type) where
  /-- The key. -/
  key : String
  /-- The middleware given last. -/
  latest : H
  /-- Where ranges open, in call order. -/
  starts : List Nat
  /-- Where ranges close, exclusively, in call order. -/
  ends : List Nat
deriving Repr

namespace Anchor

variable {H : Type}

/-- A key whose middleware was activated once. -/
def ofFirst (key : String) (h : H) (index : Nat) : Anchor H := ⟨key, h, [index], []⟩

/-- The history after another activation, which also replaces the middleware. -/
def activate (a : Anchor H) (h : H) (index : Nat) : Anchor H :=
  { a with latest := h, starts := a.starts ++ [index] }

/-- The history after a deactivation. -/
def deactivate (a : Anchor H) (index : Nat) : Anchor H := { a with ends := a.ends ++ [index] }

/-- Is a range open? -/
def isOpen (a : Anchor H) : Bool := a.ends.length < a.starts.length

/-- **Is the middleware active for the handler with this number?** -/
def contains (a : Anchor H) (index : Nat) : Bool :=
  (a.starts.zip a.ends).any (fun r => r.1 ≤ index && index < r.2) ||
    (a.isOpen && (a.starts.getLast?.map fun s => decide (s ≤ index)).getD false)

/-- Refuses a history with too many openings or closings. -/
def check (a : Anchor H) : Except RegistryError Unit :=
  if a.starts.length = a.ends.length ∨ a.starts.length = a.ends.length + 1 then .ok ()
  else .error (.unbalanced a.key a.starts.length a.ends.length)

/-- The numbers of a list between brackets. -/
def listed (ns : List Nat) : String := "[" ++ ", ".intercalate (ns.map toString) ++ "]"

/-- The history as people are shown it. -/
def display (a : Anchor H) : String :=
  "MiddlewareAnchor \x7b key: " ++ Text.quoted a.key ++ ", starts: " ++ listed a.starts ++
    ", ends: " ++ listed a.ends ++ ", .. \x7d"

end Anchor

end Switchboard
