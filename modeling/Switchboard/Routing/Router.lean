import Switchboard.Assoc
import Switchboard.Routing.Anchor
import Switchboard.Wire.Block

/-!
# Routing/Router — registering handlers and resolving requests

A router numbers handlers as they are registered.  It keeps those under a message id in one map and
those under a URL pattern in another, the global middleware, the anchored middleware with the slot
of each key in a third map, and at most one raw handler.  `Router.registrations` lists the handlers
of both maps by their numbers.  `Router.resolve` finds the chain a request runs through: the global
middleware, the anchored middleware active for the handler in order of first use, the handler's own
middleware, the handler.  A bare handler runs alone.  With a raw handler every request, even a
malformed one, runs through the global middleware, all anchored middleware and the raw handler.

`H` is the type of handlers and middleware; routing never looks inside it.
-/

namespace Switchboard

/-- A registered handler as it is kept under its key. -/
structure Registered (H : Type) where
  /-- Its number. -/
  index : Nat
  /-- The middleware for it alone. -/
  own : List H
  /-- The handler. -/
  handler : H
  /-- Do requests pass through middleware, or go to the handler at once? -/
  through : Bool
deriving Repr

/-- A registered handler with its key. -/
structure Registration (H : Type) where
  /-- What it is registered under. -/
  key : RouteKey
  /-- Its number. -/
  index : Nat
  /-- The middleware for it alone. -/
  own : List H
  /-- The handler. -/
  handler : H
  /-- Do requests pass through middleware, or go to the handler at once? -/
  through : Bool
deriving Repr

/-- The handler with its key. -/
def Registered.under {H : Type} (g : Registered H) (key : RouteKey) : Registration H :=
  ⟨key, g.index, g.own, g.handler, g.through⟩

/-- Handlers and middleware. -/
structure Router (H : Type) where
  /-- The number of the next handler. -/
  counter : Nat
  /-- The handlers under message ids. -/
  byId : Assoc Int32 (Registered H)
  /-- The handlers under URL patterns. -/
  byPattern : Assoc String (Registered H)
  /-- The middleware every request passes. -/
  globals : List H
  /-- The anchored middleware, in order of first use. -/
  anchors : List (Anchor H)
  /-- The slot of each middleware key among the anchors. -/
  slots : Assoc String Nat
  /-- The handler of all requests, if there is one. -/
  raw : Option H
deriving Repr

namespace Router

variable {H : Type}

/-- The router without any handler. -/
def empty : Router H := ⟨0, .empty, .empty, [], [], .empty, none⟩

instance : Inhabited (Router H) := ⟨empty⟩

/-! ## Registering -/

/-- The handler registered under a key. -/
def find? (r : Router H) (key : RouteKey) : Option (Registration H) :=
  match key with
  | .messageId id => (r.byId.get? id).map (·.under key)
  | .urlPattern pattern => (r.byPattern.get? pattern).map (·.under key)

theorem key_of_find? {r : Router H} {key : RouteKey} {g : Registration H}
    (h : r.find? key = some g) : g.key = key := by
  cases key with
  | messageId id | urlPattern pattern =>
    obtain ⟨v, -, rfl⟩ := Option.map_eq_some_iff.mp h
    rfl

/-- Keeps a handler under its key, in the map for such keys. -/
def keep (r : Router H) (key : RouteKey) (g : Registered H) : Router H :=
  match key with
  | .messageId id => { r with byId := r.byId.insert id g }
  | .urlPattern pattern => { r with byPattern := r.byPattern.insert pattern g }

/-- Registers a handler and returns its number, unless the key is taken. -/
def register (r : Router H) (key : RouteKey) (own : List H) (handler : H) (through : Bool) :
    Except RegistryError Nat × Router H :=
  match r.find? key with
  | some _ => (.error (.duplicateRoute key), r)
  | none =>
    (.ok r.counter,
      { r with counter := r.counter + 1 }.keep key ⟨r.counter, own, handler, through⟩)

/-- Registers a handler that requests reach through middleware, its own last. -/
def add (r : Router H) (key : RouteKey) (own : List H) (handler : H) :
    Except RegistryError Nat × Router H :=
  r.register key own handler true

/-- Registers a handler that requests reach at once. -/
def addBare (r : Router H) (key : RouteKey) (handler : H) :
    Except RegistryError Nat × Router H :=
  r.register key [] handler false

/-- Adds middleware for every request. -/
def useGlobal (r : Router H) (h : H) : Router H := { r with globals := r.globals ++ [h] }

/-- The history of a middleware key. -/
def anchor? (r : Router H) (key : String) : Option (Anchor H) :=
  (r.slots.get? key).bind fun slot => r.anchors[slot]?

/-- Activates a middleware for handlers registered from now on; a new key takes the next slot. -/
def activate (r : Router H) (key : String) (h : H) : Router H :=
  match r.slots.get? key with
  | some slot => { r with anchors := r.anchors.modify slot (·.activate h r.counter) }
  | none =>
    { r with
      anchors := r.anchors ++ [Anchor.ofFirst key h r.counter]
      slots := r.slots.insert key r.anchors.length }

/-- Deactivates a middleware for handlers registered from now on. -/
def deactivate (r : Router H) (key : String) : Except RegistryError Unit × Router H :=
  match r.slots.get? key with
  | some slot => (.ok (), { r with anchors := r.anchors.modify slot (·.deactivate r.counter) })
  | none => (.error (.unknownMiddleware key), r)

/-- Sends every request to one handler. -/
def setRaw (r : Router H) (h : H) : Router H := { r with raw := some h }

/-- Refuses unbalanced activations, the first key used first. -/
def check (r : Router H) : Except RegistryError Unit := r.anchors.forM Anchor.check

/-! ## Listing -/

/-- The handlers of both maps with their keys. -/
def withKeys (ids : List (Int32 × Registered H)) (patterns : List (String × Registered H)) :
    List (Registration H) :=
  (ids.map fun e => e.2.under (.messageId e.1)) ++
    patterns.map fun e => e.2.under (.urlPattern e.1)

/-- The handlers of both maps, lower numbers first. -/
def listed (ids : List (Int32 × Registered H)) (patterns : List (String × Registered H)) :
    List (Registration H) :=
  (withKeys ids patterns).mergeSort fun g g' => g.index ≤ g'.index

/-- **The registered handlers** in the order of their numbers. -/
def registrations (r : Router H) : List (Registration H) :=
  listed r.byId.entries r.byPattern.entries

/-! ## Resolving -/

/-- The chain of a registered handler. -/
def chainOf (r : Router H) (g : Registration H) : List H :=
  if g.through then
    r.globals ++ (r.anchors.filter fun a => a.contains g.index).map Anchor.latest ++ g.own ++
      [g.handler]
  else [g.handler]

/-- The key that octets are routed by: the URL pattern where the header asks for it, otherwise the
message id, also when the header cannot be read.  Octets without a block in front have no key. -/
def keyOf (input : Bytes) : Option RouteKey :=
  match Block.read input with
  | .error _ => none
  | .ok b =>
    match Header.decode b.header with
    | .error _ => some (.messageId b.id)
    | .ok h =>
      match Header.route h with
      | .urlPattern pattern => some (.urlPattern pattern)
      | .messageId => some (.messageId b.id)

/-- **The chain that octets run through**, if any handler takes them. -/
def resolve (r : Router H) (input : Bytes) : Option (List H) :=
  match r.raw with
  | some h => some (r.globals ++ r.anchors.map Anchor.latest ++ [h])
  | none => ((keyOf input).bind r.find?).map r.chainOf

/-! ## Display -/

/-- A registration as people are shown it. -/
def displayRegistration (g : Registration H) : String :=
  "RouteInfo \x7b key: " ++ g.key.display ++ ", anchor_index: " ++ toString g.index ++
    ", self_middleware: " ++ toString g.own.length ++ ", through_middleware: " ++
    toString g.through ++ " \x7d"

/-- The router as people are shown it. -/
def display (r : Router H) : String :=
  "Router \x7b routes: [" ++ ", ".intercalate (r.registrations.map displayRegistration) ++
    "], globals: " ++ toString r.globals.length ++ ", anchors: [" ++
    ", ".intercalate (r.anchors.map Anchor.display) ++ "], on_message: " ++
    toString r.raw.isSome ++ " \x7d"

end Router

end Switchboard
