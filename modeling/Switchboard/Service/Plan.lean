import Switchboard.Service.Settings
import Switchboard.Session.Script

/-!
# Service/Plan — everything about a service that never changes

A plan is put together before a service runs: its handlers, among them those for heartbeats and for
authentication, its limits, rules and hooks.
-/

namespace Switchboard

/-- Everything about a service that never changes. -/
structure Plan where
  /-- The handlers. -/
  router : Router Script
  /-- The limits. -/
  settings : Settings
  /-- How it watches for heartbeats, if it does. -/
  heartbeat : Option HeartbeatRule
  /-- How it demands authentication, if it does. -/
  auth : Option AuthRule
  /-- What it does beside serving. -/
  hooks : Hooks
deriving Inhabited

namespace Plan

/-- The handler that takes note of heartbeats. -/
def noteHeartbeats : Script := ⟨0, none, [⟨.noteHeartbeat, none⟩]⟩

/-- Registers the handler of a rule. -/
def register (router : Router Script) (messageId : Int32) (through : Bool) (handler : Script) :
    Except RegistryError (Router Script) :=
  let (r, router) :=
    if through then router.add (.messageId messageId) [] handler
    else router.addBare (.messageId messageId) handler
  r.map fun _ => router

/-- Registers the handler of a rule for heartbeats, if there is one. -/
def withHeartbeat (router : Router Script) (rule : Option (HeartbeatRule × Script)) :
    Except RegistryError (Router Script) :=
  match rule with
  | some (rule, handler) => register router rule.messageId rule.through handler
  | none => .ok router

/-- Registers the handler of a rule for authentication, if there is one. -/
def withAuth (router : Router Script) (rule : Option (AuthRule × Script)) :
    Except RegistryError (Router Script) :=
  match rule with
  | some (rule, handler) => register router rule.messageId rule.through handler
  | none => .ok router

/-- **Puts a plan together**, unless a rule claims a message id that is taken or the middleware is
unbalanced. -/
def make (router : Router Script) (settings : Settings) (hooks : Hooks)
    (heartbeat : Option (HeartbeatRule × Script)) (auth : Option (AuthRule × Script)) :
    Except RegistryError Plan := do
  let router ← withHeartbeat router heartbeat
  let router ← withAuth router auth
  router.check
  return ⟨router, settings, heartbeat.map Prod.fst, auth.map Prod.fst, hooks⟩

end Plan

end Switchboard
