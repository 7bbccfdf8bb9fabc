import Switchboard.Service.Plan

/-!
# Service/Echo — a service that sends every body back

Every request goes to one handler, whatever it is routed by, and its body is sent back under its
message id.  If the service watches for heartbeats, a request with the usual message id of
heartbeats is one: the handler takes note of it and returns, and nothing is sent back.
-/

namespace Switchboard.Echo

/-- The message id of heartbeats, if they are watched for. -/
def beat? (watched : Bool) : Option Int32 :=
  if watched then some HeartbeatRule.standard.messageId else none

/-- The handler of all requests. -/
def handler (watched : Bool) : Script := ⟨0, none, [⟨.sendBack (beat? watched), none⟩]⟩

/-- The rule for heartbeats that come in such intervals. -/
def rule (interval : Nat) : HeartbeatRule := { HeartbeatRule.standard with interval := interval }

/-- The handlers of the service. -/
def router (watched : Bool) : Router Script := Router.empty.setRaw (handler watched)

/-- **The plan of the service**, given the interval of heartbeats if there are to be any. -/
def plan (interval : Option Nat) : Except RegistryError Plan :=
  let heartbeat := interval.map fun time => (rule time, Plan.noteHeartbeats)
  Plan.make (router interval.isSome) .standard .none heartbeat none

end Switchboard.Echo
