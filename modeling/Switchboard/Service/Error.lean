import Switchboard.Link.Error
import Switchboard.Routing.Key

/-!
# Service/Error — why a service cannot be built, started or stopped
-/

namespace Switchboard

/-- Why an operation on a service fails. -/
inductive ServiceError where
  /-- The service runs already. -/
  | alreadyRunning
  /-- The service is being started already. -/
  | starting
  /-- The service is stopped already. -/
  | alreadyStopped
  /-- There is no listener to start. -/
  | noListeners
  /-- A listener cannot be bound. -/
  | link (e : LinkError)
  /-- Handlers or middleware are not registered properly. -/
  | registry (e : RegistryError)
deriving Repr, DecidableEq

/-- The text people are shown. -/
def ServiceError.message : ServiceError → String
  | alreadyRunning => "server is already running"
  | starting => "server is already starting"
  | alreadyStopped => "server is already stopped"
  | noListeners => "no listeners to start; call listen_and_serve first"
  | link e => e.message
  | registry e => e.message

end Switchboard
