import Switchboard.Command.Run
import Switchboard.Service.Echo
import Switchboard.Service.Server

/-!
# Command/Serve — the command that runs an echo service

The command says in one line where the service listens and then serves until it is interrupted.
-/

namespace Switchboard

namespace Echo

/-- The line that says where the service listens. -/
def readyLine (network address : String) : Bytes :=
  line (Json.object [("addr", .string address), ("network", .string network)]).compact

/-- **Starts the service** and says where it listens. -/
def launch (host : Host) (network address : String) (heartbeat : Option String) :
    Except Failure (Service × Bytes) := do
  let interval ← match heartbeat with
    | some text => (Duration.parse text).map some
    | none => .ok none
  let plan ← (plan (interval.map Duration.milliseconds)).mapError fun e =>
    .ofService "server setup failed" (.registry e)
  match (Service.ofPlan plan host).listen network address false with
  | (.ok b, s) => .ok (s, readyLine network b.address)
  | (.error e, _) => .error (.ofService "listen failed" e)

/-- What becomes of the command if it is interrupted as soon as the service listens. -/
def report (host : Host) (network address : String) (heartbeat : Option String) : Report :=
  match launch host network address heartbeat with
  | .ok (_, ready) => .done ready []
  | .error f => .failed f []

end Echo

end Switchboard
