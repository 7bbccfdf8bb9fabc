import Switchboard.Command.Run

/-!
# Command/Offline — running a command where no socket can be opened

Packing, the version and the help need no network.  A command that needs one is checked as far as
it can be and then fails, since its network is not available.
-/

namespace Switchboard

namespace Command

/-- What becomes of `serve` without a network. -/
def serveOffline (network : String) (heartbeat : Option String) : Failure :=
  match heartbeat.map Duration.parse, Network.parse network with
  | some (.error f), _ => f
  | _, .error e => .ofLink "listen failed" e
  | _, .ok n => .ofLink "listen failed" (.unavailable n)

/-- What becomes of `send` without a network. -/
def sendOffline (network address : String) (content : Content) (timeout : String) : Failure :=
  match sendingOf network address content false timeout with
  | .error f => f
  | .ok s => .ofLink "connect failed" (.unavailable s.network)

/-- **Runs a command without a network.** -/
def runOffline (format : Format) : Command → Report
  | .serve network _ heartbeat => .failed (serveOffline network heartbeat) []
  | .send network address content _ timeout =>
    .failed (sendOffline network address content timeout) []
  | c => c.run (Host.fresh false) ⟨[], .error .tryAgain⟩
      (fun network _ heartbeat => .failed (serveOffline network heartbeat) []) format

end Command

/-- What becomes of a command line without a network. -/
def Arguments.runOffline (args : List String) : Report :=
  match Arguments.parse args with
  | some i => i.command.runOffline i.format
  | none => .failed ⟨Failure.notUnderstood, "arguments not understood\n\n" ++
      HelpPage.program.render⟩ []

end Switchboard
