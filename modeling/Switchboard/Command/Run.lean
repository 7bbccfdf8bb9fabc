import Switchboard.Command.Help
import Switchboard.Command.Result
import Switchboard.Link.Host
import Switchboard.Service.Datagram
import Switchboard.Stream.Sink
import Switchboard.Stream.Source

/-!
# Command/Run — what the commands do

`send` connects, writes its block and, if asked, waits for one reply.  The machine the program runs
on is a `Host`, and who answers there is a `Peer`; `pack` and `version` need neither.
-/

namespace Switchboard

/-- Who answers at the address that a message is sent to. -/
structure Peer where
  /-- What the reads of the stream meet once the message was sent. -/
  stream : Source
  /-- The datagram that comes back, or why none does. -/
  datagram : Except IoFault Bytes

/-- What a command came to. -/
structure Report where
  /-- The exit code. -/
  code : Nat
  /-- What was written to the output. -/
  output : Bytes
  /-- What was written to the error output. -/
  errors : String
  /-- What was sent. -/
  sent : Bytes

namespace Report

/-- A command that did what was asked. -/
def done (output sent : Bytes) : Report := ⟨Failure.success, output, "", sent⟩

/-- A command that failed. -/
def failed (f : Failure) (sent : Bytes) : Report :=
  ⟨f.code, [], "error: " ++ f.message ++ "\n", sent⟩

end Report

/-! ## The version -/

/-- The name of the program. -/
def programName : String := "muxwire"

/-- The version of the program. -/
def programVersion : String := "0.3.0"

/-- The version, briefly. -/
def briefVersion : String := programName ++ " " ++ programVersion

/-- The version in full, with what is built in. -/
def fullVersion : String :=
  let marshallers := Marshaller.all.map fun m => m.name ++ "=" ++ toString m.isEnabled
  let networks := (Network.all.filter (· ≠ .kcp)).map Network.name
  "\n".intercalate
    ["name: " ++ programName, "version: " ++ programVersion, "target_os: linux",
     "target_arch: x86_64", "git_hash: unknown", "marshallers: " ++ ", ".intercalate marshallers,
     "networks: " ++ ", ".intercalate networks]

/-! ## Sending -/

/-- How many octets of a datagram are looked at. -/
def datagramBuffer : Nat := 65536

/-- A message to send. -/
structure Sending where
  /-- The network. -/
  network : Network
  /-- The address. -/
  address : String
  /-- The packed block. -/
  block : Bytes
  /-- Is a reply waited for? -/
  wait : Bool

/-- Sends over a stream and returns the reply, if one was waited for, with what was sent. -/
def Sending.overStream (s : Sending) (host : Host) (peer : Peer) :
    Except Failure (Option Bytes) × Bytes :=
  match host.connect s.network s.address with
  | .error e => (.error (.ofLink "connect failed" e), [])
  | .ok _ =>
    match Sink.writeBlock Block.defaultMax s.block ⟨[], [], []⟩ with
    | (.error e, sink) => (.error (.ofWire "send failed" e), sink.written)
    | (.ok (), sink) =>
      if !s.wait then (.ok none, sink.written)
      else
        match (Source.readBlock Block.defaultMax peer.stream).1 with
        | .ok (some reply) => (.ok (some reply), sink.written)
        | .ok none =>
          (.error ⟨Failure.general, "receive failed: connection closed before a reply arrived"⟩,
            sink.written)
        | .error e => (.error (.ofWire "receive failed" e), sink.written)

/-- Sends a datagram, unless it is too large, and returns the reply, if one was waited for, with
what was sent. -/
def Sending.overDatagram (s : Sending) (host : Host) (peer : Peer) :
    Except Failure (Option Bytes) × Bytes :=
  match host.connectDatagram s.network s.address with
  | .error e => (.error (.ofLink "connect failed" e), [])
  | .ok () =>
    if Datagram.maxSize < s.block.length then
      (.error (.ofFault "send failed" .messageTooLong), [])
    else if !s.wait then (.ok none, s.block)
    else
      match peer.datagram with
      | .error f => (.error (.ofFault "receive failed" f), s.block)
      | .ok reply =>
        match Block.trim (reply.take datagramBuffer) with
        | .ok block => (.ok (some block), s.block)
        | .error e => (.error (.ofWire "receive failed" e), s.block)

/-- Sends a message and prints the reply. -/
def Sending.run (s : Sending) (host : Host) (peer : Peer) (format : Format) : Report :=
  let (r, sent) := match s.network.kind with
    | .stream => s.overStream host peer
    | .datagram => s.overDatagram host peer
  match r with
  | .error f => .failed f sent
  | .ok none => .done [] sent
  | .ok (some reply) =>
    match ReplyView.ofBlock reply with
    | .error f => .failed f sent
    | .ok v => .done (v.print s.address format) sent

/-- What is to be sent, if all of it makes sense. -/
def sendingOf (network address : String) (content : Content) (wait : Bool) (timeout : String) :
    Except Failure Sending := do
  let n ← (Network.parse network).mapError (Failure.ofLink "invalid network")
  let _ ← Duration.parse timeout
  let block ← content.pack
  return ⟨n, address, block, wait⟩

/-! ## Commands -/

/-- **Runs a command that comes to an end by itself.**  `serve` is given as what becomes of it. -/
def Command.run (host : Host) (peer : Peer) (serve : String → String → Option String → Report)
    (format : Format) : Command → Report
  | .serve network address heartbeat => serve network address heartbeat
  | .send network address content wait timeout =>
    match sendingOf network address content wait timeout with
    | .error f => .failed f []
    | .ok s => s.run host peer format
  | .pack content =>
    match content.pack with
    | .error f => .failed f []
    | .ok block => .done (printPacked content block format) []
  | .version extended => .done (line (if extended then fullVersion else briefVersion)) []
  | .help topic => .done (line (HelpPage.ofTopic topic).render) []

end Switchboard
