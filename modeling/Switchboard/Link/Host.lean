import Switchboard.Link.Address
import Switchboard.Link.SocketFile

/-!
# Link/Host — what a program finds on the machine it runs on

A host has a working directory with socket files and a network stack.  Internet addresses of the
host itself can be bound; whether any internet address can be connected to depends on whether the
host has a route at all.
-/

namespace Switchboard

/-- A machine. -/
structure Host where
  /-- The working directory. -/
  files : FileSystem
  /-- Does a route lead to internet addresses, the machine's own among them? -/
  hasRoute : Bool
  /-- The internet addresses that are bound, with what they carry. -/
  bound : List (TransportKind × SocketAddress)
  /-- The port given to the next listener that asks for any. -/
  anyPort : Nat
deriving Repr, Inhabited

/-- Something bound to an address. -/
inductive Binding where
  /-- A Unix socket, at a path as it was given. -/
  | file (path : String) (listener : SocketListener)
  /-- An internet address of a network. -/
  | internet (network : Network) (address : SocketAddress)
deriving Repr, DecidableEq

namespace Binding

/-- The network of a binding. -/
def network : Binding → Network
  | file .. => .unix
  | internet n _ => n

/-- The address a binding can be bound to again. -/
def address : Binding → String
  | file path _ => path
  | internet _ a => a.text

end Binding

namespace Host

/-- A machine with an empty working directory. -/
def fresh (hasRoute : Bool) : Host := ⟨.empty, hasRoute, [], 40000⟩

/-- Is this one of the machine's own addresses? -/
def isOwn : HostAddress → Bool
  | .v4 127 _ _ _ => true
  | .v4 0 0 0 0 => true
  | .v4 .. => false
  | .v6 s => s = "::1" || s = "::"

/-- Binds an internet address; port `0` stands for any free port. -/
def bindInternet (h : Host) (network : Network) (address : String) :
    Except LinkError Binding × Host :=
  let refused (f : IoFault) : Except LinkError Binding × Host :=
    (.error (.bind network address f), h)
  match SocketAddress.parseFor network (SocketAddress.completed network address) with
  | .error f => refused f
  | .ok a =>
    if !isOwn a.host then refused .addressUnavailable
    else
      let a := if a.port = 0 then { a with port := h.anyPort } else a
      if (network.kind, a) ∈ h.bound then refused .addressInUse
      else
        (.ok (.internet network a),
          { h with bound := (network.kind, a) :: h.bound, anyPort := h.anyPort + 1 })

/-- **Binds a stream listener.** -/
def listen (h : Host) (network : Network) (address : String) : Except LinkError Binding × Host :=
  match network with
  | .tcp | .tcp4 | .tcp6 => h.bindInternet network address
  | .unix =>
    match h.files.bind address with
    | (.ok l, files) => (.ok (.file address l), { h with files := files })
    | (.error e, files) => (.error e, { h with files := files })
  | .kcp => (.error (.unavailable network), h)
  | .udp | .udp4 | .udp6 => (.error (.wrongKind network), h)

/-- **Binds a datagram socket.** -/
def bindDatagram (h : Host) (network : Network) (address : String) :
    Except LinkError Binding × Host :=
  match network.kind with
  | .datagram => h.bindInternet network address
  | .stream => (.error (.wrongKind network), h)

/-- Gives a binding up. -/
def release (h : Host) : Binding → Host
  | .file _ l => { h with files := h.files.close l }
  | .internet n a => { h with bound := h.bound.filter (· ≠ (n.kind, a)) }

/-- Connects to an internet address of a kind. -/
def reach (h : Host) (kind : TransportKind) (network : Network) (address : String) :
    Except LinkError SocketAddress :=
  let refused (f : IoFault) : Except LinkError SocketAddress :=
    .error (.connect network address f)
  match SocketAddress.parseFor network address with
  | .error f => refused f
  | .ok a =>
    if !h.hasRoute then refused .unreachable
    else if kind = .datagram ∨ (kind, a) ∈ h.bound then .ok a
    else refused .connectionRefused

/-- The way a client's stream goes. -/
inductive Way where
  | tcp
  | unix
deriving Repr, DecidableEq

/-- The stream as people are shown it. -/
def Way.display : Way → String
  | tcp => "ClientStream \x7b type: \"tcp\" \x7d"
  | unix => "ClientStream \x7b type: \"unix\" \x7d"

/-- **Connects a client stream.** -/
def connect (h : Host) (network : Network) (address : String) : Except LinkError Way :=
  match network with
  | .tcp | .tcp4 | .tcp6 => (h.reach .stream network address).map fun _ => .tcp
  | .unix =>
    match h.files.connect address with
    | .ok _ => .ok .unix
    | .error f => .error (.connect network address f)
  | .kcp => .error (.unavailable network)
  | .udp | .udp4 | .udp6 => .error (.wrongKind network)

/-- Connects a client's datagram socket. -/
def connectDatagram (h : Host) (network : Network) (address : String) : Except LinkError Unit :=
  match network.kind with
  | .datagram => (h.reach .datagram network address).map fun _ => ()
  | .stream => .error (.wrongKind network)

end Host

end Switchboard
