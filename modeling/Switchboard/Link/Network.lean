/-!
# Link/Network — the transports a server can listen on

A network carries either a stream of octets or single datagrams, and an internet network may be
bound to one address family.  `kcp` has a name but no transport behind it.
-/

namespace Switchboard

/-- What a transport carries. -/
inductive TransportKind where
  | stream
  | datagram
deriving Repr, DecidableEq

/-- The word for a kind of transport. -/
def TransportKind.name : TransportKind → String
  | stream => "stream"
  | datagram => "datagram"

/-- A transport a server can be asked to listen on. -/
inductive Network where
  | tcp
  | tcp4
  | tcp6
  | unix
  | udp
  | udp4
  | udp6
  | kcp
deriving Repr, DecidableEq, Inhabited

namespace Network

/-- The name a network is known by. -/
def name : Network → String
  | tcp => "tcp"
  | tcp4 => "tcp4"
  | tcp6 => "tcp6"
  | unix => "unix"
  | udp => "udp"
  | udp4 => "udp4"
  | udp6 => "udp6"
  | kcp => "kcp"

/-- The name of a network in a displayed structure. -/
def title : Network → String
  | tcp => "Tcp"
  | tcp4 => "Tcp4"
  | tcp6 => "Tcp6"
  | unix => "Unix"
  | udp => "Udp"
  | udp4 => "Udp4"
  | udp6 => "Udp6"
  | kcp => "Kcp"

/-- All networks. -/
def all : List Network := [tcp, tcp4, tcp6, unix, udp, udp4, udp6, kcp]

/-- The network with a name. -/
def ofName? (s : String) : Option Network := all.find? fun n => n.name == s

/-- What a network carries. -/
def kind : Network → TransportKind
  | udp | udp4 | udp6 => .datagram
  | _ => .stream

/-- **A name finds its network.** -/
@[simp] theorem ofName?_name (n : Network) : ofName? n.name = some n := by
  cases n <;> decide

end Network

end Switchboard
