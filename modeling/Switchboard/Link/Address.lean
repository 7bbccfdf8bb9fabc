import Switchboard.Link.Error
import Switchboard.Text.Numeral

/-!
# Link/Address — internet addresses

An address is a host and a port with a colon between them.  A host is four decimal octets, or an
IPv6 address between brackets; other hosts would need a name service and are not found.  A listener
may leave the host out, which means every interface of the network's family.
-/

namespace Switchboard

/-- A host. -/
inductive HostAddress where
  /-- Four octets. -/
  | v4 (a b c d : Nat)
  /-- An IPv6 address as it was written. -/
  | v6 (text : String)
deriving Repr, DecidableEq

/-- A host and a port. -/
structure SocketAddress where
  /-- The host. -/
  host : HostAddress
  /-- The port. -/
  port : Nat
deriving Repr, DecidableEq

namespace HostAddress

/-- The text of a host. -/
def text : HostAddress → String
  | v4 a b c d => toString a ++ "." ++ toString b ++ "." ++ toString c ++ "." ++ toString d
  | v6 s => s

/-- A decimal octet without leading zeros. -/
def octet? (cs : List Char) : Option Nat :=
  if cs.length ≤ 3 ∧ (cs.length = 1 ∨ cs.head? ≠ some '0') then
    (Text.digits? cs).filter (· < 256)
  else none

/-- Cuts a text at every occurrence of a character. -/
def cut (mark : Char) : List Char → List (List Char)
  | [] => [[]]
  | c :: rest =>
    match cut mark rest with
    | [] => [[c]]
    | part :: parts => if c = mark then [] :: part :: parts else (c :: part) :: parts

/-- Four decimal octets with points between them. -/
def v4? (cs : List Char) : Option HostAddress :=
  match (cut '.' cs).mapM octet? with
  | some [a, b, c, d] => some (v4 a b c d)
  | _ => none

/-- Is this a group of an IPv6 address? -/
def isGroup (cs : List Char) : Bool :=
  !cs.isEmpty && cs.length ≤ 4 && cs.all fun c =>
    c.isDigit || ('a' ≤ c && c ≤ 'f') || ('A' ≤ c && c ≤ 'F')

/-- Is this an IPv6 address?  Eight groups, or fewer with one gap in between. -/
def isV6 (cs : List Char) : Bool :=
  let parts := cut ':' cs
  let groups := parts.filter fun p => !p.isEmpty
  let gaps := parts.length - groups.length
  groups.all isGroup &&
    if gaps = 0 then groups.length = 8
    else if parts = [[], [], []] then true
    else
      groups.length < 8 &&
        ((gaps = 1 && parts.head? ≠ some [] && parts.getLast? ≠ some []) ||
         (gaps = 2 && (parts.take 2 = [[], []] || parts.drop (parts.length - 2) = [[], []])))

/-- Is this host of the family that the network may use? -/
def suits (h : HostAddress) (network : Network) : Bool :=
  match network, h with
  | .tcp4, v6 _ | .udp4, v6 _ => false
  | .tcp6, v4 .. | .udp6, v4 .. => false
  | _, _ => true

end HostAddress

namespace SocketAddress

/-- The text of an address. -/
def text (a : SocketAddress) : String :=
  match a.host with
  | .v6 s => "[" ++ s ++ "]:" ++ toString a.port
  | h => h.text ++ ":" ++ toString a.port

/-- The largest port. -/
def maxPort : Nat := 65535

/-- What stands before and after the last colon. -/
def cutLast (cs : List Char) : Option (List Char × List Char) :=
  let tail := cs.reverse.takeWhile (· ≠ ':')
  if tail.length = cs.length then none
  else some (cs.take (cs.length - tail.length - 1), tail.reverse)

/-- Reads an address: a missing colon is noticed first, then a bad port, then an unknown host. -/
def parse (s : String) : Except IoFault SocketAddress :=
  match cutLast s.toList with
  | none => .error .noPort
  | some (host, port) =>
    match Text.natural? maxPort port with
    | none => .error .badPort
    | some n =>
      match host with
      | '[' :: rest =>
        let inner := rest.dropLast
        if rest.getLast? = some ']' ∧ HostAddress.isV6 inner then
          .ok ⟨.v6 (String.ofList inner), n⟩
        else .error .unknownHost
      | _ =>
        match HostAddress.v4? host with
        | some h => .ok ⟨h, n⟩
        | none => .error .unknownHost

/-- Reads an address of the family that the network may use. -/
def parseFor (network : Network) (s : String) : Except IoFault SocketAddress :=
  match parse s with
  | .error f => .error f
  | .ok a => if a.host.suits network then .ok a else .error .noSuchFamily

/-- The address to bind: a text that starts with the colon stands for every interface. -/
def completed (network : Network) (s : String) : String :=
  if s.toList.head? = some ':' then
    match network with
    | .tcp6 | .udp6 => "[::]" ++ s
    | _ => "0.0.0.0" ++ s
  else s

end SocketAddress

end Switchboard
