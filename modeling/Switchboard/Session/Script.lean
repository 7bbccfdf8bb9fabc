import Switchboard.Routing.Router
import Switchboard.Session.Hub

/-!
# Session/Script — handlers as scripts

A handler is a named list of actions on its request.  An action may be limited to a number of times
over all runs of its handler; after that it is passed over.
-/

namespace Switchboard

/-- What a handler can do with its request. -/
inductive Action where
  /-- Runs the rest of the chain. -/
  | next
  /-- Stops the chain. -/
  | abort
  /-- Starts the chain over. -/
  | reset
  | isAborted
  /-- The octets of the request. -/
  | block
  | messageId
  | header
  | urlPattern
  /-- Decodes the request in the connection's encoding. -/
  | bind (kind : BodyKind)
  /-- Decodes the request in a given encoding. -/
  | bindWith (marshaller : Marshaller) (kind : BodyKind)
  | reply (id : Int32) (body : Json) (headers : List Header)
  | replyRaw (id : Int32) (body : Bytes) (headers : List Header)
  | replyJson (id : Int32) (body : Json) (headers : List Header)
  | replyUrl (pattern : String) (body : Json) (headers : List Header)
  | setConnectionValue (key : String) (v : Stored)
  | setRequestValue (key : String) (v : Stored)
  | connectionValue (key : String) (type : StoredType)
  | requestValue (key : String) (type : StoredType)
  | online (user : String)
  | offline
  | username
  | sendToUser (user : String) (id : Int32) (body : Json) (headers : List Header)
  | noteHeartbeat
  | passAuth
  | denyAuth
  | close
  | isClosed
  | peer
  | network
  | connectionId
  | display
  /-- Sends the body back under the same message id; a request with the id that is given, if one is,
  counts as a heartbeat instead. -/
  | sendBack (beat : Option Int32)
  /-- Sends the body, a string, back in capitals. -/
  | upper (id : Int32)
  /-- Sends a string of so many letters. -/
  | fill (id : Int32) (count : Nat)
  /-- The handler breaks down. -/
  | breakDown
deriving Inhabited

/-- Sends any body back under the same message id. -/
def Action.echo : Action := .sendBack none

/-- The name an action is logged under. -/
def Action.name : Action → String
  | .next => "next"
  | .abort => "abort"
  | .reset => "reset"
  | .isAborted => "is_aborted"
  | .block => "block"
  | .messageId => "message_id"
  | .header => "header"
  | .urlPattern => "url_pattern"
  | .bind _ => "bind"
  | .bindWith .. => "bind_with"
  | .reply .. => "reply"
  | .replyRaw .. => "reply_raw"
  | .replyJson .. => "reply_json"
  | .replyUrl .. => "reply_url"
  | .setConnectionValue .. => "set_conn_value"
  | .setRequestValue .. => "set_request_value"
  | .connectionValue .. => "conn_value"
  | .requestValue .. => "request_value"
  | .online _ => "online"
  | .offline => "offline"
  | .username => "username"
  | .sendToUser .. => "send_to_username"
  | .noteHeartbeat => "recv_heartbeat"
  | .passAuth => "auth_pass"
  | .denyAuth => "auth_deny"
  | .close => "close"
  | .isClosed => "is_closed"
  | .peer => "peer_addr"
  | .network => "network"
  | .connectionId => "connection_id"
  | .display => "debug"
  | .sendBack _ => "echo"
  | .upper _ => "upper"
  | .fill .. => "reply_fill"
  | .breakDown => "panic"

/-- An action and how many times it may run. -/
structure Step where
  /-- The action. -/
  action : Action
  /-- The limit, if there is one. -/
  times : Option Nat
deriving Inhabited

/-- A handler. -/
structure Script where
  /-- Tells handlers of one name apart. -/
  serial : Nat
  /-- The name it logs under; without one it logs nothing. -/
  name : Option String
  /-- What it does. -/
  steps : List Step
deriving Inhabited

/-- A request and how far its chain has run. -/
structure Request where
  /-- The connection it came over. -/
  place : Place
  /-- Its octets. -/
  block : Bytes
  /-- The handlers it runs through. -/
  chain : List Script
  /-- How many of them were started since the chain was last started over. -/
  cursor : Nat
  /-- Was the chain stopped? -/
  aborted : Bool
  /-- The values its handlers keep. -/
  values : Store
deriving Inhabited

/-- A request whose chain was not started. -/
def Request.ofBlock (place : Place) (block : Bytes) (chain : List Script) : Request :=
  ⟨place, block, chain, 0, false, .empty⟩

/-- What an action comes to. -/
inductive Answer where
  | nothing
  | done
  | failed (e : SessionError)
  | flag (b : Bool)
  | octets (bs : Bytes)
  | messageId (id : Int32)
  | header (h : Header)
  | pattern (p : Option String)
  | message (m : Message)
  | name (s : Option String)
  | stored (v : Option Stored)
  | text (s : String)
  | number (n : Nat)
deriving Inhabited

/-- An entry of the log that handlers keep. -/
inductive Entry where
  /-- A handler was started. -/
  | started (name : String)
  /-- An action of a handler came to an end. -/
  | did (name : String) (action : Action) (answer : Answer)
deriving Inhabited

end Switchboard
