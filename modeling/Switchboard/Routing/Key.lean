import Switchboard.Text.Quoted

/-!
# Routing/Key — what a handler is registered under

A handler is registered under a message id or under a URL pattern.  Registering goes wrong in three
ways, listed in `RegistryError`.
-/

namespace Switchboard

/-- What a handler is registered under. -/
inductive RouteKey where
  /-- A message id. -/
  | messageId (id : Int32)
  /-- A URL pattern, matched as a whole. -/
  | urlPattern (pattern : String)
deriving Repr, DecidableEq

namespace RouteKey

/-- The words for a key. -/
def words : RouteKey → String
  | messageId id => "message id " ++ toString id.toInt
  | urlPattern pattern => "url pattern '" ++ pattern ++ "'"

/-- The key in a displayed structure. -/
def display : RouteKey → String
  | messageId id => "MessageId(" ++ toString id.toInt ++ ")"
  | urlPattern pattern => "UrlPattern(" ++ Text.quoted pattern ++ ")"

end RouteKey

/-- Why handlers or middleware cannot be registered as asked. -/
inductive RegistryError where
  /-- The key already has a handler. -/
  | duplicateRoute (key : RouteKey)
  /-- No middleware was ever activated under this key. -/
  | unknownMiddleware (key : String)
  /-- The activations and deactivations of a middleware do not match. -/
  | unbalanced (key : String) (starts ends : Nat)
deriving Repr, DecidableEq

/-- The text people are shown. -/
def RegistryError.message : RegistryError → String
  | duplicateRoute key => "duplicate route: " ++ key.words ++ " already has a handler"
  | unknownMiddleware key =>
    "middleware '" ++ key ++ "' was never registered with use_middleware"
  | unbalanced key starts ends =>
    "middleware '" ++ key ++ "' has " ++ toString starts ++ " use and " ++ toString ends ++
      " unuse calls"

end Switchboard
