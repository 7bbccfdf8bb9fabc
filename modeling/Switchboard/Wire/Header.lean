import Switchboard.Json.Reader
import Switchboard.Text.Blank
import Switchboard.Text.Numeral
import Switchboard.Wire.Error

/-!
# Wire/Header — block headers and the keys reserved in them

A header is a JSON object.  Three of its keys are set by the library alone: `Router-Type` and
`Router-Pattern-Value` select a handler by URL pattern instead of by message id (`Header.route`),
and `Pipe` announces how many further blocks belong to the same pipeline (`Header.followers?`).
An empty header takes no octet on the wire.
-/

namespace Switchboard

/-- A block header: the fields of a JSON object. -/
abbrev Header := KeyMap Json

/-- How the receiver picks a handler. -/
inductive Route where
  /-- By the message id. -/
  | messageId
  /-- By a URL pattern. -/
  | urlPattern (pattern : String)
deriving Repr, DecidableEq

namespace Header

/-! ## Reserved keys -/

/-- The key that says how the block is routed. -/
def routerKey : String := "Router-Type"

/-- The key of the URL pattern. -/
def patternKey : String := "Router-Pattern-Value"

/-- The key of the pipeline directive. -/
def pipeKey : String := "Pipe"

/-- The value of `Router-Type` that selects by URL pattern. -/
def byPattern : String := "URL_PATTERN"

/-- What a pipeline directive starts with. -/
def pipeMark : String := "enable;"

/-- Is this key set by the library alone? -/
def isReserved (key : String) : Bool := key = routerKey || key = patternKey || key = pipeKey

/-- The first reserved key of a header, in key order. -/
def reserved? (h : Header) : Option String := h.keys.find? isReserved

/-- Refuses a header with a reserved key. -/
def check (h : Header) : Except WireError Unit :=
  match reserved? h with
  | some key => .error (.reservedKey key)
  | none => .ok ()

/-- All headers together, later ones winning. -/
def mergeAll (hs : List Header) : Header := hs.foldl KeyMap.merge KeyMap.empty

/-! ## Routing -/

/-- The text under a key, if there is one. -/
def text? (h : Header) (key : String) : Option String := (h.get? key).bind Json.text?

theorem text?_eq_some_iff {h : Header} {key s : String} :
    text? h key = some s ↔ h.get? key = some (.string s) := by
  rw [text?, Option.bind_eq_some_iff]
  constructor
  · rintro ⟨v, hv, hs⟩
    cases v with
    | string s' => exact Option.some.inj hs ▸ hv
    | _ => cases hs
  · exact fun hv => ⟨_, hv, rfl⟩

/-- **The route a header asks for.**  Without a pattern that is a nonempty text, and for any other
router type, it is the message id. -/
def route (h : Header) : Route :=
  if text? h routerKey = some byPattern then
    match text? h patternKey with
    | some pattern => if pattern = "" then .messageId else .urlPattern pattern
    | none => .messageId
  else .messageId

/-- The header with a URL pattern to route by. -/
def withPattern (h : Header) (pattern : String) : Header :=
  (h.insert routerKey (.string byPattern)).insert patternKey (.string pattern)

/-! ## Pipelines -/

/-- The largest count a directive can give. -/
def maxFollowers : Nat := 0xFFFF_FFFF_FFFF_FFFF

/-- The header with a directive that announces `n` further blocks. -/
def withFollowers (h : Header) (n : Nat) : Header :=
  h.insert pipeKey (.string (pipeMark ++ String.ofList (Number.decimal n)))

/-- What is left of a text after a mark in front. -/
def afterMark (mark : List Char) (cs : List Char) : Option (List Char) :=
  if mark.isPrefixOf cs then some (cs.drop mark.length) else none

/-- The count a directive gives: after the mark and white space an unsigned numeral, then white
space.  Zero is no count. -/
def directive? (s : String) : Option Nat :=
  (afterMark pipeMark.toList s.toList).bind fun rest =>
    (Text.natural? maxFollowers (Text.trim rest)).filter (0 < ·)

/-- **How many further blocks the header announces**, if it announces any. -/
def followers? (h : Header) : Option Nat := (text? h pipeKey).bind directive?

/-! ## On the wire -/

/-- The octets of a header: none for the empty one. -/
def bytes (h : Header) : Bytes :=
  if h.isEmpty then [] else (Json.object h.entries).bytes

/-- The compact JSON text of a header. -/
def compact (h : Header) : String := (Json.object h.entries).compact

/-- The header that octets write; no octets are the empty header. -/
def decode (bs : Bytes) : Except WireError Header :=
  if bs = [] then .ok KeyMap.empty
  else match Json.parseObject bs with
    | .ok h => .ok h
    | .error e => .error (.header e)

end Header

end Switchboard
