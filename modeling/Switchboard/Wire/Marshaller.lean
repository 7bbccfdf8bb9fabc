/-!
# Wire/Marshaller — the encodings a body may have

Four encodings have a name here.  This is the default build, in which only JSON is built in: the
other three are optional parts that a build must ask for, and without them each has its name, can be
chosen, and fails with an error of its own as soon as a body is to be encoded or decoded
(`Marshaller.isEnabled`).  A header is always JSON, whatever the encoding of the body.
-/

namespace Switchboard

/-- An encoding of message bodies. -/
inductive Marshaller where
  | json
  | toml
  | xml
  | yaml
deriving Repr, DecidableEq, Inhabited

namespace Marshaller

/-- The name an encoding is known by. -/
def name : Marshaller → String
  | json => "json"
  | toml => "toml"
  | xml => "xml"
  | yaml => "yaml"

/-- The name of an encoding in a displayed structure. -/
def title : Marshaller → String
  | json => "Json"
  | toml => "Toml"
  | xml => "Xml"
  | yaml => "Yaml"

/-- Is the encoding built in, by default? -/
def isEnabled (m : Marshaller) : Bool := m = json

/-- All encodings with a name. -/
def all : List Marshaller := [json, toml, xml, yaml]

end Marshaller

end Switchboard
