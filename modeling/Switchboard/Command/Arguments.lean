import Switchboard.Text.Numeral

/-!
# Command/Arguments — the grammar of the command line

A command line is a command with options and operands.  Options are written `--name value` or
`--name=value`, before or after the operands; a value that starts with a dash must be joined with
`=`, a negative number where one is expected apart.  The options that concern all commands may
stand before the command too; where both places give one, the later place wins.  Everything else is
not understood, and no option may be given twice in one place unless it is a list.
-/

namespace Switchboard

/-- How results are printed. -/
inductive Format where
  | json
  | table
  | pretty
  | raw
deriving Repr, DecidableEq

/-- What is sent. -/
structure Content where
  /-- The message id. -/
  id : Int32
  /-- The body as JSON text. -/
  json : Option String
  /-- The body as plain text. -/
  data : Option String
  /-- The header entries. -/
  entries : List String
  /-- The URL pattern to route by. -/
  url : Option String
deriving Repr, DecidableEq

/-- What help can be asked about. -/
inductive HelpTopic where
  | program
  | serve
  | send
  | pack
  | version
  | help
deriving Repr, DecidableEq

/-- The topic with the name of a command. -/
def HelpTopic.ofName? (name : String) : Option HelpTopic :=
  match name with
  | "serve" => some .serve
  | "send" => some .send
  | "pack" => some .pack
  | "version" => some .version
  | "help" => some .help
  | _ => none

/-- A command. -/
inductive Command where
  /-- Runs an echo server. -/
  | serve (network address : String) (heartbeat : Option String)
  /-- Sends one message and perhaps waits for a reply. -/
  | send (network address : String) (content : Content) (wait : Bool) (timeout : String)
  /-- Prints a packed block. -/
  | pack (content : Content)
  /-- Prints the version, briefly or in full. -/
  | version (extended : Bool)
  /-- Prints how the program, or one of its commands, is used. -/
  | help (topic : HelpTopic)
deriving Repr, DecidableEq

/-- A command line that was understood. -/
structure Invocation where
  /-- How results are printed. -/
  format : Format
  /-- What is to be done. -/
  command : Command
deriving Repr, DecidableEq

namespace Arguments

/-- What follows the name of an option. -/
inductive Arity where
  /-- Nothing. -/
  | flag
  /-- A value. -/
  | value
  /-- A value that may be a negative number. -/
  | number
  /-- A value, and the option may be given again. -/
  | list
deriving Repr, DecidableEq

/-- An option by its name, the dashes left out. -/
abbrev OptionSpec := String × Arity

/-- The options and operands of one place of a command line. -/
structure Given where
  /-- The options with their values, in order. -/
  options : List (String × String)
  /-- The operands, in order. -/
  operands : List String
deriving Repr, DecidableEq

/-- Is this token an operand rather than an option?  A lone dash is one. -/
def isOperand (token : String) : Bool := token = "-" || token.toList.head? ≠ some '-'

/-- Is this token a negative number? -/
def isNegative (token : String) : Bool :=
  match token.toList with
  | '-' :: rest => (Text.digits? rest).isSome
  | _ => false

/-- The name and the joined value of an option token, without the dashes. -/
def cutOption (token : String) : String × Option String :=
  let cs := token.toList.drop 2
  let name := cs.takeWhile (· ≠ '=')
  (String.ofList name,
    if name.length = cs.length then none else some (String.ofList (cs.drop (name.length + 1))))

/-- Adds an option, unless it was given before. -/
def Given.add (g : Given) (name : String) (arity : Arity) (value : String) : Option Given :=
  if arity ≠ .list ∧ g.options.any (·.1 == name) then none
  else some { g with options := g.options ++ [(name, value)] }

/-- Does this token ask for help?  Letters after the one that does are not looked at. -/
def asksHelp (token : String) : Bool := token = "--help" || token.toList.take 2 = ['-', 'h']

/-- Does this token ask for the version? -/
def asksVersion (token : String) : Bool := token = "--version" || token.toList.take 2 = ['-', 'V']

/-- Reads the tokens of one place.  It stops in front of a token that asks for help and, with `upto`
set, in front of the first operand and of a token that asks for the version; what was not read is
returned. -/
def read (known : List OptionSpec) (upto : Bool) :
    Given → List String → Option (Given × List String)
  | g, [] => some (g, [])
  | g, token :: rest =>
    if asksHelp token || (upto && asksVersion token) then some (g, token :: rest)
    else if token = "--" then
      if upto then none else some ({ g with operands := g.operands ++ rest }, [])
    else if token.toList.take 2 = ['-', '-'] then
      let (name, joined) := cutOption token
      match known.lookup name, joined with
      | none, _ => none
      | some .flag, some _ => none
      | some .flag, none => (g.add name .flag "").bind fun g => read known upto g rest
      | some arity, some v => (g.add name arity v).bind fun g => read known upto g rest
      | some arity, none =>
        match rest with
        | [] => none
        | v :: rest =>
          if isOperand v || (arity = .number && isNegative v) then
            (g.add name arity v).bind fun g => read known upto g rest
          else none
    else if isOperand token then
      if upto then some (g, token :: rest)
      else read known upto { g with operands := g.operands ++ [token] } rest
    else none

/-- The value of an option. -/
def Given.value? (g : Given) (name : String) : Option String := g.options.lookup name

/-- The values of an option that is a list. -/
def Given.values (g : Given) (name : String) : List String :=
  (g.options.filter (·.1 == name)).map Prod.snd

/-- Was an option given? -/
def Given.has (g : Given) (name : String) : Bool := g.options.any (·.1 == name)

/-! ## The commands -/

/-- The options that concern all commands. -/
def everywhere : List OptionSpec :=
  [("format", .value), ("log-format", .value), ("log-level", .value)]

/-- The options that say what is sent. -/
def contentOptions : List OptionSpec :=
  [("id", .number), ("json", .value), ("data", .value), ("header", .list), ("url", .value)]

/-- The options of a command. -/
def optionsOf (command : String) : Option (List OptionSpec) :=
  match command with
  | "serve" => some [("heartbeat", .value)]
  | "send" => some (contentOptions ++ [("wait", .flag), ("wait-timeout", .value)])
  | "pack" => some contentOptions
  | "version" => some [("extended", .flag)]
  | _ => none

/-- How many operands a command takes. -/
def operandsOf (command : String) : Nat := if command = "serve" || command = "send" then 2 else 0

/-- The output format with a name. -/
def format? (name : String) : Option Format :=
  match name with
  | "json" => some .json
  | "table" => some .table
  | "pretty" => some .pretty
  | "raw" => some .raw
  | _ => none

/-- Do the options that concern all commands have values they may have? -/
def checkEverywhere (g : Given) : Bool :=
  let oneOf (name : String) (values : List String) : Bool :=
    (g.value? name).all fun v => values.contains v
  oneOf "format" ["json", "table", "pretty", "raw"] && oneOf "log-format" ["text", "json"] &&
    oneOf "log-level" ["error", "warn", "info", "debug", "trace"]

/-- The largest message id. -/
def maxId : Nat := 2147483647

/-- What is to be sent.  The id is required, and a body is given in one way at most. -/
def contentOf (g : Given) : Option Content := do
  let id ← g.value? "id"
  let n ← Text.integer? maxId id.toList
  if g.has "json" && g.has "data" then none
  else some ⟨Int32.ofInt n, g.value? "json", g.value? "data", g.values "header", g.value? "url"⟩

/-- How long a reply is waited for unless it is said otherwise. -/
def defaultTimeout : String := "5s"

/-- The command of a name with its options and operands. -/
def commandOf (name : String) (g : Given) : Option Command :=
  match name, g.operands with
  | "serve", [network, address] => some (.serve network address (g.value? "heartbeat"))
  | "send", [network, address] =>
    (contentOf g).map fun c =>
      .send network address c (g.has "wait") ((g.value? "wait-timeout").getD defaultTimeout)
  | "pack", [] => (contentOf g).map .pack
  | "version", [] => some (.version (g.has "extended"))
  | _, _ => none

/-- Has the id a value it may have? -/
def checkId (g : Given) : Bool :=
  (g.value? "id").all fun v => (Text.integer? maxId v.toList).isSome

/-- What the tokens after the name of a command ask for. -/
def commandOf? (name : String) (tokens : List String) : Option (Given × Command) := do
  let own ← optionsOf name
  let (g, rest) ← read (everywhere ++ own) false ⟨[], []⟩ tokens
  if !(checkEverywhere g && checkId g) || g.operands.length > operandsOf name then none
  else if rest ≠ [] then (HelpTopic.ofName? name).map fun topic => (g, .help topic)
  else (commandOf name g).map fun c => (g, c)

/-- **Reads a command line**, the program's name left out. -/
def parse (args : List String) : Option Invocation := do
  let (front, rest) ← read everywhere true ⟨[], []⟩ args
  if !checkEverywhere front then none
  else
    match rest with
    | [] => none
    | name :: rest =>
      if asksHelp name || (name = "help" && rest = []) then some ⟨.json, .help .program⟩
      else if asksVersion name then some ⟨.json, .version false⟩
      else if name = "help" then
        match rest with
        | [topic] => (HelpTopic.ofName? topic).map fun topic => ⟨.json, .help topic⟩
        | _ => none
      else
        let (g, command) ← commandOf? name rest
        let chosen := (g.value? "format").or (front.value? "format")
        some ⟨(chosen.bind format?).getD .json, command⟩

end Arguments

end Switchboard
