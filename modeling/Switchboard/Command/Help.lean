import Switchboard.Command.Arguments

/-!
# Command/Help — the pages that say how the program is used

A page says what a command does, shows its usage line and lists its commands, operands and options
in sections.  A section has two columns, the second two blanks behind the widest entry of the
first; where the first column is wide and a text does not fit beside it, every text of the section
stands on a line of its own.
-/

namespace Switchboard

/-- An entry of a section: how it is written, and what it is for. -/
structure HelpEntry where
  /-- What stands before the name, to align long options with and without a letter. -/
  lead : String
  /-- How it is written. -/
  shape : String
  /-- What it is for. -/
  text : String
deriving Repr, DecidableEq

/-- A section of a page. -/
structure HelpSection where
  /-- Its heading. -/
  heading : String
  /-- Its entries, in the order they are listed in. -/
  entries : List HelpEntry
deriving Repr, DecidableEq

/-- A page of help. -/
structure HelpPage where
  /-- What the command does. -/
  about : String
  /-- How it is called. -/
  usage : String
  /-- What can be written after its name. -/
  sections : List HelpSection
deriving Repr, DecidableEq

namespace HelpSection

/-- How many columns a line of help may take. -/
def lineWidth : Nat := 100

/-- The widest entry of a section. -/
def widest (s : HelpSection) : Nat := (s.entries.map (·.shape.length)).foldl max 0

/-- Does the section put its texts on lines of their own?  It does if its first column takes more
than two fifths of a line and there is a text that the rest of the line is too short for. -/
def isTall (s : HelpSection) : Bool :=
  let taken := s.widest + 12
  decide (5 * taken > 2 * lineWidth) && s.entries.any fun e => e.text.length > lineWidth - taken

/-- So many blanks. -/
def blanks (n : Nat) : String := String.ofList (List.replicate n ' ')

/-- The text of an entry in a section. -/
def entry (s : HelpSection) (e : HelpEntry) : String :=
  let gap := if s.isTall then "\n" ++ blanks 10 else blanks (s.widest + 2 - e.shape.length)
  blanks 2 ++ e.lead ++ e.shape ++ gap ++ e.text

/-- The text of a section. -/
def render (s : HelpSection) : String :=
  s.heading ++ ":\n" ++ "\n".intercalate (s.entries.map s.entry)

end HelpSection

/-- **The text of a page.** -/
def HelpPage.render (p : HelpPage) : String :=
  "\n\n".intercalate ([p.about, "Usage: " ++ p.usage] ++ p.sections.map HelpSection.render)

namespace HelpPage

/-- An option without a letter. -/
def long (shape text : String) : HelpEntry := ⟨"    ", shape, text⟩

/-- An option with a letter. -/
def short (letter shape text : String) : HelpEntry := ⟨letter ++ ", ", shape, text⟩

/-- A command or an operand. -/
def operand (shape text : String) : HelpEntry := ⟨"", shape, text⟩

/-! ## Entries that several pages share -/

/-- The option that chooses the output format. -/
def format : HelpEntry :=
  long "--format <FORMAT>"
    "Output format. Default: table on a terminal, json otherwise [possible values: json, table, pretty, raw]"

/-- The option that chooses the format of the log. -/
def logFormat : HelpEntry :=
  long "--log-format <FORMAT>"
    "Log output format (stderr) [default: text] [possible values: text, json]"

/-- The option that chooses what is logged. -/
def logLevel : HelpEntry :=
  long "--log-level <LEVEL>"
    "Minimum log level (stderr) [default: info] [possible values: error, warn, info, debug, trace]"

/-- The option that asks for help. -/
def help : HelpEntry := short "-h" "--help" "Print help"

/-- The operand that names a network. -/
def network : HelpEntry := operand "<NETWORK>" "Network: tcp, tcp4, tcp6, unix, udp, udp4, udp6"

/-- The options that say what is sent, among those that concern all commands. -/
def content : List HelpEntry :=
  [format, long "--id <ID>" "Message id", long "--json <JSON>" "JSON body", logFormat,
   long "--data <DATA>" "Raw string body, sent verbatim", logLevel,
   long "--header <KEY=VALUE>"
    "Header entry as key=value; repeatable. JSON values are kept typed",
   long "--url <URL>" "Route by URL pattern instead of message id"]

/-- The commands and what they do. -/
def commands : List HelpEntry :=
  [operand "serve" "Run an echo server that replies with each request's id and body",
   operand "send" "Send one message and optionally wait for the reply",
   operand "pack" "Print a packed block as hex",
   operand "version" "Show version information",
   operand "help" "Print this message or the help of the given subcommand(s)"]

/-- What a command does. -/
def purposeOf (command : String) : String :=
  ((commands.find? (·.shape == command)).map (·.text)).getD ""

/-! ## Pages -/

/-- The page of the program. -/
def program : HelpPage :=
  ⟨"muxwire framing and server CLI", "muxwire [OPTIONS] <COMMAND>",
    [⟨"Commands", commands⟩,
     ⟨"Options", [format, logFormat, logLevel, help, short "-V" "--version" "Print version"]⟩]⟩

/-- The page of the command that serves. -/
def serve : HelpPage :=
  ⟨purposeOf "serve", "muxwire serve [OPTIONS] <NETWORK> <ADDR>",
    [⟨"Arguments",
      [network,
       operand "<ADDR>" "Address to bind (host:port, :port, or a socket path for unix)"]⟩,
     ⟨"Options",
      [format,
       long "--heartbeat <HEARTBEAT>"
        "Close stream connections that send no heartbeat for three intervals (e.g. 10s, 500ms)",
       logFormat, logLevel, help]⟩]⟩

/-- The page of the command that sends. -/
def send : HelpPage :=
  ⟨purposeOf "send", "muxwire send [OPTIONS] --id <ID> <NETWORK> <ADDR>",
    [⟨"Arguments", [network, operand "<ADDR>" "Server address"]⟩,
     ⟨"Options", content ++
      [long "--wait" "Wait for one reply and print it",
       long "--wait-timeout <WAIT_TIMEOUT>"
        "Maximum time to wait for the reply when --wait is set (e.g. 5s, 500ms) [default: 5s]",
       help]⟩]⟩

/-- The page of the command that packs. -/
def pack : HelpPage :=
  ⟨purposeOf "pack", "muxwire pack [OPTIONS] --id <ID>", [⟨"Options", content ++ [help]⟩]⟩

/-- The page of the command that shows the version. -/
def version : HelpPage :=
  ⟨purposeOf "version", "muxwire version [OPTIONS]",
    [⟨"Options",
      [long "--extended" "Show extended build information", format, logFormat, logLevel, help]⟩]⟩

/-- The page of the command that shows these pages. -/
def helping : HelpPage :=
  ⟨purposeOf "help", "muxwire help [COMMAND]...",
    [⟨"Arguments", [operand "[COMMAND]..." "Print help for the subcommand(s)"]⟩]⟩

/-- **The page of a topic**; without one it is the program's. -/
def ofTopic : HelpTopic → HelpPage
  | .program => program
  | .serve => serve
  | .send => send
  | .pack => pack
  | .version => version
  | .help => helping

end HelpPage

end Switchboard
