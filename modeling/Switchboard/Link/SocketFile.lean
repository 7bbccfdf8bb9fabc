import Switchboard.Bytes
import Switchboard.Link.Error

/-!
# Link/SocketFile — sockets that live in the file system

Binding a Unix socket makes a socket file.  Every socket file has a number of its own; a listener
remembers the number of the file it made and on closing removes the file at its path only if it is
still that one.  Binding replaces a socket file that is already there, whoever made it, and refuses
a path that holds anything else.

Where a path leads is found out anew each time (`FileSystem.resolve`).  Symbolic links on the way
are followed; one at its end is followed to see whether anything is there, and is itself what the
path holds.  A path that starts with the null character is no path but a name that a socket has
instead of a file; it is taken for as long as somebody listens.
-/

namespace Switchboard

/-- What a path holds. -/
inductive FileNode where
  /-- A regular file. -/
  | regular
  /-- A directory. -/
  | directory
  /-- A socket with its number. -/
  | socket (serial : Nat)
  /-- A symbolic link with the path it stands for. -/
  | link (target : String)
deriving Repr, DecidableEq

/-- The place of a file: the names on the way to it, none of them a link. -/
abbrev Path := List String

/-- The files below a directory and the sockets somebody listens on.  Programs work in that
directory and see nothing outside, so a path means the same with a slash in front. -/
structure FileSystem where
  /-- What each place holds. -/
  nodes : List (Path × FileNode)
  /-- The number of the next socket. -/
  fresh : Nat
  /-- The sockets somebody listens on. -/
  live : List Nat
  /-- The names of sockets without a file, with the number of each. -/
  names : List (String × Nat)
deriving Repr, Inhabited

/-- A listener on a Unix socket. -/
structure SocketListener where
  /-- The path it was bound to. -/
  path : String
  /-- The number of its socket. -/
  serial : Nat
  /-- Did it make a file? -/
  hasFile : Bool
deriving Repr, DecidableEq

namespace FileSystem

/-- The empty working directory. -/
def empty : FileSystem := ⟨[], 0, [], []⟩

/-! ## Places -/

/-- What a place holds. -/
def node? (fs : FileSystem) (p : Path) : Option FileNode :=
  if p = [] then some .directory else fs.nodes.lookup p

/-- Puts something at a place, over what was there. -/
def put (fs : FileSystem) (p : Path) (n : FileNode) : FileSystem :=
  { fs with nodes := (p, n) :: fs.nodes.filter fun e => e.1 ≠ p }

/-- Removes what is at a place. -/
def remove (fs : FileSystem) (p : Path) : FileSystem :=
  { fs with nodes := fs.nodes.filter fun e => e.1 ≠ p }

/-- Creates a regular file at a place that holds nothing. -/
def create (fs : FileSystem) (p : Path) : FileSystem :=
  if fs.node? p.dropLast = some .directory ∧ fs.node? p = none then fs.put p .regular else fs

/-! ## Paths -/

/-- The parts of a path; empty parts say nothing. -/
def partsOf (path : String) : List String :=
  ((path.toList.splitOn '/').map String.ofList).filter (· ≠ "")

/-- Does a slash at the end ask for a directory? -/
def asksDirectory (path : String) : Bool := path.toList.getLast? = some '/'

/-- How many links are followed on one way. -/
def maxLinks : Nat := 40

/-- **The way from a directory along parts of a path**, up to the next link: all parts but the last
must be directories.  A link is left to `next` with the directory it is in and the way that is
left; one at the end is only followed if asked. -/
def walk (fs : FileSystem) (follow : Bool) (next : Path → List String → Except IoFault Path)
    (dir : Path) : List String → Except IoFault Path
  | [] => .ok dir
  | part :: rest =>
    if part = "." then walk fs follow next dir rest
    else if part = ".." then walk fs follow next dir.dropLast rest
    else
      let here := dir ++ [part]
      match fs.node? here with
      | some .directory => walk fs follow next here rest
      | some (.link target) =>
        if rest = [] ∧ !follow then .ok here
        else next (if target.toList.head? = some '/' then [] else dir) (partsOf target ++ rest)
      | some _ => if rest = [] then .ok here else .error .notDirectory
      | none => if rest = [] then .ok here else .error .notFound

/-- The way from a directory along parts of a path, through fewer links than given. -/
def resolve (fs : FileSystem) (follow : Bool) : Nat → Path → List String → Except IoFault Path
  | 0 => fun _ _ => .error .tooManyLinks
  | links + 1 => fs.walk follow (fs.resolve follow links)

/-- The null character, which no path has. -/
def nul : Char := '\x00'

/-- Where a path leads from the working directory. -/
def locate (fs : FileSystem) (follow : Bool) (path : String) : Except IoFault Path :=
  if nul ∈ path.toList then .error .nullInPath
  else if path = "" then .error .notFound
  else fs.resolve follow (maxLinks + 1) [] (partsOf path)

/-- The place that a path names. -/
def placeOf (fs : FileSystem) (path : String) : Except IoFault Path := fs.locate false path

/-- The place that a path leads to when a link there is followed. -/
def targetOf (fs : FileSystem) (path : String) : Except IoFault Path := fs.locate true path

/-- Does a path lead to a file? -/
def leads (fs : FileSystem) (path : String) : Bool :=
  match fs.targetOf path with
  | .error _ => false
  | .ok p =>
    match fs.node? p with
    | some .directory => true
    | some _ => !asksDirectory path
    | none => false

/-! ## Sockets -/

/-- Makes a socket file at the place a path names, if that is free. -/
def makeSocket (fs : FileSystem) (path : String) : Except IoFault SocketListener × FileSystem :=
  match fs.placeOf path with
  | .error f => (.error f, fs)
  | .ok p =>
    match fs.node? p with
    | some _ => (.error .addressInUse, fs)
    | none =>
      if asksDirectory path then (.error .notFound, fs)
      else
        (.ok ⟨path, fs.fresh, true⟩,
          { fs.put p (.socket fs.fresh) with fresh := fs.fresh + 1, live := fs.fresh :: fs.live })

/-- A socket without a file, which an empty path stands for. -/
def makeUnnamed (fs : FileSystem) : SocketListener × FileSystem :=
  (⟨"", fs.fresh, false⟩, { fs with fresh := fs.fresh + 1, live := fs.fresh :: fs.live })

/-- Is this a name for a socket without a file? -/
def isName (path : String) : Bool := path.toList.head? = some nul

/-- Makes a socket under a name, if that is free. -/
def makeNamed (fs : FileSystem) (name : String) : Except IoFault SocketListener × FileSystem :=
  if (fs.names.lookup name).isSome then (.error .addressInUse, fs)
  else
    (.ok ⟨name, fs.fresh, false⟩,
      { fs.makeUnnamed.2 with names := (name, fs.fresh) :: fs.names })

/-- The octets of a path as it was given. -/
def sizeOf (path : String) : Nat := (Bytes.ofText path).length

/-- Makes the socket that a path asks for. -/
def make (fs : FileSystem) (path : String) : Except IoFault SocketListener × FileSystem :=
  if path = "" then (.ok fs.makeUnnamed.1, fs.makeUnnamed.2)
  else if isName path then fs.makeNamed path
  else fs.makeSocket path

/-- Makes the socket that a path asks for, in place of a socket file that is there. -/
def makeOver (fs : FileSystem) (path : String) : Except IoFault SocketListener × FileSystem :=
  if fs.leads path then
    match fs.placeOf path with
    | .error f => (.error f, fs)
    | .ok p =>
      match fs.node? p with
      | some (.socket _) => (fs.remove p).make path
      | _ => (.error .notSocket, fs)
  else fs.make path

/-- **Binds a Unix socket**: a path that is too long is refused first, then one that holds something
other than a socket; a socket file in the way is replaced. -/
def bind (fs : FileSystem) (path : String) : Except LinkError SocketListener × FileSystem :=
  if maxPathSize ≤ sizeOf path then (.error (.pathTooLong path (sizeOf path)), fs)
  else
    let (answer, fs) := fs.makeOver path
    (answer.mapError (.bind .unix path), fs)

/-- Removes the file a listener made, if its path still holds it. -/
def sweep (fs : FileSystem) (l : SocketListener) : FileSystem :=
  if !l.hasFile then fs
  else
    match fs.placeOf l.path with
    | .error _ => fs
    | .ok p => if fs.node? p = some (.socket l.serial) then fs.remove p else fs

/-- **Closes a listener**: nobody listens on its socket any more, and its file or its name goes with
it. -/
def close (fs : FileSystem) (l : SocketListener) : FileSystem :=
  { fs.sweep l with
    live := fs.live.filter (· ≠ l.serial)
    names := fs.names.filter (·.2 ≠ l.serial) }

/-- Connects to the socket at a path and returns its number. -/
def connect (fs : FileSystem) (path : String) : Except IoFault Nat :=
  if nul ∈ path.toList then .error .nullInPath
  else if maxPathSize ≤ sizeOf path then .error .pathTooLong
  else if path = "" then .error .invalidArgument
  else
    match fs.targetOf path with
    | .error f => .error f
    | .ok p =>
      match fs.node? p with
      | some .directory => .error .connectionRefused
      | some n =>
        if asksDirectory path then .error .notDirectory
        else
          match n with
          | .socket serial => if serial ∈ fs.live then .ok serial else .error .connectionRefused
          | _ => .error .connectionRefused
      | none => .error .notFound

end FileSystem

end Switchboard
