/-!
# File trees

Files and directories by path, as far as reading and writing saved data needs
them. A path is a text with slashes, of limited length and with parts of limited
length; a missing directory is made when a file is saved into it.
-/

namespace RobotMotion

/-- What is found at a path. -/
inductive Found where
  /-- nothing -/
  | missing
  /-- something that cannot be read as a file -/
  | unreadable
  /-- a file with its contents -/
  | file (contents : String)
deriving DecidableEq, Repr

/-- What stands at a place of a tree. -/
inductive Node where
  | directory
  | file (contents : String)
deriving DecidableEq, Repr

/-- Files and directories by the names on the way to them. The root is always a
directory. -/
structure FileTree where
  nodes : List (List String × Node)
deriving DecidableEq, Repr

namespace FileTree

/-- Nothing but the root. -/
def empty : FileTree := ⟨[]⟩

/-- The node at a place. -/
def node? (t : FileTree) : List String → Option Node
  | [] => some .directory
  | place => t.nodes.lookup place

/-- The tree with a node put at a place. -/
def put (t : FileTree) (place : List String) (node : Node) : FileTree :=
  ⟨(place, node) :: t.nodes.filter (·.1 != place)⟩

/-- The parts of a path between its slashes. -/
def parts (path : String) : List String :=
  ((path.toList.splitOn '/').map String.ofList)

/-- Whether a text can be a path at all: below 4096 bytes and no null character.
Nothing is found or made at any other. -/
def isPath (path : String) : Bool := path.utf8ByteSize < 4096 && !path.toList.contains '\x00'

/-- Whether a part can name a node: at most 255 bytes. -/
def isName (part : String) : Bool := part.utf8ByteSize ≤ 255

/-- The place that a path leads to. A part with a single point, or with nothing,
stays where it is and asks for a directory; two points lead back. Every place on
the way has to be a directory. -/
def walk (t : FileTree) : List String → List String → Option (List String)
  | here, [] => some here
  | here, part :: rest =>
    if t.node? here = some .directory then
      if part = "" ∨ part = "." then walk t here rest
      else if part = ".." then walk t here.dropLast rest
      else if isName part then walk t (here ++ [part]) rest
      else none
    else none

/-- What is found at a path by someone who stands at a place. A path that begins
with a slash leads from the root, any other from that place. -/
def findFrom (t : FileTree) (here : List String) (path : String) : Found :=
  let start := if path.startsWith "/" then [] else here
  if path = "" || !isPath path then .missing
  else match (t.walk start (parts path)).bind t.node? with
    | none => .missing
    | some .directory => .unreadable
    | some (.file contents) => .file contents

/-- What is found at a path from the root. -/
def find (t : FileTree) (path : String) : Found := t.findFrom [] path

/-! ### Saving -/

/-- Whether the parts at the end of a path only ask, by a lone point, for a
directory that is there already. -/
def staysInPlace (parts : List String) : Bool :=
  parts.contains "." && parts.all fun part => part = "" || part = "."

/-- Make the directories that are missing on the way along the parts of a path,
and say whether they now lead to a directory. Those made before an obstacle stay. -/
def makeParts (t : FileTree) : List String → List String → FileTree × Bool
  | here, [] => (t, t.node? here = some .directory)
  | here, part :: rest =>
    if t.node? here = some .directory then
      if part = "" ∨ part = "." then makeParts t here rest
      else if part = ".." then makeParts t here.dropLast rest
      else if isName part then
        let next := here ++ [part]
        match t.node? next with
        | none =>
          if staysInPlace rest then (t, false)
          else makeParts (t.put next .directory) next rest
        | some _ => makeParts t next rest
      else (t, false)
    else (t, false)

/-- Make the directory at a path and those on the way to it, and say whether the
path now leads to a directory. -/
def makeDirectories (t : FileTree) (path : String) : FileTree × Bool :=
  if isPath path then t.makeParts [] (parts path) else (t, false)

/-- The tree in which a file at a path has the given contents. Absent where the
path leads to a directory, or through something that is none. -/
def write? (t : FileTree) (path contents : String) : Option FileTree := do
  guard (isPath path)
  match (parts path).getLast? with
  | none | some "" | some "." | some ".." => none
  | some _ =>
    let place ← t.walk [] (parts path)
    match t.node? place with
    | some .directory => none
    | _ => some (t.put place (.file contents))

/-- A path read backwards, without the slashes and lone points at its end. -/
def trailing : List Char → List Char
  | '/' :: rest => trailing rest
  | ['.'] => ['.']
  | '.' :: '/' :: rest => trailing rest
  | s => s

/-- The path of the directory that a path lies in. Absent for a root and for an
empty path. -/
def parent? (path : String) : Option String :=
  let back := trailing path.toList.reverse
  if back.isEmpty then none
  else
    let before := back.dropWhile (· != '/')
    let rest := trailing before
    some (String.ofList (if rest.isEmpty && !before.isEmpty then ['/'] else rest.reverse))

/-- What keeps a file from being saved. -/
inductive Obstacle where
  /-- its directory cannot be made -/
  | directory (path : String)
  /-- it cannot be written itself -/
  | file
deriving DecidableEq, Repr

/-- Make the directory that a path lies in, and name it if it cannot be made. -/
def makeParent (t : FileTree) (path : String) : FileTree × Option Obstacle :=
  match parent? path with
  | none => (t, none)
  | some parent =>
    let (t, made) := t.makeDirectories parent
    (t, if made then none else some (Obstacle.directory parent))

/-- Save a file at a path, making the directory that it lies in first. -/
def save (t : FileTree) (path contents : String) : FileTree × Option Obstacle :=
  match t.makeParent path with
  | (t, some obstacle) => (t, some obstacle)
  | (t, none) =>
    match t.write? path contents with
    | some t => (t, none)
    | none => (t, some .file)

end FileTree

end RobotMotion
