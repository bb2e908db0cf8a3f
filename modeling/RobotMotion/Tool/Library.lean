import RobotMotion.Json.Printer
import RobotMotion.Json.Reader
import RobotMotion.Storage.FileTree
import RobotMotion.Tool.Json

/-!
# Tool libraries

A library is a list of tools of which no two have the same name. Adding keeps
this by refusing a name that is taken, and loading by refusing a file that
defines a name twice.
-/

namespace RobotMotion

/-- A list of tools. -/
structure ToolLibrary where
  tools : List (Tool Float)
deriving DecidableEq, Repr

namespace ToolLibrary

/-- Why a library cannot be changed, loaded or saved. -/
inductive Failure where
  /-- a tool of this name is there already -/
  | alreadyExists (name : String)
  /-- there is no tool of this name -/
  | unknownTool (name : String)
  /-- the file cannot be read -/
  | unreadable (path : String)
  /-- the file does not hold a library -/
  | malformed
  /-- the file defines a name twice -/
  | definedTwice (path name : String)
  /-- the directory of the file cannot be made -/
  | noDirectory (path : String)
  /-- the file cannot be written -/
  | unwritable (path : String)
deriving DecidableEq, Repr

/-- The failure to save at a path, by what was in the way. -/
def Failure.ofObstacle (path : String) : FileTree.Obstacle → Failure
  | .directory parent => .noDirectory parent
  | .file => .unwritable path

/-- The wording of a failure. -/
def Failure.message : Failure → String
  | .alreadyExists name => "tool \"" ++ name ++ "\" already exists"
  | .unknownTool name => "unknown tool \"" ++ name ++ "\""
  | .unreadable path => "read tool library " ++ path
  | .malformed => "deserialize tool library"
  | .definedTwice path name => "tool library " ++ path ++ " defines \"" ++ name ++ "\" twice"
  | .noDirectory path => "create tool library directory " ++ path
  | .unwritable path => "write tool library " ++ path

/-- A library without tools. -/
def empty : ToolLibrary := ⟨[]⟩

/-- The names of the tools. -/
def names (l : ToolLibrary) : List String := l.tools.map Tool.name

/-! ### Changing a library -/

/-- The tool of a name. -/
def get? (l : ToolLibrary) (name : String) : Option (Tool Float) :=
  l.tools.find? (·.name == name)

/-- The library with a further tool. -/
def add (l : ToolLibrary) (tool : Tool Float) : Except Failure ToolLibrary :=
  if (l.get? tool.name).isSome then .error (.alreadyExists tool.name)
  else .ok ⟨l.tools ++ [tool]⟩

/-- The tools with the first of a name replaced. -/
def replaceFirst (name : String) (tool : Tool Float) : List (Tool Float) → List (Tool Float)
  | [] => []
  | t :: rest => if t.name = name then tool :: rest else t :: replaceFirst name tool rest

/-- The library with the tool of a name replaced by another, which may have
another name. -/
def update (l : ToolLibrary) (name : String) (tool : Tool Float) :
    Except Failure ToolLibrary :=
  if (l.get? name).isSome then .ok ⟨replaceFirst name tool l.tools⟩
  else .error (.unknownTool name)

/-- The library without the tool of a name, and that tool. -/
def remove (l : ToolLibrary) (name : String) : Except Failure (Tool Float × ToolLibrary) :=
  match l.get? name with
  | none => .error (.unknownTool name)
  | some tool => .ok (tool, ⟨l.tools.eraseP (·.name == name)⟩)

/-- The first name that was there before, going through the names in order. -/
def repeatedName? (seen : List String) : List String → Option String
  | [] => none
  | name :: rest => if seen.contains name then some name else repeatedName? (seen ++ [name]) rest

/-! ### Files -/

/-- A library as JSON. -/
def toJson (l : ToolLibrary) : Json := .object [("tools", .array (l.tools.map Tool.toJson))]

/-- A library read from JSON. -/
def ofJson? (j : Json) : Option ToolLibrary := do
  let fields ← j.record? ["tools"]
  return ⟨← Json.required fields "tools" (Json.list? Tool.ofJson?)⟩

/-- The library that was found at a path. Where nothing is found it is empty. -/
def ofFound (path : String) : Found → Except Failure ToolLibrary
  | .missing => .ok empty
  | .unreadable => .error (.unreadable path)
  | .file contents =>
    match (Json.parse contents).bind ofJson? with
    | none => .error .malformed
    | some l =>
      match repeatedName? [] l.names with
      | some name => .error (.definedTwice path name)
      | none => .ok l

/-- The library in the file at a path. -/
def load (t : FileTree) (path : String) : Except Failure ToolLibrary := ofFound path (t.find path)

/-- Save a library at a path. -/
def save (l : ToolLibrary) (t : FileTree) (path : String) : FileTree × Option Failure :=
  let (t, obstacle) := t.save path l.toJson.pretty
  (t, obstacle.map (Failure.ofObstacle path))

/-- The path of the library of a user with a home directory. -/
def defaultPath (home : String) : String := home ++ "/.rmachina/tools/library.json"

end ToolLibrary

end RobotMotion
