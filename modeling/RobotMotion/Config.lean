import RobotMotion.Device.Json
import RobotMotion.Program.Json
import RobotMotion.Settings.Json
import RobotMotion.Tool.Library

/-!
# Configurations

What a session is opened with, kept as a JSON file: a name, the starting pose,
the starting settings, tools of its own, the path of a tool library, and the
options for programs. Everything may be left out.
-/

namespace RobotMotion

/-- What a session is opened with. -/
structure Config where
  name : String
  initialPose : InitialPose Float
  settings : Settings Float
  tools : List (Tool Float)
  /-- the path of a library whose tools are added -/
  toolLibrary : Option String
  options : ProgramOptions
deriving DecidableEq, Repr

namespace Config

/-- Why a configuration cannot be loaded or saved. -/
inductive Failure where
  /-- the file cannot be read -/
  | unreadable (path : String)
  /-- the file does not hold a configuration -/
  | malformed (path : String)
  /-- the directory of the file cannot be made -/
  | noDirectory (path : String)
  /-- the file cannot be written -/
  | unwritable (path : String)
deriving DecidableEq, Repr

/-- The failure to save at a path, by what was in the way. -/
def Failure.ofObstacle (path : String) : FileTree.Obstacle → Failure
  | .directory parent => .noDirectory parent
  | .file => .unwritable path

/-- The wording of a failure. -/
def Failure.message : Failure → String
  | .unreadable path => "read session config " ++ path
  | .malformed path => "deserialize session config " ++ path
  | .noDirectory path => "create config directory " ++ path
  | .unwritable path => "write session config " ++ path

/-- The pose at the origin. -/
def originPose : InitialPose Float :=
  { InitialPose.unknown with position := some Vector3.zero, rotation := some Rotation.identity }

/-- The configuration that says nothing. -/
def standard : Config := ⟨"robot", originPose, .standard, [], none, .standard⟩

/-- The fields of a configuration in their order. -/
def fieldNames : List String :=
  ["name", "initial_pose", "settings", "tools", "tool_library", "compiler"]

/-- A configuration as JSON. -/
def toJson (c : Config) : Json :=
  .object
    [ ("name", .text c.name),
      ("initial_pose", c.initialPose.toJson),
      ("settings", c.settings.toJson),
      ("tools", .array (c.tools.map Tool.toJson)),
      ("tool_library", .ofText? c.toolLibrary),
      ("compiler", c.options.toJson) ]

/-- A configuration read from JSON. -/
def ofJson? (j : Json) : Option Config := do
  let fields ← j.record? fieldNames
  return {
    name := ← Json.defaulted fields "name" standard.name Json.string?
    initialPose := ← Json.defaulted fields "initial_pose" standard.initialPose InitialPose.ofJson?
    settings := ← Json.defaulted fields "settings" standard.settings Settings.ofJson?
    tools := ← Json.defaulted fields "tools" standard.tools (Json.list? Tool.ofJson?)
    toolLibrary := ← Json.defaulted fields "tool_library" standard.toolLibrary
      (Json.nullable? Json.string?)
    options := ← Json.defaulted fields "compiler" standard.options ProgramOptions.ofJson? }

/-- The configuration that was found at a path. -/
def ofFound (path : String) : Found → Except Failure Config
  | .missing | .unreadable => .error (.unreadable path)
  | .file contents =>
    match (Json.parse contents).bind ofJson? with
    | some c => .ok c
    | none => .error (.malformed path)

/-- The configuration in the file at a path. -/
def load (t : FileTree) (path : String) : Except Failure Config := ofFound path (t.find path)

/-- Save a configuration at a path. -/
def save (c : Config) (t : FileTree) (path : String) : FileTree × Option Failure :=
  let (t, obstacle) := t.save path c.toJson.pretty
  (t, obstacle.map (Failure.ofObstacle path))

/-- The tools of a configuration followed by those of its library, given what is
found at a path. -/
def resolveTools (find : String → Found) (c : Config) :
    Except ToolLibrary.Failure (List (Tool Float)) :=
  match c.toolLibrary with
  | none => .ok c.tools
  | some path => (ToolLibrary.ofFound path (find path)).map fun l => c.tools ++ l.tools

end Config

end RobotMotion
