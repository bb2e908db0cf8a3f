import RobotMotion.Session

/-!
# The command line

`CommandLine.run` takes the arguments, the home directory and the files, and
says what is printed and how the program ends. It opens a session as the
configuration says, issues a demonstration, and prints it as a program or as a
stream of messages.
-/

namespace RobotMotion.CommandLine

/-- What a run prints, line by line, and its exit code. -/
structure Outcome where
  exitCode : Nat
  output : String
  /-- what is said on the error channel -/
  complaint : Option String
deriving DecidableEq, Repr

/-- What the demonstration is turned into. -/
inductive Goal where
  | program (dialect : Dialect)
  | stream (protocol : Wire.Protocol)
deriving DecidableEq, Repr

/-- The goal of a word. -/
def Goal.ofWord? : String → Option Goal
  | "rapid" => some (.program .rapid)
  | "krl" => some (.program .krl)
  | "urscript" => some (.program .urscript)
  | "gcode" => some (.program .gcode)
  | "machina" => some (.program .calls)
  | "abb" => some (.stream .abb)
  | "ur" => some (.stream .ur)
  | _ => none

/-- How the program is used. -/
def usage : List String :=
  [ "Usage: rmachina [rapid|krl|urscript|gcode|machina|abb|ur] [config.json]",
    "  rapid     - Compile the demo to ABB RAPID (default)",
    "  krl       - Compile the demo to KUKA KRL",
    "  urscript  - Compile the demo to URScript",
    "  gcode     - Compile a printing demo to G-code",
    "  machina   - Print the demo as action calls",
    "  abb       - Stream the demo as ABB text frames",
    "  ur        - Stream the demo as UR binary frames" ]

/-! ### Demonstrations -/

/-- The tool of the demonstration. -/
def gripper : Tool Float :=
  Tool.make "gripper" ⟨0.0, 0.0, 150.0⟩ Rotation.identity 1.2 ⟨0.0, 0.0, 60.0⟩

/-- What an arm is shown to do. -/
def armDemo : List (Command Float) :=
  [ .message "Starting demo",
    .defineTool gripper,
    .attachTool "gripper",
    .setting .speed 100.0 false,
    .translation ⟨300.0, 0.0, 500.0⟩ false,
    .pushSettings,
    .setting .speed 25.0 false,
    .setting .precision 0.0 false,
    .translation ⟨0.0, 0.0, -100.0⟩ true,
    .writeDigital "1" true false,
    .wait 500,
    .popSettings,
    .translation ⟨0.0, 0.0, 100.0⟩ true,
    .axes ⟨#v[0.0, 0.0, 0.0, 0.0, 90.0, 0.0]⟩ false,
    .detachTool ]

/-- What a printing device is shown to do. -/
def printDemo : List (Command Float) :=
  [ .initialization true,
    .temperature .bed 60.0 false false,
    .temperature .extruder 210.0 true false,
    .setting .extrusionRate 0.05 false,
    .translation ⟨50.0, 50.0, 0.2⟩ false,
    .extrusion true,
    .translation ⟨40.0, 0.0, 0.0⟩ true,
    .translation ⟨0.0, 40.0, 0.0⟩ true,
    .translation ⟨-40.0, 0.0, 0.0⟩ true,
    .translation ⟨0.0, -40.0, 0.0⟩ true,
    .extrusion false,
    .initialization false ]

/-- The demonstration for a goal. -/
def Goal.demo : Goal → List (Command Float)
  | .program .gcode => printDemo
  | _ => armDemo

/-! ### Output -/

/-- Lines, each ended by a line break. -/
def printed (lines : List String) : String := String.join (lines.map (· ++ "\n"))

/-- The line of a message. -/
def messageLine : Wire.Message → String
  | .text frame => frame
  | .binary words => "[" ++ String.intercalate ", " (words.map Decimal.integer) ++ "]"

/-- The messages of at most the given number of actions. -/
def streamed (p : Wire.Protocol) (s : Session) : Nat → Cell → List Wire.Message
  | 0, _ => []
  | n + 1, c =>
    match c.stream? s p with
    | none => []
    | some (messages, c) => messages ++ streamed p s n c

/-- What a session prints for a goal. -/
def Goal.output (goal : Goal) (time : String) (s : Session) (c : Cell) : String :=
  match goal with
  | .program dialect =>
    match c.program? s dialect time "Demo" s.options with
    | some p => p.text
    | none => ""
  | .stream p =>
    let waiting := match c.fleet.cursor? s.write with
      | some cursor => cursor.queue.pending.length
      | none => 0
    printed ((streamed p s waiting c).map messageLine)

/-! ### Running -/

/-- A run that ends with an error. -/
def failure (message : String) : Outcome := ⟨1, "", some ("Error: " ++ message)⟩

/-- The word for the goal: the first argument. -/
def goalWord (arguments : List String) : String := arguments.headD "rapid"

/-- The path of the configuration, if one is given: the second argument. -/
def configPath? (arguments : List String) : Option String := arguments[1]?

/-- The configuration of a run. Without a tool library of its own it uses that
of the user. -/
def config (find : String → Found) (home : Option String) (arguments : List String) :
    Except Config.Failure Config := do
  let c ← match configPath? arguments with
    | none => .ok Config.standard
    | some path => Config.ofFound path (find path)
  return { c with toolLibrary := c.toolLibrary <|> home.map ToolLibrary.defaultPath }

/-- Open the session of a configuration and carry out a goal. -/
def carryOut (find : String → Found) (time : String) (config : Config) (goal : Goal) : Outcome :=
  match Cell.empty.openConfigured find config with
  | .error error => failure error.message
  | .ok (s, c) =>
    let c := goal.demo.foldl (fun c command => (c.issue s command).2) c
    ⟨0, goal.output time s c, none⟩

/-- What a run does. The time is that of the program header. -/
def run (find : String → Found) (home : Option String) (time : String)
    (arguments : List String) : Outcome :=
  match config find home arguments with
  | .error e => failure e.message
  | .ok config =>
    match Goal.ofWord? (goalWord arguments) with
    | none => ⟨0, printed usage, none⟩
    | some goal => carryOut find time config goal

end RobotMotion.CommandLine
