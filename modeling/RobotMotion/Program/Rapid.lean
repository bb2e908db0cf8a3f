import RobotMotion.Cursor.Basic
import RobotMotion.Program.Section
import RobotMotion.Program.Target

/-!
# RAPID modules

A RAPID module declares speeds, zones, tools and targets in front and moves in
its main procedure. Speeds and zones are named in the order in which they are
first needed, one name for each value.
-/

namespace RobotMotion.Rapid

open Program (Entry Place)

/-! ### Statements -/

/-- Texts in brackets, separated by commas. -/
def bracketed (items : List String) : String := "[" ++ String.intercalate "," items ++ "]"

/-- Where a motion ends. -/
inductive Target where
  /-- a pose: the position, the rotation with its scalar part first, the external axes -/
  | pose (position rotation external : List String)
  /-- joint angles and external axes -/
  | joints (angles external : List String)

/-- The data type of a target. -/
def Target.type : Target → String
  | .pose .. => "robtarget"
  | .joints .. => "jointtarget"

/-- The data of a target. The arm configuration is left open. -/
def Target.text : Target → String
  | .pose position rotation external =>
    bracketed [bracketed position, bracketed rotation, "[0,0,0,0]", bracketed external]
  | .joints angles external => bracketed [bracketed angles, bracketed external]

/-- The kinds of motion. -/
inductive MoveKind where
  /-- along a line -/
  | linear
  /-- to a pose, joint by joint -/
  | joint
  /-- to joint angles -/
  | absoluteJoint
deriving DecidableEq, Repr

/-- The instruction of a kind of motion. -/
def MoveKind.text : MoveKind → String
  | .linear => "MoveL"
  | .joint => "MoveJ"
  | .absoluteJoint => "MoveAbsJ"

/-- A motion with the names of its speed, zone and tool. -/
structure Move where
  kind : MoveKind
  place : Place Target
  speed : String
  zone : String
  tool : String

/-- A statement of the main procedure. -/
inductive Statement where
  | move (m : Move)
  /-- limit the acceleration, or lift the limit -/
  | accelerationLimit (value : Option String)
  | setDigital (signal : String) (on : Bool)
  | setAnalog (signal value : String)
  | wait (seconds : String)
  /-- show a text on the pendant -/
  | display (literal : String)
  | comment (text : String)
  | custom (code : String)

/-- The text of a statement. -/
def Statement.text : Statement → String
  | .move m =>
    m.kind.text ++ " " ++ m.place.text Target.text ++ ", " ++ m.speed ++ ", " ++ m.zone ++ ", "
      ++ m.tool ++ "\\WObj:=WObj0;"
  | .accelerationLimit (some value) => "WorldAccLim \\Acc:=" ++ value ++ ";"
  | .accelerationLimit none => "WorldAccLim \\Off;"
  | .setDigital signal on => "SetDO " ++ signal ++ ", " ++ (if on then "1" else "0") ++ ";"
  | .setAnalog signal value => "SetAO " ++ signal ++ ", " ++ value ++ ";"
  | .wait seconds => "WaitTime " ++ seconds ++ ";"
  | .display literal => "TPWrite " ++ literal ++ ";"
  | .comment text => "! " ++ text
  | .custom code => code

/-- The declaration of a target. -/
structure TargetDeclaration where
  index : Nat
  target : Target

/-- The text of a target declaration. -/
def TargetDeclaration.text (d : TargetDeclaration) : String :=
  "CONST " ++ d.target.type ++ " " ++ Program.targetName d.index ++ " := " ++ d.target.text ++ ";"

/-- The declaration of a tool. -/
structure ToolDeclaration where
  name : String
  data : String
deriving DecidableEq, Repr

/-- The text of a tool declaration. -/
def ToolDeclaration.text (d : ToolDeclaration) : String :=
  "PERS tooldata " ++ d.name ++ " := " ++ d.data ++ ";"

/-! ### Names and texts -/

/-- Values with names made of a stem and a number. -/
structure NameTable where
  entries : List (String × String)
deriving DecidableEq, Repr

/-- No names given yet. -/
def NameTable.empty : NameTable := ⟨[]⟩

/-- The name of a value, new where the value has none yet. -/
def NameTable.nameFor (t : NameTable) (stem value : String) : String × NameTable :=
  match t.entries.find? (·.2 == value) with
  | some (name, _) => (name, t)
  | none =>
    let name := stem ++ Decimal.natural t.entries.length
    (name, ⟨t.entries ++ [(name, value)]⟩)

/-- Whether a character may begin a signal name. -/
def isLetter (c : Char) : Bool := c.isAlpha

/-- Whether a text may name a signal: a letter, then letters, digits and
underscores, all of the ASCII range. -/
def isIdentifier (s : String) : Bool :=
  match s.toList with
  | [] => false
  | c :: rest => isLetter c && rest.all Program.isNameChar

/-- The greatest number of characters between the quotes of a string. -/
def maxStringLength : Nat := 80

/-- A double quote is written twice. -/
def doubleQuotes (s : List Char) : List Char :=
  s.flatMap fun c => if c = '"' then ['"', '"'] else [c]

/-- A text as a string literal, cut off at the greatest length. -/
def stringLiteral (s : String) : String :=
  "\"" ++ String.ofList ((doubleQuotes s.toList).take maxStringLength) ++ "\""

/-! ### Data of targets, speeds, zones and tools -/

/-- The values of external axes; `9E9` where an axis is not set. -/
def externalTexts (d : Decimals) (axes : Option (ExternalAxes Float)) : List String :=
  Program.externalTexts axes fun
    | some v => Decimal.fixed v d.mm
    | none => "9E9"

/-- The texts of a point. -/
def pointTexts (d : Decimals) (v : Vector3 Float) : List String :=
  v.toList.map (Decimal.fixed · d.mm)

/-- The texts of a rotation, scalar part first. -/
def rotationTexts (d : Decimals) (q : Rotation Float) : List String :=
  q.scalarFirst.map (Decimal.fixed · d.unitless)

/-- The pose of a state as a target. -/
def poseTarget? (d : Decimals) (s : State Float) : Option Target :=
  s.pose?.map fun (position, rotation) =>
    .pose (pointTexts d position) (rotationTexts d rotation) (externalTexts d s.cartesianExternal)

/-- The joint angles of a state as a target. -/
def jointTarget? (d : Decimals) (s : State Float) : Option Target :=
  s.axes.map fun joints =>
    .joints (joints.toList.map (Decimal.fixed · d.degrees)) (externalTexts d s.jointExternal)

/-- The data of a speed. -/
def speedData (d : Decimals) (speed : Float) : String :=
  bracketed [Decimal.fixed speed d.mm, "500", "5000", "1000"]

/-- The data of a blend zone, whose parts follow from its radius. -/
def zoneData (d : Decimals) (radius : Float) : String :=
  bracketed
    [ "FALSE",
      Decimal.fixed radius d.mm,
      Decimal.fixed (1.5 * radius) d.mm,
      Decimal.fixed (1.5 * radius) d.mm,
      Decimal.fixed (0.15 * radius) d.mm,
      Decimal.fixed (1.5 * radius) d.mm,
      Decimal.fixed (0.15 * radius) d.mm ]

/-- The least weight of a tool: controllers take none without mass. -/
def leastWeight : Float := 0.001

/-- The weight of a tool, raised to the least weight. -/
def toolWeight (weight : Float) : Float := if weight > leastWeight then weight else leastWeight

/-- The declaration of a tool. -/
def toolDeclaration (d : Decimals) (t : Tool Float) : ToolDeclaration where
  name := Program.safeName t.name
  data :=
    bracketed
      [ "TRUE",
        bracketed [bracketed (pointTexts d t.tcpPosition),
          bracketed (rotationTexts d t.tcpOrientation)],
        bracketed [Decimal.fixed (toolWeight t.weight) d.kg,
          bracketed (pointTexts d t.centerOfGravity), "[1,0,0,0]", "0", "0", "0"] ]

/-- The name of the tool of a state. -/
def toolName (s : State Float) : String :=
  match s.tool with
  | some t => Program.safeName t.name
  | none => "tool0"

/-- The limit for an acceleration; without one the controller decides. -/
def accelerationLimit (d : Decimals) (acceleration : Float) : Statement :=
  .accelerationLimit <|
    if acceleration > 0.0 then some (Decimal.fixed (acceleration / 1000.0) d.mm) else none

/-! ### Writing a module -/

/-- A module that is being written. -/
structure Draft where
  speeds : NameTable
  zones : NameTable
  tools : List ToolDeclaration
  targets : List (Entry TargetDeclaration)
  customDeclarations : List String
  body : List (Entry Statement)
  /-- how many motions were written -/
  motions : Nat

namespace Draft

/-- Nothing written yet. -/
def empty : Draft := ⟨.empty, .empty, [], [], [], [], 0⟩

/-- Write an entry into the main procedure. -/
def write (draft : Draft) (entry : Entry Statement) : Draft :=
  { draft with body := draft.body ++ [entry] }

/-- Give a speed its name. -/
def speedName (draft : Draft) (d : Decimals) (speed : Float) : String × Draft :=
  let (name, speeds) := draft.speeds.nameFor "vel" (speedData d speed)
  (name, { draft with speeds })

/-- Give a zone its name. Without a radius the motion stops at its target. -/
def zoneName (draft : Draft) (d : Decimals) (radius : Float) : String × Draft :=
  if radius ≤ 0.0 then ("fine", draft)
  else
    let (name, zones) := draft.zones.nameFor "zone" (zoneData d radius)
    (name, { draft with zones })

/-- Give a target its place in an instruction, declaring it where it is not
written in place. -/
def placeTarget (draft : Draft) (inlineTargets : Bool) (action : Action Float)
    (target : Target) : Place Target × Draft :=
  if inlineTargets then (.inline target, { draft with motions := draft.motions + 1 })
  else
    (.named draft.motions,
      { draft with
        targets := draft.targets ++ [.code action [⟨draft.motions, target⟩]]
        motions := draft.motions + 1 })

/-- Write a motion. -/
def motion (draft : Draft) (d : Decimals) (inlineTargets : Bool) (v : Visit Float)
    (kind : MoveKind) (target? : Option Target) : Draft :=
  match target? with
  | none => draft.write (.diagnostic v.action (.error "no target available for motion"))
  | some target =>
    let settings := v.state.settings
    let (speed, draft) := draft.speedName d settings.speed
    let (zone, draft) := draft.zoneName d settings.precision
    let (place, draft) := draft.placeTarget inlineTargets v.action target
    draft.write (.code v.action [.move ⟨kind, place, speed, zone, toolName v.state⟩])

/-- Write what became of an action. Settings and tool changes have no code of
their own; they show in the motions that follow. -/
def step (d : Decimals) (inlineTargets : Bool) (draft : Draft) (v : Visit Float) : Draft :=
  let action := v.action
  let settings := v.state.settings
  let code (s : Statement) : Draft := draft.write (.code action [s])
  let diagnostic (what : Program.Diagnostic) : Draft := draft.write (.diagnostic action what)
  let badSignal (pin : String) : Draft :=
    diagnostic (.error ("\"" ++ pin ++ "\" is not a valid RAPID signal name"))
  if !v.applied then diagnostic .failed
  else match action.command with
    | .translation .. | .rotation .. | .transformation .. =>
      let kind : MoveKind := match settings.motion with
        | .linear => .linear
        | .joint => .joint
      draft.motion d inlineTargets v kind (poseTarget? d v.state)
    | .axes .. => draft.motion d inlineTargets v .absoluteJoint (jointTarget? d v.state)
    | .setting .acceleration .. => code (accelerationLimit d settings.acceleration)
    | .popSettings =>
      match v.device.stack.beforePop with
      | some before =>
        if before.acceleration != settings.acceleration then
          code (accelerationLimit d settings.acceleration)
        else draft
      | none => draft
    | .defineTool tool => { draft with tools := draft.tools ++ [toolDeclaration d tool] }
    | .writeDigital pin on _ =>
      if isIdentifier pin then code (.setDigital pin on) else badSignal pin
    | .writeAnalog pin value _ =>
      if isIdentifier pin then code (.setAnalog pin (Decimal.fixed value d.volts))
      else badSignal pin
    | .wait millis => code (.wait (Program.secondsText millis))
    | .message text => code (.display (stringLiteral text))
    | .comment text => code (.comment text)
    | .customCode text true =>
      { draft with customDeclarations := draft.customDeclarations ++ [text] }
    | .customCode text false => code (.custom text)
    | .temperature .. | .extrusion _ | .setting .extrusionRate .. | .initialization _ =>
      diagnostic .unsupported
    | .setting .speed .. | .setting .precision .. | .motionMode _ | .referenceFrame _
    | .pushSettings | .externalAxis .. | .attachTool _ | .detachTool => draft

end Draft

/-- The module of the visits, still in parts. -/
def draft (d : Decimals) (inlineTargets : Bool) (visits : List (Visit Float)) : Draft :=
  visits.foldl (Draft.step d inlineTargets) .empty

/-- The comment mark of the dialect. -/
def comment : String := "!"

/-- The name of the dialect. -/
def dialect : String := "RAPID"

/-- A RAPID module. -/
def program (d : Decimals) (time name : String) (options : ProgramOptions)
    (cursor : Cursor Float) : Program :=
  let name := Program.safeName name
  let draft := draft d options.inlineTargets (cursor.visits options.blockOnly)
  let look (indent : Nat) : Program.Look := ⟨comment, dialect, options.comments, indent⟩
  let indented (s : String) : String := "  " ++ s
  { name
    dialect
    lines :=
      Program.header time comment name dialect
        ++ ["", "MODULE " ++ name, ""]
        ++ draft.speeds.entries.map
          (fun (name, value) => indented ("CONST speeddata " ++ name ++ " := " ++ value ++ ";"))
        ++ draft.zones.entries.map
          (fun (name, value) => indented ("CONST zonedata " ++ name ++ " := " ++ value ++ ";"))
        ++ draft.tools.map (indented ·.text)
        ++ (look 2).lines TargetDeclaration.text draft.targets
        ++ draft.customDeclarations.map indented
        ++ ["", "  PROC main()", "    ConfJ \\Off;", "    ConfL \\Off;", ""]
        ++ (look 4).lines Statement.text draft.body
        ++ ["  ENDPROC", "", "ENDMODULE"] }

end RobotMotion.Rapid
