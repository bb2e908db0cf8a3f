import RobotMotion.Cursor.Basic
import RobotMotion.Program.Pin
import RobotMotion.Program.Section
import RobotMotion.Program.Target

/-!
# KRL programs

A KRL program assigns system variables for speed, acceleration, blending and
tool, and moves to targets. What is in force at the start is assigned first.
-/

namespace RobotMotion.Krl

open Program (Entry Place)

/-! ### Statements -/

/-- Texts in braces, separated by commas. -/
def braced (items : List String) : String := "\x7b" ++ String.intercalate ", " items ++ "\x7d"

/-- A named component of an aggregate. -/
def component (name value : String) : String := name ++ " " ++ value

/-- A position with three angles. -/
structure Frame where
  x : String
  y : String
  z : String
  a : String
  b : String
  c : String
deriving DecidableEq, Repr

/-- The components of a frame. -/
def Frame.components (f : Frame) : List String :=
  [component "X" f.x, component "Y" f.y, component "Z" f.z,
    component "A" f.a, component "B" f.b, component "C" f.c]

/-- Values named by a letter and a number that counts from one. -/
def numbered (letter : String) (values : List String) : List String :=
  values.zipIdx.map fun (value, i) => component (letter ++ Decimal.natural (i + 1)) value

/-- Where a motion ends. -/
inductive Target where
  /-- a pose and the external axes -/
  | pose (frame : Frame) (external : List String)
  /-- joint angles and the external axes -/
  | joints (angles external : List String)

/-- The data type of a target. -/
def Target.type : Target → String
  | .pose .. => "E6POS"
  | .joints .. => "E6AXIS"

/-- The aggregate of a target. -/
def Target.text : Target → String
  | .pose frame external => braced (frame.components ++ numbered "E" external)
  | .joints angles external => braced (numbered "A" angles ++ numbered "E" external)

/-- A statement of the program. -/
inductive Statement where
  | speed (value : String)
  | acceleration (value : String)
  | blending (value : String)
  /-- move along a line; whether the target is blended over -/
  | moveLinear (place : Place Target) (blended : Bool)
  /-- move joint by joint -/
  | movePoint (place : Place Target) (blended : Bool)
  /-- the tool frame, or none -/
  | tool (frame : Option Frame)
  | loadMass (value : String)
  | loadCenter (x y z : String)
  | setDigital (pin : Int) (on : Bool)
  | setAnalog (pin : Int) (value : String)
  | wait (seconds : String)
  | comment (text : String)
  | custom (code : String)

/-- The text of a statement. -/
def Statement.text : Statement → String
  | .speed value => "$VEL.CP = " ++ value
  | .acceleration value => "$ACC.CP = " ++ value
  | .blending value => "$APO.CDIS = " ++ value
  | .moveLinear place blended =>
    "LIN " ++ place.text Target.text ++ if blended then " C_DIS" else ""
  | .movePoint place blended =>
    "PTP " ++ place.text Target.text ++ if blended then " C_PTP" else ""
  | .tool (some frame) => "$TOOL = " ++ braced frame.components
  | .tool none => "$TOOL = $NULLFRAME"
  | .loadMass value => "$LOAD.M = " ++ value
  | .loadCenter x y z => "$LOAD.CM = " ++ braced (Frame.components ⟨x, y, z, "0", "0", "0"⟩)
  | .setDigital pin on => "$OUT[" ++ pinText pin ++ "] = " ++ if on then "TRUE" else "FALSE"
  | .setAnalog pin value => "$ANOUT[" ++ pinText pin ++ "] = " ++ value
  | .wait seconds => "WAIT SEC " ++ seconds
  | .comment text => "; " ++ text
  | .custom code => code

/-- A declaration of the program. -/
inductive Declaration where
  | target (index : Nat) (target : Target)
  | custom (code : String)

/-- The text of a declaration. -/
def Declaration.text : Declaration → String
  | .target index goal =>
    "DECL " ++ goal.type ++ " " ++ Program.targetName index ++ " = " ++ goal.text
  | .custom code => code

/-! ### Targets and settings -/

/-- A pose as a frame. -/
def frame (d : Decimals) (position : Vector3 Float) (rotation : Rotation Float) : Frame :=
  let (a, b, c) := rotation.yawPitchRoll
  let length (x : Float) : String := Decimal.fixed x d.mm
  let angle (x : Float) : String := Decimal.fixed x d.degrees
  ⟨length position.x, length position.y, length position.z, angle a, angle b, angle c⟩

/-- The values of external axes; zero where an axis is not set. -/
def externalTexts (d : Decimals) (axes : Option (ExternalAxes Float)) : List String :=
  Program.externalTexts axes fun v => Decimal.fixed (v.getD 0.0) d.mm

/-- The pose of a state as a target. -/
def poseTarget? (d : Decimals) (s : State Float) : Option Target :=
  s.pose?.map fun (position, rotation) =>
    .pose (frame d position rotation) (externalTexts d s.cartesianExternal)

/-- The joint angles of a state as a target. -/
def jointTarget? (d : Decimals) (s : State Float) : Option Target :=
  s.axes.map fun joints =>
    .joints (joints.toList.map (Decimal.fixed · d.degrees)) (externalTexts d s.jointExternal)

/-- The assignment for a setting, where there is a variable for it. -/
def assignment? (d : Decimals) : SettingChange Float → Option Statement
  | .quantity .speed value => some (.speed (Decimal.fixed (value / 1000.0) d.mm))
  | .quantity .acceleration value => some (.acceleration (Decimal.fixed (value / 1000.0) d.mm))
  | .quantity .precision value => some (.blending (Decimal.fixed value d.mm))
  | .quantity .extrusionRate _ | .motion _ | .frame _ => none

/-- The settings that are assigned at the start. An acceleration of zero is left
to the controller. -/
def initialChanges (s : Settings Float) : List (SettingChange Float) :=
  [.quantity .speed s.speed]
    ++ (if s.acceleration > 0.0 then [.quantity .acceleration s.acceleration] else [])
    ++ [.quantity .precision s.precision]

/-! ### Writing a program -/

/-- A program that is being written. -/
structure Draft where
  declarations : List (Entry Declaration)
  body : List (Entry Statement)
  /-- how many motions were written -/
  motions : Nat

namespace Draft

/-- The assignments at the start, and nothing else. -/
def start (d : Decimals) (settings : Settings Float) : Draft :=
  ⟨[], ((initialChanges settings).filterMap (assignment? d)).map .plain ++ [.blank], 0⟩

/-- Write an entry into the body. -/
def write (draft : Draft) (entry : Entry Statement) : Draft :=
  { draft with body := draft.body ++ [entry] }

/-- Write an entry into the declarations. -/
def declare (draft : Draft) (entry : Entry Declaration) : Draft :=
  { draft with declarations := draft.declarations ++ [entry] }

/-- Give a target its place in an instruction, declaring it where it is not
written in place. -/
def placeTarget (draft : Draft) (inlineTargets : Bool) (action : Action Float)
    (target : Target) : Place Target × Draft :=
  if inlineTargets then (.inline target, { draft with motions := draft.motions + 1 })
  else
    (.named draft.motions,
      { draft.declare (.code action [.target draft.motions target]) with
        motions := draft.motions + 1 })

/-- Write a motion. -/
def motion (draft : Draft) (inlineTargets : Bool) (v : Visit Float)
    (move : Place Target → Bool → Statement) (target? : Option Target) : Draft :=
  match target? with
  | none => draft.write (.diagnostic v.action (.error "no target available for motion"))
  | some target =>
    let (place, draft) := draft.placeTarget inlineTargets v.action target
    draft.write (.code v.action [move place (v.state.settings.precision > 0.0)])

/-- Write what became of an action. -/
def step (d : Decimals) (inlineTargets : Bool) (draft : Draft) (v : Visit Float) : Draft :=
  let action := v.action
  let settings := v.state.settings
  let code (statements : List Statement) : Draft := draft.write (.code action statements)
  let diagnostic (what : Program.Diagnostic) : Draft := draft.write (.diagnostic action what)
  let assign (which : Quantity) : Draft :=
    code (assignment? d (.quantity which (settings.quantity which))).toList
  if !v.applied then diagnostic .failed
  else match action.command with
    | .translation .. | .rotation .. | .transformation .. =>
      let move := match settings.motion with
        | .linear => Statement.moveLinear
        | .joint => Statement.movePoint
      draft.motion inlineTargets v move (poseTarget? d v.state)
    | .axes .. => draft.motion inlineTargets v .movePoint (jointTarget? d v.state)
    | .setting .speed .. => assign .speed
    | .setting .acceleration .. => assign .acceleration
    | .setting .precision .. => assign .precision
    | .popSettings =>
      match v.device.stack.beforePop with
      | some before => code ((settings.changesSince before).filterMap (assignment? d))
      | none => draft
    | .attachTool _ =>
      match v.state.tool with
      | none => diagnostic (.error "no tool attached after attach")
      | some tool =>
        let length (x : Float) : String := Decimal.fixed x d.mm
        let center := tool.centerOfGravity
        code
          [ .tool (some (frame d tool.tcpPosition tool.tcpOrientation)),
            .loadMass (Decimal.fixed tool.weight d.kg),
            .loadCenter (length center.x) (length center.y) (length center.z) ]
    | .detachTool => code [.tool none, .loadMass "0"]
    | .writeDigital pin on _ =>
      match pinNumber? 1 4096 pin with
      | some n => code [.setDigital n on]
      | none => diagnostic (.error ("digital output \"" ++ pin ++ "\" is not in 1..4096"))
    | .writeAnalog pin value _ =>
      match pinNumber? 1 32 pin with
      | none => diagnostic (.error ("analog output \"" ++ pin ++ "\" is not in 1..32"))
      | some n =>
        if -1.0 ≤ value && value ≤ 1.0 then code [.setAnalog n (Decimal.fixed value d.volts)]
        else diagnostic (.error "analog value must be within -1..1")
    | .wait millis => code [.wait (Program.secondsText millis)]
    | .comment text => code [.comment text]
    | .customCode text true => draft.declare (.code action [.custom text])
    | .customCode text false => code [.custom text]
    | .message _ | .temperature .. | .extrusion _ | .setting .extrusionRate ..
    | .initialization _ => diagnostic .unsupported
    | .motionMode _ | .referenceFrame _ | .pushSettings | .externalAxis .. | .defineTool _ =>
      draft

end Draft

/-- The program of the visits, still in parts. The settings are those at the
start. -/
def draft (d : Decimals) (inlineTargets : Bool) (settings : Settings Float)
    (visits : List (Visit Float)) : Draft :=
  visits.foldl (Draft.step d inlineTargets) (.start d settings)

/-- The comment mark of the dialect. -/
def comment : String := ";"

/-- The name of the dialect. -/
def dialect : String := "KRL"

/-- A KRL program. The directives have to open the file. -/
def program (d : Decimals) (time name : String) (options : ProgramOptions)
    (cursor : Cursor Float) : Program :=
  let name := Program.safeName name
  let draft := draft d options.inlineTargets cursor.device.state.settings
    (cursor.visits options.blockOnly)
  let look : Program.Look := ⟨comment, dialect, options.comments, 2⟩
  let declarations := look.lines Declaration.text draft.declarations
  { name
    dialect
    lines :=
      ["&ACCESS RVP", "&REL 1"]
        ++ Program.header time comment name dialect
        ++ ["", "DEF " ++ name ++ "()"]
        ++ (if declarations.isEmpty then [] else declarations ++ [""])
        ++ ["  BAS(#INITMOV, 0)"]
        ++ look.lines Statement.text draft.body
        ++ ["END"] }

end RobotMotion.Krl
