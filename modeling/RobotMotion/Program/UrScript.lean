import RobotMotion.Cursor.Basic
import RobotMotion.Program.Pin
import RobotMotion.Program.Section
import RobotMotion.Program.Target
import RobotMotion.Text.Quoted

/-!
# URScript programs

URScript counts in metres and radians and writes rotations as rotation vectors.
Speed, acceleration and blending are passed with every motion.
-/

namespace RobotMotion.UrScript

open Program (Entry Place)

/-! ### Statements -/

/-- Texts separated by commas. -/
def listed (items : List String) : String := String.intercalate ", " items

/-- A pose: the position and the rotation vector. -/
structure Pose where
  position : List String
  rotation : List String
deriving DecidableEq, Repr

/-- The text of a pose. -/
def Pose.text (p : Pose) : String := "p[" ++ listed (p.position ++ p.rotation) ++ "]"

/-- Where a motion ends. -/
inductive Target where
  | pose (pose : Pose)
  /-- joint angles -/
  | joints (angles : List String)

/-- The text of a target. -/
def Target.text : Target → String
  | .pose p => p.text
  | .joints angles => "[" ++ listed angles ++ "]"

/-- The families of outputs that can be switched. -/
inductive DigitalOutput where
  | tool
  | standard
deriving DecidableEq, Repr

/-- The function that switches an output. -/
def DigitalOutput.function : DigitalOutput → String
  | .tool => "set_tool_digital_out"
  | .standard => "set_standard_digital_out"

/-- The greatest pin number of a family; the least is zero. -/
def DigitalOutput.lastPin : DigitalOutput → Int
  | .tool => 1
  | .standard => 7

/-- A statement of the program. -/
inductive Statement where
  /-- move joint by joint -/
  | moveJoint (place : Place Target) (blend : String)
  /-- move along a line; the acceleration may be left to the controller -/
  | moveLinear (place : Place Target) (acceleration : Option String) (speed blend : String)
  | setTcp (pose : Pose)
  /-- the mass carried, with its center where known -/
  | setPayload (mass : String) (center : Option (List String))
  | setDigital (output : DigitalOutput) (pin : Int) (on : Bool)
  | setAnalog (pin : Int) (value : String)
  | sleep (seconds : String)
  | message (literal : String)
  | comment (text : String)
  | custom (code : String)

/-- A function call. -/
def call (function : String) (arguments : List String) : String :=
  function ++ "(" ++ listed arguments ++ ")"

/-- The text of a statement. -/
def Statement.text : Statement → String
  | .moveJoint place blend => call "movej" [place.text Target.text, "r=" ++ blend]
  | .moveLinear place acceleration speed blend =>
    call "movel" ([place.text Target.text] ++ (acceleration.map ("a=" ++ ·)).toList
      ++ ["v=" ++ speed, "r=" ++ blend])
  | .setTcp pose => call "set_tcp" [pose.text]
  | .setPayload mass none => call "set_payload" [mass]
  | .setPayload mass (some center) => call "set_payload" [mass, "[" ++ listed center ++ "]"]
  | .setDigital output pin on =>
    call output.function [pinText pin, if on then "True" else "False"]
  | .setAnalog pin value => call "set_standard_analog_out" [pinText pin, value]
  | .sleep seconds => call "sleep" [seconds]
  | .message literal => call "textmsg" [literal]
  | .comment text => "# " ++ text
  | .custom code => code

/-- A declaration of the program. -/
inductive Declaration where
  | target (index : Nat) (target : Target)
  | custom (code : String)

/-- The text of a declaration. -/
def Declaration.text : Declaration → String
  | .target index goal => Program.targetName index ++ " = " ++ goal.text
  | .custom code => code

/-! ### Targets and values -/

/-- A length in metres. -/
def metres (d : Decimals) (mm : Float) : String := Decimal.fixed (mm / 1000.0) (d.mm + 3)

/-- The texts of a point. -/
def pointTexts (d : Decimals) (v : Vector3 Float) : List String := v.toList.map (metres d)

/-- A pose. -/
def pose (d : Decimals) (position : Vector3 Float) (rotation : Rotation Float) : Pose :=
  ⟨pointTexts d position, rotation.rotationVector.toList.map (Decimal.fixed · d.radians)⟩

/-- The pose of a state as a target. -/
def poseTarget? (d : Decimals) (s : State Float) : Option Target :=
  s.pose?.map fun (position, rotation) => .pose (pose d position rotation)

/-- The joint angles of a state as a target. -/
def jointTarget? (d : Decimals) (s : State Float) : Option Target :=
  s.axes.map fun joints => .joints (joints.radians.map (Decimal.fixed · d.radians))

/-- The greatest voltage of an analog output. -/
def maxVolts : Float := 10.0

/-- The output that a digital write addresses. -/
def digitalOutput (toolPin : Bool) : DigitalOutput := if toolPin then .tool else .standard

/-! ### Writing a program -/

/-- A program that is being written. -/
structure Draft where
  declarations : List (Entry Declaration)
  body : List (Entry Statement)
  /-- how many motions were written -/
  motions : Nat

namespace Draft

/-- Nothing written yet. -/
def empty : Draft := ⟨[], [], 0⟩

/-- Write an entry into the body. -/
def write (draft : Draft) (entry : Entry Statement) : Draft :=
  { draft with body := draft.body ++ [entry] }

/-- Write an entry into the declarations. -/
def declare (draft : Draft) (entry : Entry Declaration) : Draft :=
  { draft with declarations := draft.declarations ++ [entry] }

/-- Give a target its place in an instruction, declaring it where it is not
written in place. -/
def placeTarget (draft : Draft) (inlineTargets : Bool) (action : Action Float)
    (target : Target) : Place Target × Draft :=
  if inlineTargets then (.inline target, { draft with motions := draft.motions + 1 })
  else
    (.named draft.motions,
      { draft.declare (.code action [.target draft.motions target]) with
        motions := draft.motions + 1 })

/-- Write a motion. -/
def motion (draft : Draft) (inlineTargets : Bool) (v : Visit Float)
    (move : Place Target → Statement) (target? : Option Target) : Draft :=
  match target? with
  | none => draft.write (.diagnostic v.action (.error "no target available for motion"))
  | some target =>
    let (place, draft) := draft.placeTarget inlineTargets v.action target
    draft.write (.code v.action [move place])

/-- Write what became of an action. -/
def step (d : Decimals) (inlineTargets : Bool) (draft : Draft) (v : Visit Float) : Draft :=
  let action := v.action
  let settings := v.state.settings
  let code (statements : List Statement) : Draft := draft.write (.code action statements)
  let diagnostic (what : Program.Diagnostic) : Draft := draft.write (.diagnostic action what)
  let blend := metres d settings.precision
  if !v.applied then diagnostic .failed
  else match action.command with
    | .translation .. | .rotation .. | .transformation .. =>
      let move (place : Place Target) : Statement :=
        match settings.motion with
        | .joint => .moveJoint place blend
        | .linear =>
          let acceleration :=
            if settings.acceleration > 0.0 then some (metres d settings.acceleration) else none
          .moveLinear place acceleration (metres d settings.speed) blend
      draft.motion inlineTargets v move (poseTarget? d v.state)
    | .axes .. => draft.motion inlineTargets v (.moveJoint · blend) (jointTarget? d v.state)
    | .attachTool _ =>
      match v.state.tool with
      | none => diagnostic (.error "no tool attached after attach")
      | some tool =>
        code
          [ .setTcp (pose d tool.tcpPosition tool.tcpOrientation),
            .setPayload (Decimal.fixed tool.weight d.kg)
              (some (pointTexts d tool.centerOfGravity)) ]
    | .detachTool =>
      code
        [ .setTcp (pose d Vector3.zero Rotation.identity),
          .setPayload (Decimal.fixed 0.0 d.kg) none ]
    | .writeDigital pin on toolPin =>
      let output := digitalOutput toolPin
      match pinNumber? 0 output.lastPin pin with
      | some n => code [.setDigital output n on]
      | none =>
        diagnostic (.error ("digital output \"" ++ pin ++ "\" is not in 0.."
          ++ pinText output.lastPin))
    | .writeAnalog _ _ true => diagnostic (.error "the tool flange has no analog outputs")
    | .writeAnalog pin value false =>
      match pinNumber? 0 1 pin with
      | none => diagnostic (.error ("analog output \"" ++ pin ++ "\" is not in 0..1"))
      | some n =>
        if 0.0 ≤ value && value ≤ maxVolts then
          code [.setAnalog n (Decimal.fixed (value / maxVolts) (d.volts + 1))]
        else diagnostic (.error "analog value must be within 0..10 V")
    | .wait millis => code [.sleep (Program.secondsText millis)]
    | .message text => code [.message (Text.quoted text)]
    | .comment text => code [.comment text]
    | .customCode text true => draft.declare (.code action [.custom text])
    | .customCode text false => code [.custom text]
    | .temperature .. | .extrusion _ | .setting .extrusionRate .. | .initialization _ =>
      diagnostic .unsupported
    | .setting .speed .. | .setting .acceleration .. | .setting .precision .. | .motionMode _
    | .referenceFrame _ | .pushSettings | .popSettings | .externalAxis .. | .defineTool _ => draft

end Draft

/-- The program of the visits, still in parts. -/
def draft (d : Decimals) (inlineTargets : Bool) (visits : List (Visit Float)) : Draft :=
  visits.foldl (Draft.step d inlineTargets) .empty

/-- The comment mark of the dialect. -/
def comment : String := "#"

/-- The name of the dialect. -/
def dialect : String := "URScript"

/-- A URScript program. -/
def program (d : Decimals) (time name : String) (options : ProgramOptions)
    (cursor : Cursor Float) : Program :=
  let name := Program.safeName name
  let draft := draft d options.inlineTargets (cursor.visits options.blockOnly)
  let look : Program.Look := ⟨comment, dialect, options.comments, 2⟩
  let declarations := look.lines Declaration.text draft.declarations
  { name
    dialect
    lines :=
      Program.header time comment name dialect
        ++ ["", "def " ++ name ++ "():"]
        ++ (if declarations.isEmpty then [] else declarations ++ [""])
        ++ look.lines Statement.text draft.body
        ++ ["end"] }

end RobotMotion.UrScript
