import RobotMotion.Device.State
import RobotMotion.Text.Blank
import RobotMotion.Text.Numeral
import RobotMotion.Wire.Message

/-!
# Binary frames for Universal Robots controllers

A frame is a row of 32-bit integers: the identifier, the opcode, and scaled
values whose number the opcode fixes. A frame of which any value does not fit is
dropped as a whole.
-/

namespace RobotMotion.Wire.Ur

/-! ### Frames -/

/-- What a frame asks of the controller. -/
inductive Opcode where
  | moveLinear
  /-- move to a pose, joint by joint -/
  | moveJointPose
  | moveJoint
  | speed
  | acceleration
  | blend
  | wait
  | setTool
  | noTool
  | setDigital
  | setToolDigital
  | setAnalog
deriving DecidableEq, Repr

/-- The number of an opcode. -/
def Opcode.code : Opcode → Int
  | .moveLinear => 1
  | .moveJointPose => 2
  | .moveJoint => 3
  | .speed => 4
  | .acceleration => 5
  | .blend => 6
  | .wait => 7
  | .setTool => 8
  | .noTool => 9
  | .setDigital => 10
  | .setToolDigital => 11
  | .setAnalog => 12

/-- A value with the factor that it is scaled by. -/
structure Parameter where
  value : Float
  factor : Float

/-- The words of a frame, if the identifier and every value fit. -/
def words? (id : Nat) (opcode : Opcode) (parameters : List Parameter) : Option (List Int) := do
  let id ← wireId id
  let values ← parameters.mapM fun p => fixedPoint p.value p.factor
  return id :: opcode.code :: values

/-- The identifier that the controller echoes: the first word, unless it is
negative. -/
def acknowledged? : List UInt8 → Option Nat
  | a :: b :: c :: d :: _ =>
    let n := wordOfBytes a b c d
    if 0 ≤ n then some n.toNat else none
  | _ => none

/-! ### Parameters -/

/-- A length in millimetres, sent in metres. -/
def lengthParameter (mm : Float) : Parameter := ⟨mm / 1000.0, distanceFactor⟩

/-- The parameters of a point. -/
def pointParameters (v : Vector3 Float) : List Parameter := v.toList.map lengthParameter

/-- An angle in radians. -/
def angleParameter (radians : Float) : Parameter := ⟨radians, angleFactor⟩

/-- The parameters of a rotation: its rotation vector. -/
def rotationParameters (q : Rotation Float) : List Parameter :=
  q.rotationVector.toList.map angleParameter

/-- A number that is sent as it stands. -/
def wholeParameter (n : Int) : Parameter := ⟨Float.ofInt n, 1.0⟩

/-- The greatest voltage of an analog output. -/
def maxVolts : Float := 10.0

/-- The number of a pin from zero to the last one. It is read as a number of 32 bits. -/
def pin? (last : Int) (pin : String) : Option Int :=
  match Text.signed? 32 (Text.trimmed pin.toList) with
  | some n => if 0 ≤ n ∧ n ≤ last then some n else none
  | none => none

/-! ### Encoding -/

/-- The words for a setting that took a value. -/
def settingWords? (id : Nat) : SettingChange Float → Option (List Int)
  | .quantity .speed value => words? id .speed [lengthParameter value]
  | .quantity .acceleration value => words? id .acceleration [lengthParameter value]
  | .quantity .precision value => words? id .blend [lengthParameter value]
  | .quantity .extrusionRate _ | .motion _ | .frame _ => none

/-- The words for an action, given the state after it. -/
def actionWords? (action : Action Float) (s : State Float) : Option (List Int) :=
  let id := action.id
  match action.command with
  | .translation .. | .rotation .. | .transformation .. =>
    let opcode := match s.settings.motion with
      | .linear => Opcode.moveLinear
      | .joint => Opcode.moveJointPose
    s.pose?.bind fun (position, rotation) =>
      words? id opcode (pointParameters position ++ rotationParameters rotation)
  | .axes .. => s.axes.bind fun joints => words? id .moveJoint (joints.radians.map angleParameter)
  | .setting which .. => settingWords? id (.quantity which (s.settings.quantity which))
  | .wait millis => words? id .wait [⟨Float.ofNat millis / 1000.0, timeFactor⟩]
  | .attachTool _ =>
    s.tool.bind fun tool =>
      words? id .setTool (pointParameters tool.tcpPosition
        ++ rotationParameters tool.tcpOrientation ++ [⟨tool.weight, massFactor⟩]
        ++ pointParameters tool.centerOfGravity)
  | .detachTool => words? id .noTool []
  | .writeDigital pin on toolPin =>
    let (opcode, last) := if toolPin then (Opcode.setToolDigital, 1) else (Opcode.setDigital, 7)
    (pin? last pin).bind fun n =>
      words? id opcode [wholeParameter n, wholeParameter (if on then 1 else 0)]
  | .writeAnalog pin value toolPin =>
    if toolPin then none
    else if 0.0 ≤ value && value ≤ maxVolts then
      (pin? 1 pin).bind fun n =>
        words? id .setAnalog [wholeParameter n, ⟨value, voltageFactor⟩]
    else none
  | .motionMode _ | .referenceFrame _ | .pushSettings | .popSettings | .externalAxis ..
  | .defineTool _ | .message _ | .comment _ | .temperature .. | .extrusion _ | .initialization _
  | .customCode .. => none

end RobotMotion.Wire.Ur
