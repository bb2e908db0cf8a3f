import RobotMotion.Decimal.Fixed
import RobotMotion.Device.State
import RobotMotion.Text.Blank
import RobotMotion.Text.Numeral
import RobotMotion.Wire.Message

/-!
# Text frames for ABB controllers

A frame is `@id opcode parameters;` with single blanks in between. A text
parameter stands in double quotes and holds none. An acknowledgment begins with
`>` in place of `@`.
-/

namespace RobotMotion.Wire.Abb

/-! ### Frames -/

/-- What a frame asks of the controller. -/
inductive Opcode where
  | moveLinear
  | moveJoint
  | moveAbsoluteJoint
  | speed
  | zone
  | wait
  /-- show a text on the pendant -/
  | display
  | tool
  | noTool
  | setDigital
  | setAnalog
  | externalJoints
  | acceleration
  | stopExecution
  | getInfo
  | getPosition
  | getJoints
  | getExternalAxes
deriving DecidableEq, Repr

/-- The number of an opcode. -/
def Opcode.code : Opcode → Nat
  | .moveLinear => 1
  | .moveJoint => 2
  | .moveAbsoluteJoint => 3
  | .speed => 4
  | .zone => 5
  | .wait => 6
  | .display => 7
  | .tool => 8
  | .noTool => 9
  | .setDigital => 10
  | .setAnalog => 11
  | .externalJoints => 12
  | .acceleration => 13
  | .stopExecution => 100
  | .getInfo => 101
  | .getPosition => 103
  | .getJoints => 104
  | .getExternalAxes => 105

/-- A parameter of a frame. -/
inductive Parameter where
  /-- written as it stands -/
  | bare (text : String)
  /-- written in double quotes -/
  | quoted (text : String)
deriving DecidableEq, Repr

/-- The text of a parameter. -/
def Parameter.text : Parameter → String
  | .bare s => s
  | .quoted s => "\"" ++ s ++ "\""

/-- A frame. -/
structure Frame where
  id : Nat
  opcode : Opcode
  parameters : List Parameter
deriving DecidableEq, Repr

/-- The text of a frame. -/
def Frame.text (f : Frame) : String :=
  "@" ++ Decimal.natural f.id ++ " " ++ Decimal.natural f.opcode.code
    ++ String.join (f.parameters.map fun p => " " ++ p.text) ++ ";"

/-- A query or order to the controller itself. -/
def request (id : Nat) (opcode : Opcode) : Frame := ⟨id, opcode, []⟩

/-- The text without its first character, if that is the given one. -/
def afterFirst? (c : Char) : List Char → Option (List Char)
  | [] => none
  | d :: rest => if d = c then some rest else none

/-- The text without its last character, if that is the given one. -/
def beforeLast? (c : Char) (s : List Char) : Option (List Char) :=
  (afterFirst? c s.reverse).map List.reverse

/-- The identifier that an acknowledgment carries: its first word, between the
leading mark and the final semicolon. -/
def acknowledged? (frame : String) : Option Nat := do
  let body ← beforeLast? ';' (← afterFirst? '>' (Text.trimmed frame.toList))
  let id ← Text.natural? (Text.firstWord body)
  if id < Action.idLimit then some id else none

/-! ### Parameters -/

/-- The greatest number of characters in a text parameter. -/
def maxTextLength : Nat := 80

/-- A text parameter: double quotes become single ones, and what is too long is
cut off. -/
def textParameter (s : String) : Parameter :=
  let replaced := s.toList.map fun c => if c = '"' then '\'' else c
  .quoted (String.ofList (replaced.take maxTextLength))

/-- A number with three places. -/
def lengthParameter (x : Float) : Parameter := .bare (Decimal.fixed x 3)

/-- The parameters of a point. -/
def pointParameters (v : Vector3 Float) : List Parameter := v.toList.map lengthParameter

/-- The parameters of a rotation, scalar part first. -/
def rotationParameters (q : Rotation Float) : List Parameter :=
  q.scalarFirst.map fun x => .bare (Decimal.fixed x 6)

/-- The parameters of a pose. -/
def poseParameters (position : Vector3 Float) (rotation : Rotation Float) : List Parameter :=
  pointParameters position ++ rotationParameters rotation

/-- The parameters of a tool. Controllers take no tool without mass. -/
def toolParameters (t : Tool Float) : List Parameter :=
  let weight := if t.weight > 0.001 then t.weight else 0.001
  poseParameters t.tcpPosition t.tcpOrientation ++ [.bare (Decimal.fixed weight 3)]
    ++ pointParameters t.centerOfGravity

/-- The parameters of external axes; `9E9` where an axis is not set. -/
def externalParameters (axes : Option (ExternalAxes Float)) : List Parameter :=
  (axes.getD .empty).toList.map fun
    | some v => lengthParameter v
    | none => .bare "9E9"

/-! ### Encoding -/

/-- The frame for a setting that took a value. Motion type, reference frame and
extrusion rate stay on this side of the wire. -/
def settingFrame? (id : Nat) : SettingChange Float → Option Frame
  | .quantity .speed value => some ⟨id, .speed, [lengthParameter value]⟩
  | .quantity .precision value => some ⟨id, .zone, [lengthParameter value]⟩
  | .quantity .acceleration value => some ⟨id, .acceleration, [lengthParameter value]⟩
  | .quantity .extrusionRate _ | .motion _ | .frame _ => none

/-- The frame for an action, given the state after it. -/
def frame? (action : Action Float) (s : State Float) : Option Frame :=
  let id := action.id
  match action.command with
  | .translation .. | .rotation .. | .transformation .. =>
    let opcode := match s.settings.motion with
      | .linear => Opcode.moveLinear
      | .joint => Opcode.moveJoint
    s.pose?.map fun (position, rotation) => ⟨id, opcode, poseParameters position rotation⟩
  | .axes .. =>
    s.axes.map fun joints => ⟨id, .moveAbsoluteJoint, joints.toList.map lengthParameter⟩
  | .setting which .. => settingFrame? id (.quantity which (s.settings.quantity which))
  | .externalAxis _ _ target _ =>
    let axes := match target with
      | .joint => s.jointExternal
      | .cartesian | .all => s.cartesianExternal
    some ⟨id, .externalJoints, externalParameters axes⟩
  | .wait millis =>
    some ⟨id, .wait, [lengthParameter (Float.ofNat millis / 1000.0)]⟩
  | .message text => some ⟨id, .display, [textParameter text]⟩
  | .attachTool _ => s.tool.map fun tool => ⟨id, .tool, toolParameters tool⟩
  | .detachTool => some ⟨id, .noTool, []⟩
  | .writeDigital pin on _ =>
    some ⟨id, .setDigital, [textParameter pin, .bare (if on then "1" else "0")]⟩
  | .writeAnalog pin value _ => some ⟨id, .setAnalog, [textParameter pin, lengthParameter value]⟩
  | .motionMode _ | .referenceFrame _ | .pushSettings | .popSettings | .defineTool _ | .comment _
  | .temperature .. | .extrusion _ | .initialization _ | .customCode .. => none

end RobotMotion.Wire.Abb
