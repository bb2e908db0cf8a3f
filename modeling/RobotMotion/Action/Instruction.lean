import RobotMotion.Action.Basic
import RobotMotion.Decimal.Trimmed
import RobotMotion.Text.Quoted

/-!
# Instructions

Every command is written as the call that produces it, such as
`MoveTo(0, 0, 150);`. A `Call` holds the verb and the arguments; its text
separates them unambiguously, since texts are quoted and numbers hold no
separators.
-/

namespace RobotMotion

/-- An argument of a call. -/
inductive Argument where
  /-- a number, shown to six places -/
  | number (value : Float)
  | whole (value : Nat)
  | flag (value : Bool)
  | text (value : String)

/-- The text of an argument. -/
def Argument.render : Argument → String
  | .number x => Decimal.trimmed x
  | .whole n => Decimal.natural n
  | .flag b => if b then "true" else "false"
  | .text s => Text.quoted s

/-- A call with its arguments. -/
structure Call where
  verb : String
  arguments : List Argument

/-- The text of a call. -/
def Call.render (c : Call) : String :=
  c.verb ++ "(" ++ String.intercalate ", " (c.arguments.map Argument.render) ++ ");"

/-- The verb stem for a numeric setting. -/
def Quantity.stem : Quantity → String
  | .speed => "Speed"
  | .acceleration => "Acceleration"
  | .precision => "Precision"
  | .extrusionRate => "ExtrusionRate"

namespace Command

/-- The arguments that a vector makes. -/
def vectorArguments (v : Vector3 Float) : List Argument := v.toList.map .number

/-- The arguments that a rotation makes: its axis and its angle in degrees. -/
def rotationArguments (q : Rotation Float) : List Argument :=
  let (axis, angle) := q.axisAngleDegrees
  vectorArguments axis ++ [.number angle]

/-- The verb of a command that comes in a relative and an absolute form. -/
def verb (stem : String) (relative : Bool) : String :=
  if relative then stem else stem ++ "To"

/-- The call that produces a command. -/
def call : Command Float → Call
  | .setting q value relative => ⟨verb q.stem relative, [.number value]⟩
  | .motionMode mode => ⟨"MotionMode", [.text mode.text]⟩
  | .referenceFrame frame => ⟨"CoordinateSystem", [.text frame.text]⟩
  | .pushSettings => ⟨"PushSettings", []⟩
  | .popSettings => ⟨"PopSettings", []⟩
  | .translation delta relative => ⟨verb "Move" relative, vectorArguments delta⟩
  | .rotation q relative => ⟨verb "Rotate" relative, rotationArguments q⟩
  | .transformation v q relative translationFirst =>
    ⟨verb "Transform" relative, vectorArguments v ++ rotationArguments q
      ++ if relative && !translationFirst then [.flag false] else []⟩
  | .axes joints relative => ⟨verb "Axes" relative, joints.toList.map .number⟩
  | .externalAxis index value target relative =>
    ⟨verb "ExternalAxis" relative, [.whole index, .number value, .text target.text]⟩
  | .defineTool tool =>
    ⟨"DefineTool", [.text tool.name] ++ vectorArguments tool.tcpPosition
      ++ rotationArguments tool.tcpOrientation ++ [.number tool.weight]
      ++ vectorArguments tool.centerOfGravity⟩
  | .attachTool name => ⟨"AttachTool", [.text name]⟩
  | .detachTool => ⟨"DetachTool", []⟩
  | .writeDigital pin on toolPin => ⟨"WriteDigital", [.text pin, .flag on, .flag toolPin]⟩
  | .writeAnalog pin value toolPin =>
    ⟨"WriteAnalog", [.text pin, .number value, .flag toolPin]⟩
  | .wait millis => ⟨"Wait", [.whole millis]⟩
  | .message text => ⟨"Message", [.text text]⟩
  | .comment text => ⟨"Comment", [.text text]⟩
  | .temperature part value waits relative =>
    ⟨verb "Temperature" relative, [.number value, .text part.text, .flag waits]⟩
  | .extrusion on => ⟨"Extrude", [.flag on]⟩
  | .initialization on => ⟨if on then "Initialize" else "Terminate", []⟩
  | .customCode code isDeclaration => ⟨"CustomCode", [.text code, .flag isDeclaration]⟩

/-- The text of the call that produces a command. -/
def instruction (c : Command Float) : String := c.call.render

end Command

end RobotMotion
