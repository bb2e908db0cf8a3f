import RobotMotion.Action.Basic
import RobotMotion.Decimal.Trimmed

/-!
# Descriptions

One line of prose for every command, shown in program comments and logs.
-/

namespace RobotMotion.Command

/-- A rotation in words. -/
def degreesAround (q : Rotation Float) : String :=
  let (axis, angle) := q.axisAngleDegrees
  Decimal.trimmed angle ++ " deg around " ++ axis.text

/-- What a numeric setting is called, with its unit. -/
def quantityWords : Quantity → String × String
  | .speed => ("speed", "mm/s")
  | .acceleration => ("acceleration", "mm/s^2")
  | .precision => ("precision radius", "mm")
  | .extrusionRate => ("extrusion rate", "mm/mm")

/-- A command in words. -/
def description : Command Float → String
  | .setting q value relative =>
    let (words, unit) := quantityWords q
    (if relative then "Increase " ++ words ++ " by " else "Set " ++ words ++ " to ")
      ++ Decimal.trimmed value ++ " " ++ unit
  | .motionMode mode => "Set motion type to " ++ mode.text
  | .referenceFrame frame => "Set reference coordinate system to " ++ frame.text
  | .pushSettings => "Push settings to buffer"
  | .popSettings => "Pop settings from buffer"
  | .translation delta relative =>
    (if relative then "Move " else "Move to ") ++ delta.text ++ " mm"
  | .rotation q relative =>
    (if relative then "Rotate " else "Rotate to ") ++ degreesAround q
  | .transformation v q relative _ =>
    (if relative then "Transform " else "Transform to ") ++ v.text ++ " mm and "
      ++ degreesAround q
  | .axes joints relative =>
    (if relative then "Increase joint rotations by " else "Set joint rotations to ")
      ++ joints.text ++ " deg"
  | .externalAxis index value _ relative =>
    (if relative then "Increase" else "Set") ++ " external axis " ++ Decimal.natural index
      ++ (if relative then " by " else " to ") ++ Decimal.trimmed value
  | .defineTool tool => "Define tool \"" ++ tool.name ++ "\""
  | .attachTool name => "Attach tool \"" ++ name ++ "\""
  | .detachTool => "Detach all tools"
  | .writeDigital pin on toolPin =>
    "Turn " ++ (if toolPin then "tool " else "") ++ "digital IO \"" ++ pin ++ "\" "
      ++ if on then "ON" else "OFF"
  | .writeAnalog pin value toolPin =>
    "Set " ++ (if toolPin then "tool " else "") ++ "analog IO \"" ++ pin ++ "\" to "
      ++ Decimal.trimmed value
  | .wait millis => "Wait " ++ Decimal.natural millis ++ " ms"
  | .message text => "Send message \"" ++ text ++ "\""
  | .comment text => "Comment: \"" ++ text ++ "\""
  | .temperature part value waits relative =>
    (if relative then "Increase " else "Set ") ++ part.text ++ " temperature "
      ++ (if relative then "by " else "to ") ++ Decimal.trimmed value ++ " C"
      ++ if waits then " and wait" else ""
  | .extrusion on => "Turn extrusion " ++ if on then "on" else "off"
  | .initialization on => if on then "Initialize robot" else "Terminate robot"
  | .customCode code _ => "Custom code: \"" ++ code ++ "\""

end RobotMotion.Command
