import RobotMotion.Action.Basic
import RobotMotion.Settings.Json
import RobotMotion.Tool.Json

/-!
# Commands in JSON

A command is a pair of a tag and its data, as an object with the fields `type`
and `data` or as an array of the two. In the object the tag is an enumeration
word in either of its forms, in the array it is a plain text. Commands without
parameters have no data.

Where the tag is read first, the data is read as it stands. Where the data comes
first it has to be set aside until the tag is known; then all of it has to be
readable and not nested too deeply, and the value given to an enumeration word
may be an empty object.
-/

namespace RobotMotion

/-- The heated part of a word. -/
def HeatedPart.ofWord? : String → Option HeatedPart
  | "extruder" => some .extruder
  | "bed" => some .bed
  | "chamber" => some .chamber
  | _ => none

/-- The set of external axes of a word. -/
def AxesTarget.ofWord? : String → Option AxesTarget
  | "cartesian" => some .cartesian
  | "joint" => some .joint
  | "all" => some .all
  | _ => none

theorem HeatedPart.ofWord?_text (p : HeatedPart) : ofWord? p.text = some p := by
  cases p <;> rfl

theorem AxesTarget.ofWord?_text (t : AxesTarget) : ofWord? t.text = some t := by
  cases t <;> rfl

/-- The tag of a numeric setting. -/
def Quantity.tag : Quantity → String
  | .speed => "speed"
  | .acceleration => "acceleration"
  | .precision => "precision"
  | .extrusionRate => "extrusion_rate"

namespace Command

/-- The tag of a command. -/
def tag {α : Type} : Command α → String
  | .setting which .. => which.tag
  | .motionMode _ => "motion_mode"
  | .referenceFrame _ => "reference_frame"
  | .pushSettings => "push_settings"
  | .popSettings => "pop_settings"
  | .translation .. => "translation"
  | .rotation .. => "rotation"
  | .transformation .. => "transformation"
  | .axes .. => "axes"
  | .externalAxis .. => "external_axis"
  | .defineTool _ => "define_tool"
  | .attachTool _ => "attach_tool"
  | .detachTool => "detach_tool"
  | .writeDigital .. => "write_digital_i_o"
  | .writeAnalog .. => "write_analog_i_o"
  | .wait _ => "wait"
  | .message _ => "message"
  | .comment _ => "comment"
  | .temperature .. => "temperature"
  | .extrusion _ => "extrusion"
  | .initialization _ => "initialization"
  | .customCode .. => "custom_code"

/-- The data of a command, where it has any. -/
def data? : Command Float → Option Json
  | .setting _ value relative =>
    some (.object [("value", .real value), ("relative", .bool relative)])
  | .motionMode mode => some (.text mode.text)
  | .referenceFrame frame => some (.text frame.text)
  | .pushSettings | .popSettings | .detachTool => none
  | .translation delta relative =>
    some (.object [("delta", .ofReals delta.toList), ("relative", .bool relative)])
  | .rotation q relative =>
    some (.object [("rotation", .ofReals q.toList), ("relative", .bool relative)])
  | .transformation v q relative translationFirst =>
    some (.object
      [ ("translation", .ofReals v.toList),
        ("rotation", .ofReals q.toList),
        ("relative", .bool relative),
        ("translation_first", .bool translationFirst) ])
  | .axes joints relative =>
    some (.object [("joints", .ofReals joints.toList), ("relative", .bool relative)])
  | .externalAxis index value target relative =>
    some (.object
      [ ("index", .natural index),
        ("value", .real value),
        ("target", .text target.text),
        ("relative", .bool relative) ])
  | .defineTool tool => some tool.toJson
  | .attachTool name => some (.object [("name", .text name)])
  | .writeDigital pin on toolPin =>
    some (.object [("pin", .text pin), ("on", .bool on), ("tool_pin", .bool toolPin)])
  | .writeAnalog pin value toolPin =>
    some (.object [("pin", .text pin), ("value", .real value), ("tool_pin", .bool toolPin)])
  | .wait millis => some (.object [("millis", .natural millis)])
  | .message text | .comment text => some (.text text)
  | .temperature part value waits relative =>
    some (.object
      [ ("part", .text part.text),
        ("value", .real value),
        ("wait", .bool waits),
        ("relative", .bool relative) ])
  | .extrusion on | .initialization on => some (.bool on)
  | .customCode code isDeclaration =>
    some (.object [("code", .text code), ("is_declaration", .bool isDeclaration)])

/-- A command as JSON. -/
def toJson (c : Command Float) : Json :=
  .object (("type", .text c.tag) :: (c.data?.map ("data", ·)).toList)

/-- A numeric setting read from its data. -/
def settingOfData? (which : Quantity) (data : Json) : Option (Command Float) := do
  let fields ← data.known? ["value", "relative"]
  return .setting which (← Json.required fields "value" Json.real?)
    (← Json.required fields "relative" Json.flag?)

/-- A command without parameters, whose data may be missing or null. -/
def bare? (command : Command Float) : Option Json → Option (Command Float)
  | none | some .null => some command
  | some _ => none

/-- A command read from its tag and its data. -/
def ofTagged? (lenient : Bool) (tag : String) (data : Option Json) : Option (Command Float) :=
  let word {β : Type} (f : String → Option β) (j : Json) : Option β := (j.word? lenient).bind f
  match tag with
  | "speed" => data.bind (settingOfData? .speed)
  | "acceleration" => data.bind (settingOfData? .acceleration)
  | "precision" => data.bind (settingOfData? .precision)
  | "extrusion_rate" => data.bind (settingOfData? .extrusionRate)
  | "motion_mode" => (data.bind (word MotionType.ofWord?)).map .motionMode
  | "reference_frame" => (data.bind (word ReferenceFrame.ofWord?)).map .referenceFrame
  | "push_settings" => bare? .pushSettings data
  | "pop_settings" => bare? .popSettings data
  | "detach_tool" => bare? .detachTool data
  | "translation" => do
    let fields ← (← data).known? ["delta", "relative"]
    return .translation (← Json.required fields "delta" Json.vector3?)
      (← Json.required fields "relative" Json.flag?)
  | "rotation" => do
    let fields ← (← data).known? ["rotation", "relative"]
    return .rotation (← Json.required fields "rotation" Json.rotation?)
      (← Json.required fields "relative" Json.flag?)
  | "transformation" => do
    let fields ← (← data).known? ["translation", "rotation", "relative", "translation_first"]
    return .transformation (← Json.required fields "translation" Json.vector3?)
      (← Json.required fields "rotation" Json.rotation?)
      (← Json.required fields "relative" Json.flag?)
      (← Json.required fields "translation_first" Json.flag?)
  | "axes" => do
    let fields ← (← data).known? ["joints", "relative"]
    return .axes (← Json.required fields "joints" Json.joints?)
      (← Json.required fields "relative" Json.flag?)
  | "external_axis" => do
    let fields ← (← data).known? ["index", "value", "target", "relative"]
    return .externalAxis (← Json.required fields "index" Json.natural?)
      (← Json.required fields "value" Json.real?)
      (← Json.required fields "target" (word AxesTarget.ofWord?))
      (← Json.required fields "relative" Json.flag?)
  | "define_tool" => (data.bind Tool.ofJson?).map .defineTool
  | "attach_tool" => do
    let fields ← (← data).known? ["name"]
    return .attachTool (← Json.required fields "name" Json.string?)
  | "write_digital_i_o" => do
    let fields ← (← data).known? ["pin", "on", "tool_pin"]
    return .writeDigital (← Json.required fields "pin" Json.string?)
      (← Json.required fields "on" Json.flag?) (← Json.required fields "tool_pin" Json.flag?)
  | "write_analog_i_o" => do
    let fields ← (← data).known? ["pin", "value", "tool_pin"]
    return .writeAnalog (← Json.required fields "pin" Json.string?)
      (← Json.required fields "value" Json.real?)
      (← Json.required fields "tool_pin" Json.flag?)
  | "wait" => do
    let fields ← (← data).known? ["millis"]
    return .wait (← Json.required fields "millis" Json.natural?)
  | "message" => (data.bind Json.string?).map .message
  | "comment" => (data.bind Json.string?).map .comment
  | "temperature" => do
    let fields ← (← data).known? ["part", "value", "wait", "relative"]
    return .temperature (← Json.required fields "part" (word HeatedPart.ofWord?))
      (← Json.required fields "value" Json.real?) (← Json.required fields "wait" Json.flag?)
      (← Json.required fields "relative" Json.flag?)
  | "extrusion" => (data.bind Json.flag?).map .extrusion
  | "initialization" => (data.bind Json.flag?).map .initialization
  | "custom_code" => do
    let fields ← (← data).known? ["code", "is_declaration"]
    return .customCode (← Json.required fields "code" Json.string?)
      (← Json.required fields "is_declaration" Json.flag?)
  | _ => none

/-- How deeply data may be nested that comes before its tag. -/
def dataDepthLimit : Nat := 126

/-- A command read from JSON. -/
def ofJson? : Json → Option (Command Float)
  | .array [.text tag, data] => ofTagged? false tag (some data)
  | j => do
    match ← j.known? ["type", "data"] with
    | [("type", tag)] => ofTagged? false (← tag.word? false) none
    | [("type", tag), ("data", data)] => ofTagged? false (← tag.word? false) (some data)
    | [("data", data), ("type", tag)] =>
      if data.readable ∧ data.depth ≤ dataDepthLimit then
        ofTagged? true (← tag.word? false) (some data)
      else none
    | _ => none

end Command

/-- An action as JSON. -/
def Action.toJson (a : Action Float) : Json :=
  .object [("id", .natural a.id), ("kind", a.command.toJson)]

end RobotMotion
