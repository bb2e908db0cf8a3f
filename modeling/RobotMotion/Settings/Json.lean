import RobotMotion.Json.Record
import RobotMotion.Settings.Basic

/-!
# Settings in JSON

Settings as a record in which any field may be missing; the standard settings
fill the gaps.
-/

namespace RobotMotion

/-- The motion type of a word. -/
def MotionType.ofWord? : String → Option MotionType
  | "linear" => some .linear
  | "joint" => some .joint
  | _ => none

/-- The reference frame of a word. -/
def ReferenceFrame.ofWord? : String → Option ReferenceFrame
  | "world" => some .world
  | "local" => some .tool
  | _ => none

theorem MotionType.ofWord?_text (m : MotionType) : ofWord? m.text = some m := by
  cases m <;> rfl

theorem ReferenceFrame.ofWord?_text (f : ReferenceFrame) : ofWord? f.text = some f := by
  cases f <;> rfl

namespace Settings

/-- The fields of settings in their order. -/
def fieldNames : List String :=
  ["speed", "acceleration", "precision", "motion_type", "reference_cs", "extrusion_rate"]

/-- Settings as JSON. -/
def toJson (s : Settings Float) : Json :=
  .object
    [ ("speed", .real s.speed),
      ("acceleration", .real s.acceleration),
      ("precision", .real s.precision),
      ("motion_type", .text s.motion.text),
      ("reference_cs", .text s.frame.text),
      ("extrusion_rate", .real s.extrusionRate) ]

/-- Settings read from JSON. -/
def ofJson? (j : Json) : Option (Settings Float) := do
  let fields ← j.record? fieldNames
  let std : Settings Float := standard
  let word {β : Type} (f : String → Option β) (j : Json) : Option β := (j.word? false).bind f
  return {
    speed := ← Json.defaulted fields "speed" std.speed Json.real?
    acceleration := ← Json.defaulted fields "acceleration" std.acceleration Json.real?
    precision := ← Json.defaulted fields "precision" std.precision Json.real?
    motion := ← Json.defaulted fields "motion_type" std.motion (word MotionType.ofWord?)
    frame := ← Json.defaulted fields "reference_cs" std.frame (word ReferenceFrame.ofWord?)
    extrusionRate := ← Json.defaulted fields "extrusion_rate" std.extrusionRate Json.real? }

end Settings

end RobotMotion
