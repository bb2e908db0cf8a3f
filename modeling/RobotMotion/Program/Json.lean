import RobotMotion.Json.Record
import RobotMotion.Program.Basic

/-!
# Programs and their options in JSON

Options are a record in which any field may be missing; a program is a record
of which every field is required.
-/

namespace RobotMotion

/-- The word for a comment mode. -/
def CommentMode.text : CommentMode → String
  | .none => "none"
  | .actionString => "action_string"
  | .actionId => "action_id"

/-- The comment mode of a word. -/
def CommentMode.ofWord? : String → Option CommentMode
  | "none" => some .none
  | "action_string" => some .actionString
  | "action_id" => some .actionId
  | _ => Option.none

theorem CommentMode.ofWord?_text (m : CommentMode) : ofWord? m.text = some m := by
  cases m <;> rfl

namespace ProgramOptions

/-- Options as JSON. -/
def toJson (o : ProgramOptions) : Json :=
  .object
    [ ("block_only", .bool o.blockOnly),
      ("inline_targets", .bool o.inlineTargets),
      ("comments", .text o.comments.text) ]

/-- Options read from JSON. -/
def ofJson? (j : Json) : Option ProgramOptions := do
  let fields ← j.record? ["block_only", "inline_targets", "comments"]
  let mode (j : Json) : Option CommentMode := (j.word? false).bind CommentMode.ofWord?
  return {
    blockOnly := ← Json.defaulted fields "block_only" standard.blockOnly Json.flag?
    inlineTargets := ← Json.defaulted fields "inline_targets" standard.inlineTargets Json.flag?
    comments := ← Json.defaulted fields "comments" standard.comments mode }

end ProgramOptions

namespace Program

/-- A program as JSON. -/
def toJson (p : Program) : Json :=
  .object
    [ ("name", .text p.name),
      ("dialect", .text p.dialect),
      ("lines", .array (p.lines.map .text)) ]

/-- A program read from JSON. -/
def ofJson? (j : Json) : Option Program := do
  let fields ← j.record? ["name", "dialect", "lines"]
  return {
    name := ← Json.required fields "name" Json.string?
    dialect := ← Json.required fields "dialect" Json.string?
    lines := ← Json.required fields "lines" (Json.list? Json.string?) }

end Program

end RobotMotion
