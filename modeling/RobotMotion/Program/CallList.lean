import RobotMotion.Cursor.Basic
import RobotMotion.Program.Section

/-!
# Lists of calls

The actions written as the calls that produce them, for logs and for reading
them back.
-/

namespace RobotMotion.CallList

open Program (Entry)

/-- What became of an action: its call, or that it was rejected. -/
def entry (v : Visit Float) : Entry Call :=
  if v.applied then .code v.action [v.action.command.call] else .diagnostic v.action .failed

/-- The calls of the visits. -/
def body (visits : List (Visit Float)) : List (Entry Call) := visits.map entry

/-- The comment mark of the dialect. -/
def comment : String := "//"

/-- The name of the dialect. -/
def dialect : String := "Machina"

/-- A list of calls. -/
def program (time name : String) (options : ProgramOptions) (cursor : Cursor Float) : Program :=
  let name := Program.safeName name
  let look : Program.Look := ⟨comment, dialect, options.comments, 0⟩
  { name
    dialect
    lines :=
      Program.header time comment name dialect
        ++ [""]
        ++ look.lines Call.render (body (cursor.visits options.blockOnly)) }

end RobotMotion.CallList
