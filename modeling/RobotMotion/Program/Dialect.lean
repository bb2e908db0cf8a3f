import RobotMotion.Program.CallList
import RobotMotion.Program.GCode
import RobotMotion.Program.Krl
import RobotMotion.Program.Rapid
import RobotMotion.Program.UrScript

/-!
# Dialects

The dialects that a program can be written in.
-/

namespace RobotMotion

/-- The dialects. -/
inductive Dialect where
  | rapid
  | krl
  | urscript
  | gcode
  /-- the calls of the actions themselves -/
  | calls
deriving DecidableEq, Repr

namespace Dialect

/-- The name of a dialect. -/
def name : Dialect → String
  | .rapid => Rapid.dialect
  | .krl => Krl.dialect
  | .urscript => UrScript.dialect
  | .gcode => GCode.dialect
  | .calls => CallList.dialect

/-- The comment mark of a dialect. -/
def comment : Dialect → String
  | .rapid => Rapid.comment
  | .krl => Krl.comment
  | .urscript => UrScript.comment
  | .gcode => GCode.comment
  | .calls => CallList.comment

/-- The usual decimal places of a dialect. -/
def decimals : Dialect → Decimals
  | .gcode => GCode.decimals
  | _ => .standard

/-- The program that carries out what waits in front of a cursor. The cursor is
not touched. -/
def program (dialect : Dialect) (d : Decimals) (time name : String) (options : ProgramOptions)
    (cursor : Cursor Float) : Program :=
  match dialect with
  | .rapid => Rapid.program d time name options cursor
  | .krl => Krl.program d time name options cursor
  | .urscript => UrScript.program d time name options cursor
  | .gcode => GCode.program d time name options cursor
  | .calls => CallList.program time name options cursor

end Dialect

end RobotMotion
