import RobotMotion.CommandLine
import Std.Time.Format

/-!
# The program

Reads what a run needs from the outside, carries it out, and prints what it
says.
-/

namespace RobotMotion

/-- Whether a path outside leads anywhere. One that passes through a file, or
that no name can be, leads nowhere. -/
def leadsSomewhere (path : String) : IO Bool := do
  try
    discard <| IO.FS.realPath path
    return true
  catch _ => return false

/-- What is found at a path outside. -/
def readFound (path : String) : IO Found := do
  if !(← leadsSomewhere path) then return .missing
  try
    return .file (← IO.FS.readFile path)
  catch _ => return .unreadable

/-- The present time in the form of a program header. -/
def presentTime : IO String := do
  let now ← Std.Time.Timestamp.now
  return (Std.Time.DateTime.ofTimestamp now .UTC).format "uuuu-MM-dd HH:mm:ss"

/-- Run with the given arguments and give the exit code. -/
def execute (arguments : List String) : IO UInt32 := do
  let home ← IO.getEnv "HOME"
  -- the configuration is read first, since it may name the library
  let settled ← match CommandLine.configPath? arguments with
    | none => pure []
    | some path => pure [(path, ← readFound path)]
  let known (files : List (String × Found)) (path : String) : Found :=
    (files.lookup path).getD .missing
  let library? := match CommandLine.config (known settled) home arguments with
    | .ok config => config.toolLibrary
    | .error _ => none
  let files ← match library? with
    | none => pure settled
    | some path => pure ((path, ← readFound path) :: settled)
  let outcome := CommandLine.run (known files) home (← presentTime) arguments
  IO.print outcome.output
  if let some complaint := outcome.complaint then
    IO.eprintln complaint
  return outcome.exitCode.toUInt32

end RobotMotion

/-- The entry point. -/
def main (arguments : List String) : IO UInt32 := RobotMotion.execute arguments
