import RobotMotion.Config
import RobotMotion.Program.Dialect
import RobotMotion.Wire.Stream

/-!
# Sessions

A session controls one device with two cursors. Actions are issued to the user
cursor, which carries them out at once, and the write cursor receives those that
applied and keeps them for output: as a program, or as a stream.

A cell holds any number of sessions. Sessions draw their identifiers from
sources, and several sessions may share one.
-/

namespace RobotMotion

/-- A session: the numbers of its two cursors and of its identifier source. -/
structure Session where
  name : String
  source : Nat
  user : Nat
  write : Nat
  options : ProgramOptions
deriving DecidableEq, Repr

/-- The sessions that are open, with their cursors and identifier sources. -/
structure Cell where
  fleet : Fleet Float
  sources : List IdSource
deriving DecidableEq, Repr

namespace Cell

/-- Nothing open. -/
def empty : Cell := ⟨.empty, []⟩

/-- A further source of identifiers, and its number. -/
def addSource (c : Cell) : Nat × Cell :=
  (c.sources.length, { c with sources := c.sources ++ [.start] })

/-- The next identifier of a source on a command. A source that is not there
begins anew. -/
def stamp (c : Cell) (source : Nat) (command : Command Float) : Action Float × Cell :=
  let (action, ids) := (c.sources.getD source .start).stamp command
  (action, { c with sources := c.sources.set source ids })

/-- The last identifier that a source handed out. -/
def lastId (c : Cell) (source : Nat) : Nat := (c.sources.getD source .start).last

/-- Why a session cannot be opened. -/
inductive OpenError where
  | library (failure : ToolLibrary.Failure)
  | start (error : StartError)
deriving DecidableEq, Repr

/-- The wording of an error on opening. -/
def OpenError.message : OpenError → String
  | .library failure => failure.message
  | .start error => error.message

/-- A further session, not yet started, that draws from a source and knows some
tools. The write cursor comes first, since the user cursor feeds it. -/
def addSession (c : Cell) (name : String) (source : Nat) (tools : List (Tool Float))
    (options : ProgramOptions) : Session × Cell :=
  let write := c.fleet.cursors.length
  let fleet := c.fleet.add (.make (name ++ "-write") false none tools)
  let user := fleet.cursors.length
  let fleet := fleet.add (.make (name ++ "-user") true (some write) tools)
  (⟨name, source, user, write, options⟩, { c with fleet })

/-- Give both cursors of a session the same starting pose and settings. -/
def start (c : Cell) (s : Session) (pose : InitialPose Float) (settings : Settings Float) :
    Except StartError Cell := do
  let fleet ← c.fleet.start s.user pose settings
  let fleet ← fleet.start s.write pose settings
  return { c with fleet }

/-- Open and start a session as a configuration says. It draws from a source of
its own. -/
def openConfigured (c : Cell) (find : String → Found) (config : Config) :
    Except OpenError (Session × Cell) := do
  let tools ← (config.resolveTools find).mapError OpenError.library
  let (source, c) := c.addSource
  let (s, c) := c.addSession config.name source tools config.options
  let c ← (c.start s config.initialPose config.settings).mapError OpenError.start
  return (s, c)

/-- Issue a command under the next identifier. The action is given back if it
applied; one that was rejected has used up its identifier and goes no
further. -/
def issue (c : Cell) (s : Session) (command : Command Float) : Option (Action Float) × Cell :=
  let (action, c) := c.stamp s.source command
  let (applied, fleet) := c.fleet.issue s.user action
  (if applied then some action else none, { c with fleet })

/-- Issue a command to the write cursor alone. -/
def issueToWrite (c : Cell) (s : Session) (command : Command Float) : Bool × Cell :=
  let (action, c) := c.stamp s.source command
  let (accepted, fleet) := c.fleet.issue s.write action
  (accepted, { c with fleet })

/-- Make what waits at the write cursor the block. -/
def setBlock (c : Cell) (s : Session) : Cell :=
  match c.fleet.cursor? s.write with
  | none => c
  | some cursor =>
    { c with fleet := c.fleet.put s.write { cursor with queue := cursor.queue.freeze } }

/-- The program of what waits at the write cursor. -/
def program? (c : Cell) (s : Session) (dialect : Dialect) (time name : String)
    (options : ProgramOptions) : Option Program :=
  (c.fleet.cursor? s.write).map (dialect.program dialect.decimals time name options)

/-- Release the next action of the write cursor and give its messages. -/
def stream? (c : Cell) (s : Session) (p : Wire.Protocol) : Option (List Wire.Message × Cell) :=
  (p.stream? c.fleet s.write).map fun (messages, fleet) => (messages, { c with fleet })

end Cell

end RobotMotion
