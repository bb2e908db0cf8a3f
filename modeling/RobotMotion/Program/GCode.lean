import RobotMotion.Cursor.Basic
import RobotMotion.Program.Pin
import RobotMotion.Program.Section
import RobotMotion.Program.Target

/-!
# G-code programs

G-code for printing devices. There are no variables, so targets are always
written in place, and the feed rate is written on every move. Extrusion is
absolute and counts from zero whenever it is switched on or off; travel moves
extrude nothing.
-/

namespace RobotMotion.GCode

open Program (Entry)

/-! ### Extrusion -/

/-- What a visited action extrudes in the program: the extrusion value that its
move carries, if any, and the extruded length that counts as zero afterwards.
The material that the device accounts to a travel move is left out by moving
the zero along. -/
def feed {α : Type} [Scalar α] (origin : α) (v : Visit α) : Option α × α :=
  if !v.applied then (none, origin)
  else match v.action.command with
    | .translation .. | .transformation .. =>
      if v.state.position.isSome && v.state.extruding then
        match v.state.settings.motion with
        | .linear => (some (v.state.extruded - origin), origin)
        | .joint => (none, origin + v.state.extrudedDelta)
      else (none, origin)
    | .extrusion _ => (none, v.state.extruded)
    | _ => (none, origin)

/-- The extrusion values that visited actions carry. -/
def feeds {α : Type} [Scalar α] (origin : α) : List (Visit α) → List (Option α)
  | [] => []
  | v :: rest =>
    let (value, origin) := feed origin v
    value :: feeds origin rest

/-! ### Statements -/

/-- A statement of the program. -/
inductive Statement where
  /-- move while working, with the extrusion value if material is fed -/
  | work (x y z : String) (extrusion : Option String) (feedRate : String)
  /-- travel without working -/
  | travel (x y z : String) (feedRate : String)
  /-- let the extrusion count from zero -/
  | resetExtrusion
  | temperature (part : HeatedPart) (waits : Bool) (value : String)
  | acceleration (value : String)
  | setPin (pin : Int) (value : String)
  | dwell (millis : Nat)
  | message (text : String)
  | comment (text : String)
  /-- start up -/
  | home
  /-- shut down -/
  | motorsOff
  | custom (code : String)

/-- The code that sets a temperature. -/
def temperatureCode : HeatedPart → Bool → String
  | .extruder, false => "M104"
  | .extruder, true => "M109"
  | .bed, false => "M140"
  | .bed, true => "M190"
  | .chamber, false => "M141"
  | .chamber, true => "M191"

/-- The text of a move. -/
def moveText (code x y z : String) (extrusion : Option String) (feedRate : String) : String :=
  code ++ " X" ++ x ++ " Y" ++ y ++ " Z" ++ z
    ++ (match extrusion with
      | some e => " E" ++ e
      | none => "")
    ++ " F" ++ feedRate

/-- The text of a statement. -/
def Statement.text : Statement → String
  | .work x y z extrusion feedRate => moveText "G1" x y z extrusion feedRate
  | .travel x y z feedRate => moveText "G0" x y z none feedRate
  | .resetExtrusion => "G92 E0"
  | .temperature part waits value => temperatureCode part waits ++ " S" ++ value
  | .acceleration value => "M204 S" ++ value
  | .setPin pin value => "M42 P" ++ pinText pin ++ " S" ++ value
  | .dwell millis => "G4 P" ++ Decimal.natural millis
  | .message text => "M117 " ++ text
  | .comment text => "; " ++ text
  | .home => "G28"
  | .motorsOff => "M84"
  | .custom code => code

/-- The greatest pin number; the least is zero. -/
def lastPin : Int := 255

/-! ### Writing a program -/

/-- A program that is being written. -/
structure Draft where
  /-- code that goes in front of the program -/
  preamble : List (Entry Statement)
  body : List (Entry Statement)
  /-- the extruded length that counts as zero -/
  origin : Float

namespace Draft

/-- Nothing written yet. -/
def start (origin : Float) : Draft := ⟨[], [], origin⟩

/-- The move to a position. -/
def move (d : Decimals) (settings : Settings Float) (position : Vector3 Float)
    (extrusion : Option Float) : Statement :=
  let length (x : Float) : String := Decimal.fixed x d.mm
  let feedRate := Decimal.fixed (settings.speed * 60.0) 0
  match settings.motion with
  | .linear =>
    .work (length position.x) (length position.y) (length position.z)
      (extrusion.map (Decimal.fixed · d.unitless)) feedRate
  | .joint => .travel (length position.x) (length position.y) (length position.z) feedRate

/-- The entries that say what became of an action. -/
def bodyEntries (d : Decimals) (origin : Float) (v : Visit Float) : List (Entry Statement) :=
  let action := v.action
  let settings := v.state.settings
  let code (s : Statement) : List (Entry Statement) := [.code action [s]]
  let diagnostic (what : Program.Diagnostic) : List (Entry Statement) := [.diagnostic action what]
  let acceleration := Statement.acceleration (Decimal.fixed settings.acceleration d.mm)
  let badPin (pin : String) : List (Entry Statement) :=
    diagnostic (.error ("pin \"" ++ pin ++ "\" is not in 0..255"))
  if !v.applied then diagnostic .failed
  else match action.command with
    | .translation .. | .transformation .. =>
      match v.state.position with
      | none => diagnostic (.error "no position available for motion")
      | some position => code (move d settings position (feed origin v).1)
    | .extrusion _ => code .resetExtrusion
    | .temperature part _ waits _ =>
      let value := (v.state.temperatures.get? part).getD 0.0
      code (.temperature part waits (Decimal.fixed value d.celsius))
    | .setting .acceleration .. => code acceleration
    | .popSettings =>
      match v.device.stack.beforePop with
      | some before =>
        if before.acceleration != settings.acceleration then code acceleration else []
      | none => []
    | .writeDigital pin on _ =>
      match pinNumber? 0 lastPin pin with
      | some n => code (.setPin n (if on then "255" else "0"))
      | none => badPin pin
    | .writeAnalog pin value _ =>
      match pinNumber? 0 lastPin pin with
      | none => badPin pin
      | some n =>
        if 0.0 ≤ value && value ≤ 1.0 then code (.setPin n (Decimal.fixed (value * 255.0) 0))
        else diagnostic (.error "analog value must be within 0..1")
    | .wait millis => code (.dwell millis)
    | .message text => code (.message text)
    | .comment text => code (.comment text)
    | .initialization on => code (if on then .home else .motorsOff)
    | .customCode _ true => []
    | .customCode text false => code (.custom text)
    | .rotation .. | .axes .. | .externalAxis .. | .defineTool _ | .attachTool _ | .detachTool =>
      diagnostic .unsupported
    | .setting .speed .. | .setting .precision .. | .setting .extrusionRate .. | .motionMode _
    | .referenceFrame _ | .pushSettings => []

/-- The entries that an action puts in front of the program. -/
def preambleEntries (v : Visit Float) : List (Entry Statement) :=
  match v.applied, v.action.command with
  | true, .customCode text true => [.code v.action [.custom text]]
  | _, _ => []

/-- Write what became of an action. -/
def step (d : Decimals) (draft : Draft) (v : Visit Float) : Draft where
  preamble := draft.preamble ++ preambleEntries v
  body := draft.body ++ bodyEntries d draft.origin v
  origin := (feed draft.origin v).2

end Draft

/-- The program of the visits, still in parts. The extruded length at the start
counts as zero. -/
def draft (d : Decimals) (origin : Float) (visits : List (Visit Float)) : Draft :=
  visits.foldl (Draft.step d) (.start origin)

/-- The comment mark of the dialect. -/
def comment : String := ";"

/-- The name of the dialect. -/
def dialect : String := "G-code"

/-- The usual decimal places: printing devices take five for extruded lengths. -/
def decimals : Decimals := { Decimals.standard with unitless := 5 }

/-- A G-code program. -/
def program (d : Decimals) (time name : String) (options : ProgramOptions)
    (cursor : Cursor Float) : Program :=
  let name := Program.safeName name
  let draft := draft d cursor.device.state.extruded (cursor.visits options.blockOnly)
  let look : Program.Look := ⟨comment, dialect, options.comments, 0⟩
  { name
    dialect
    lines :=
      Program.header time comment name dialect
        ++ ["", "G21 ; millimetres", "G90 ; absolute positioning", "M82 ; absolute extrusion"]
        ++ look.lines Statement.text draft.preamble
        ++ [""]
        ++ look.lines Statement.text draft.body }

end RobotMotion.GCode
