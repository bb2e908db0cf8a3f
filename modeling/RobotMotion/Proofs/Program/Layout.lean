import RobotMotion.Program.Dialect

/-!
# The layout of a program

The lines of a program are put together from parts: fixed texts, declarations, and
the code of the actions. A `Part` is a list of entries with the statements written
out, and how they become lines. `Dialect.parts` gives the parts of a program in
order, and `Dialect.lines_program` says that there is nothing else in it.
-/

namespace RobotMotion

namespace Program

variable {σ τ : Type}

/-- The same entry with other statements. -/
def Entry.map (f : σ → τ) : Entry σ → Entry τ
  | .code action statements => .code action (statements.map f)
  | .diagnostic action what => .diagnostic action what
  | .plain statement => .plain (f statement)
  | .blank => .blank

/-- The statements of an entry. -/
def Entry.statements : Entry σ → List σ
  | .code _ statements => statements
  | .plain statement => [statement]
  | .diagnostic .. | .blank => []

/-- A stretch of a program: entries with their statements written out. -/
structure Part where
  look : Look
  entries : List (Entry String)

namespace Part

/-- The lines of a part. -/
def lines (part : Part) : List String := part.look.lines id part.entries

/-- Entries, written out. -/
def of (look : Look) (render : σ → String) (entries : List (Entry σ)) : Part :=
  ⟨look, entries.map (.map render)⟩

/-- Lines that belong to no action. -/
def fixed (look : Look) (lines : List String) : Part :=
  ⟨{ look with indent := 0 }, lines.map .plain⟩

@[simp] theorem lines_of (look : Look) (render : σ → String) (entries : List (Entry σ)) :
    (of look render entries).lines = look.lines render entries := by
  simp only [lines, of, Look.lines, List.flatMap_map]
  refine congrArg (List.flatMap · entries) (funext fun entry => ?_)
  cases entry <;> simp [Entry.map, Look.entryLines]

@[simp] theorem lines_fixed (look : Look) (lines : List String) :
    (fixed look lines).lines = lines := by
  induction lines with
  | nil => rfl
  | cons line rest ih =>
    have hline : ({ look with indent := 0 } : Look).indented line = line := String.empty_append
    simp only [Part.lines, Look.lines, fixed, List.map_cons, List.flatMap_cons] at ih ⊢
    rw [ih, Look.entryLines, id_eq, hline]
    rfl

end Part

end Program

open Program (Part Look)

/-- The parts of a module: the speeds, zones and tools, then the targets, then the
custom declarations, then the main procedure. -/
def Rapid.parts (time name : String) (options : ProgramOptions) (draft : Draft) : List Part :=
  let look (indent : Nat) : Look := ⟨comment, dialect, options.comments, indent⟩
  let indented (s : String) : String := "  " ++ s
  [ .fixed (look 0) (Program.header time comment name dialect),
    .fixed (look 0) ["", "MODULE " ++ name, ""],
    .fixed (look 0) (draft.speeds.entries.map
      fun (name, value) => indented ("CONST speeddata " ++ name ++ " := " ++ value ++ ";")),
    .fixed (look 0) (draft.zones.entries.map
      fun (name, value) => indented ("CONST zonedata " ++ name ++ " := " ++ value ++ ";")),
    .fixed (look 0) (draft.tools.map (indented ·.text)),
    .of (look 2) TargetDeclaration.text draft.targets,
    .fixed (look 0) (draft.customDeclarations.map indented),
    .fixed (look 0) ["", "  PROC main()", "    ConfJ \\Off;", "    ConfL \\Off;", ""],
    .of (look 4) Statement.text draft.body,
    .fixed (look 0) ["  ENDPROC", "", "ENDMODULE"] ]

/-- The parts of a KRL program: the declarations, then the code. -/
def Krl.parts (time name : String) (options : ProgramOptions) (draft : Draft) : List Part :=
  let look : Look := ⟨comment, dialect, options.comments, 2⟩
  let declarations := Part.of look Declaration.text draft.declarations
  [ .fixed look ["&ACCESS RVP", "&REL 1"],
    .fixed look (Program.header time comment name dialect),
    .fixed look ["", "DEF " ++ name ++ "()"],
    declarations,
    .fixed look (if declarations.lines.isEmpty then [] else [""]),
    .fixed look ["  BAS(#INITMOV, 0)"],
    .of look Statement.text draft.body,
    .fixed look ["END"] ]

/-- The parts of a URScript program: the declarations, then the code. -/
def UrScript.parts (time name : String) (options : ProgramOptions) (draft : Draft) : List Part :=
  let look : Look := ⟨comment, dialect, options.comments, 2⟩
  let declarations := Part.of look Declaration.text draft.declarations
  [ .fixed look (Program.header time comment name dialect),
    .fixed look ["", "def " ++ name ++ "():"],
    declarations,
    .fixed look (if declarations.lines.isEmpty then [] else [""]),
    .of look Statement.text draft.body,
    .fixed look ["end"] ]

/-- The parts of a G-code program: the preamble, then the code. -/
def GCode.parts (time name : String) (options : ProgramOptions) (draft : Draft) : List Part :=
  let look : Look := ⟨comment, dialect, options.comments, 0⟩
  [ .fixed look (Program.header time comment name dialect),
    .fixed look
      ["", "G21 ; millimetres", "G90 ; absolute positioning", "M82 ; absolute extrusion"],
    .of look Statement.text draft.preamble,
    .fixed look [""],
    .of look Statement.text draft.body ]

/-- The parts of a list of calls. -/
def CallList.parts (time name : String) (options : ProgramOptions)
    (body : List (Program.Entry Call)) : List Part :=
  let look : Look := ⟨comment, dialect, options.comments, 0⟩
  [ .fixed look (Program.header time comment name dialect),
    .fixed look [""],
    .of look Call.render body ]

namespace Dialect

/-- The parts of the program that carries out what waits in front of a cursor. -/
def parts (dialect : Dialect) (d : Decimals) (time name : String) (options : ProgramOptions)
    (cursor : Cursor Float) : List Part :=
  let name := Program.safeName name
  let visits := cursor.visits options.blockOnly
  match dialect with
  | .rapid => Rapid.parts time name options (Rapid.draft d options.inlineTargets visits)
  | .krl =>
    Krl.parts time name options
      (Krl.draft d options.inlineTargets cursor.device.state.settings visits)
  | .urscript => UrScript.parts time name options (UrScript.draft d options.inlineTargets visits)
  | .gcode => GCode.parts time name options (GCode.draft d cursor.device.state.extruded visits)
  | .calls => CallList.parts time name options (CallList.body visits)

/-- Declarations are followed by an empty line, unless there are none. -/
theorem declarations_append (declarations : List String) :
    (if declarations.isEmpty then [] else declarations ++ [""]) =
      declarations ++ (if declarations.isEmpty then [] else [""]) := by
  cases declarations <;> rfl

/-- **A program consists of its parts.** -/
theorem lines_program (dialect : Dialect) (d : Decimals) (time name : String)
    (options : ProgramOptions) (cursor : Cursor Float) :
    (dialect.program d time name options cursor).lines =
      (dialect.parts d time name options cursor).flatMap Part.lines := by
  cases dialect with
  | rapid => simp [program, Rapid.program, parts, Rapid.parts]
  | krl =>
    simp only [program, Krl.program, declarations_append]
    simp [parts, Krl.parts]
  | urscript =>
    simp only [program, UrScript.program, declarations_append]
    simp [parts, UrScript.parts]
  | gcode => simp [program, GCode.program, parts, GCode.parts]
  | calls => simp [program, CallList.program, parts, CallList.parts]

end Dialect

end RobotMotion
