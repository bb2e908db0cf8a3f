import RobotMotion.Action.Description
import RobotMotion.Action.Instruction
import RobotMotion.Program.Basic

/-!
# Sections of a program

A section is a run of entries: the code of an action, a diagnostic in place of
code, or a line that belongs to no action. The statements in an entry are of the
dialect; a `Look` says how a section becomes lines. Only the first line of the
code of an action is annotated, and diagnostics never are.
-/

namespace RobotMotion.Program

/-- Why an action has no code. -/
inductive Diagnostic where
  /-- the action was rejected -/
  | failed
  /-- the dialect has nothing for the command -/
  | unsupported
  /-- the command cannot be written as it stands -/
  | error (message : String)
deriving DecidableEq, Repr

/-- A part of a section. -/
inductive Entry (σ : Type) where
  /-- the code of an action -/
  | code (action : Action Float) (statements : List σ)
  /-- what is said in place of code -/
  | diagnostic (action : Action Float) (what : Diagnostic)
  /-- a statement that belongs to no action -/
  | plain (statement : σ)
  /-- an empty line -/
  | blank

/-- How the entries of a section become lines. -/
structure Look where
  comment : String
  dialect : String
  mode : CommentMode
  indent : Nat

namespace Look

/-- A text at the indentation of the section. -/
def indented (look : Look) (s : String) : String :=
  String.ofList (List.replicate look.indent ' ') ++ s

/-- What is written behind the first line of an action. -/
def annotation (look : Look) (action : Action Float) : String :=
  match look.mode with
  | .none => ""
  | .actionString => "  " ++ look.comment ++ " " ++ action.command.description
  | .actionId => "  " ++ look.comment ++ " [" ++ Decimal.natural action.id ++ "]"

/-- The lines of the code of an action. -/
def codeLines (look : Look) (action : Action Float) : List String → List String
  | [] => []
  | first :: rest =>
    look.indented (first ++ look.annotation action) :: rest.map look.indented

/-- The line of a diagnostic. -/
def diagnosticLine (look : Look) (action : Action Float) (what : Diagnostic) : String :=
  let call := action.command.instruction
  look.indented <| look.comment ++
    match what with
    | .failed => " ERROR: could not apply " ++ call
    | .unsupported => " unsupported by " ++ look.dialect ++ ": " ++ call
    | .error message => " ERROR: " ++ message ++ " (" ++ call ++ ")"

/-- The lines of an entry. -/
def entryLines {σ : Type} (look : Look) (render : σ → String) : Entry σ → List String
  | .code action statements => look.codeLines action (statements.map render)
  | .diagnostic action what => [look.diagnosticLine action what]
  | .plain statement => [look.indented (render statement)]
  | .blank => [""]

/-- The lines of a section. -/
def lines {σ : Type} (look : Look) (render : σ → String) (entries : List (Entry σ)) :
    List String :=
  entries.flatMap (look.entryLines render)

end Look

end RobotMotion.Program
