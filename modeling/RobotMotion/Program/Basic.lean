import RobotMotion.Decimal.Layout
import RobotMotion.Text.Blank

/-!
# Programs

A program is what a controller is given as a file: a name, the name of its
dialect, and lines. Every program opens with a bordered header.
-/

namespace RobotMotion

/-- What is written behind the code of an action. -/
inductive CommentMode where
  /-- nothing -/
  | none
  /-- the action in words -/
  | actionString
  /-- the identifier of the action -/
  | actionId
deriving DecidableEq, Repr

/-- The choices that are open for every dialect. -/
structure ProgramOptions where
  /-- whether only the block is written instead of everything that waits -/
  blockOnly : Bool
  /-- whether targets are written where they are used instead of being declared -/
  inlineTargets : Bool
  comments : CommentMode
deriving DecidableEq, Repr

/-- Everything that waits, with targets in place and without comments. -/
def ProgramOptions.standard : ProgramOptions := ⟨false, true, .none⟩

/-- The number of decimal places for each kind of unit. -/
structure Decimals where
  mm : Nat
  degrees : Nat
  radians : Nat
  kg : Nat
  volts : Nat
  celsius : Nat
  /-- for the parts of quaternions, ratios and extruded lengths -/
  unitless : Nat
deriving DecidableEq, Repr

/-- The usual decimal places. -/
def Decimals.standard : Decimals := ⟨3, 3, 6, 3, 3, 0, 6⟩

/-- A program for a controller. -/
structure Program where
  name : String
  dialect : String
  lines : List String
deriving DecidableEq, Repr

namespace Program

/-- The contents of the program file: every line ends with a line break. -/
def text (p : Program) : String := String.intercalate "\n" p.lines ++ "\n"

/-- Whether a character may stand in an identifier of every dialect. -/
def isNameChar (c : Char) : Bool := c.isAlphanum || c = '_'

/-- A name that every dialect takes: blanks at the ends are dropped, other
characters are replaced, and the name does not begin with a digit. -/
def safeName (name : String) : String :=
  let cleaned := (Text.trimmed name.toList).map fun c => if isNameChar c then c else '_'
  match cleaned with
  | [] => "Program"
  | c :: _ => if c.isDigit then "P_" ++ String.ofList cleaned else String.ofList cleaned

/-- The number of characters between the borders of the header. -/
def headerWidth : Nat := 72

/-- A text filled up with blanks to a number of characters. A longer text is
kept. -/
def padded (width : Nat) (s : String) : String :=
  s ++ String.ofList (List.replicate (width - s.length) ' ')

/-- The header of a program: who it is for, when it was made, and a warning,
in a border of comment marks. The time is given as year, month, day, hour,
minute and second. -/
def header (time comment name dialect : String) : List String :=
  let border := comment ++ comment
  let rule := String.ofList (List.replicate headerWidth '-')
  let rows :=
    [ rule,
      "Program \"" ++ name ++ "\" (" ++ dialect ++ ")",
      "Generated by rmachina 0.1.0 on " ++ time ++ " UTC",
      "Review this program before running it on a real device.",
      rule ]
  rows.map fun row => border ++ " " ++ padded headerWidth row ++ " " ++ border

end Program

end RobotMotion
