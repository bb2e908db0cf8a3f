import RobotMotion.Decimal.Layout
import RobotMotion.Json.Basic

/-!
# Writing JSON

A value as text: either on one line without blanks, or with every item and
field on a line of its own, indented by two spaces a level. Characters beyond
ASCII are written as they are; control characters are escaped.
-/

namespace RobotMotion.Json

/-- The digit of a number below sixteen. -/
def hexDigit (n : Nat) : Char := Nat.digitChar n

/-- A character inside a JSON text. -/
def escapeChar (c : Char) : List Char :=
  match c with
  | '"' => ['\\', '"']
  | '\\' => ['\\', '\\']
  | '\x08' => ['\\', 'b']
  | '\x0c' => ['\\', 'f']
  | '\n' => ['\\', 'n']
  | '\r' => ['\\', 'r']
  | '\t' => ['\\', 't']
  | c =>
    if c.toNat < 0x20 then
      ['\\', 'u', '0', '0', hexDigit (c.toNat / 16), hexDigit (c.toNat % 16)]
    else [c]

/-- A text in JSON quotes. -/
def quote (s : String) : String :=
  "\"" ++ String.ofList (s.toList.flatMap escapeChar) ++ "\""

/-- A double as a JSON number, or null where it is not finite. -/
def renderReal (x : Float) : String := if x.isFinite then Decimal.saved x else "null"

/-- How values are spread over lines: whether each part has its own line, and at
which level. -/
structure Spread where
  indented : Bool
  level : Nat

namespace Spread

/-- Everything on one line. -/
def compact : Spread := ⟨false, 0⟩

/-- Every part on a line of its own. -/
def pretty : Spread := ⟨true, 0⟩

/-- One level further in. -/
def deeper (s : Spread) : Spread := { s with level := s.level + 1 }

/-- The break before a part at this level. -/
def lineBreak (s : Spread) : String :=
  if s.indented then "\n" ++ String.ofList (List.replicate (2 * s.level) ' ') else ""

/-- What stands between a key and its value. -/
def separator (s : Spread) : String := if s.indented then ": " else ":"

/-- Parts between brackets. -/
def enclose (s : Spread) (left right : String) (parts : List String) : String :=
  if parts.isEmpty then left ++ right
  else
    left ++ s.deeper.lineBreak ++ String.intercalate ("," ++ s.deeper.lineBreak) parts
      ++ s.lineBreak ++ right

end Spread

mutual

/-- The text of a value. -/
def render (s : Spread) : Json → String
  | .null => "null"
  | .bool b => if b then "true" else "false"
  | .integer n => Decimal.integer n
  | .real x => renderReal x
  | .text t => quote t
  | .array items => s.enclose "[" "]" (renderItems s.deeper items)
  | .object fields => s.enclose "\x7b" "\x7d" (renderFields s.deeper fields)
  | .unreadable => "null"

/-- The texts of the items of an array. -/
def renderItems (s : Spread) : List Json → List String
  | [] => []
  | j :: rest => j.render s :: renderItems s rest

/-- The texts of the fields of an object. -/
def renderFields (s : Spread) : List (String × Json) → List String
  | [] => []
  | (key, j) :: rest => (quote key ++ s.separator ++ j.render s) :: renderFields s rest

end

/-- The text on one line. -/
def compact (j : Json) : String := j.render .compact

/-- The text of a saved file. -/
def pretty (j : Json) : String := j.render .pretty

end RobotMotion.Json
