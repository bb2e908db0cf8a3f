import RobotMotion.Json.Basic
import RobotMotion.Geometry.Axes

/-!
# Records in JSON

Reading a value of a known shape out of a JSON value. A record is an object
whose unknown fields are skipped and whose known fields occur at most once; it
may also be written as the array of its fields in order. Nothing is converted:
a number is not read from a text, and a whole number not from `1.0`.
-/

namespace RobotMotion.Json

/-! ### Plain values -/

/-- A number. -/
def real? : Json → Option Float
  | .integer n => some (Float.ofInt n)
  | .real x => some x
  | _ => none

/-- A whole number of 64 bits without sign. -/
def natural? : Json → Option Nat
  | .integer n => if 0 ≤ n ∧ n < Nat.pow 2 64 then some n.toNat else none
  | _ => none

/-- A truth value. -/
def flag? : Json → Option Bool
  | .bool b => some b
  | _ => none

/-- A text. -/
def string? : Json → Option String
  | .text s => some s
  | _ => none

/-- A value, or null for its absence. -/
def nullable? {β : Type} (f : Json → Option β) : Json → Option (Option β)
  | .null => some none
  | j => (f j).map some

/-- An array of any length. -/
def list? {β : Type} (f : Json → Option β) : Json → Option (List β)
  | .array items => items.mapM f
  | _ => none

/-- An array of exactly `n` values. -/
def exactly? {β : Type} (n : Nat) (f : Json → Option β) (j : Json) : Option (Vector β n) := do
  let values ← list? f j
  if h : values.length = n then some ⟨values.toArray, by simp [h]⟩ else none

/-- The word of an enumeration: a text, or an object that gives the word an
empty value. A `lenient` reader also takes an empty object for the empty
value. -/
def word? (lenient : Bool) : Json → Option String
  | .text s => some s
  | .object [(s, .null)] => some s
  | .object [(s, .object [])] => if lenient then some s else none
  | _ => none

/-! ### Records -/

/-- The known fields of an object. -/
def known? (names : List String) : Json → Option (List (String × Json))
  | .object fields =>
    let present := fields.filter (names.contains ·.1)
    if present.Pairwise (·.1 ≠ ·.1) then some present else none
  | _ => none

/-- The fields of a record. -/
def record? (names : List String) : Json → Option (List (String × Json))
  | .array items => if items.length ≤ names.length then some (names.zip items) else none
  | j => known? names j

/-- A field that has to be present. -/
def required {β : Type} (fields : List (String × Json)) (name : String)
    (f : Json → Option β) : Option β :=
  (fields.lookup name).bind f

/-- A field that may be missing. -/
def defaulted {β : Type} (fields : List (String × Json)) (name : String) (default : β)
    (f : Json → Option β) : Option β :=
  match fields.lookup name with
  | none => some default
  | some j => f j

/-! ### Geometry -/

/-- The array of numbers. -/
def ofReals (values : List Float) : Json := .array (values.map .real)

/-- The array of numbers of which some are missing. -/
def ofReals? (values : List (Option Float)) : Json :=
  .array (values.map fun x => x.elim .null .real)

/-- An array of three numbers. -/
def vector3? (j : Json) : Option (Vector3 Float) :=
  (exactly? 3 real? j).map fun v => ⟨v[0], v[1], v[2]⟩

/-- An array of four numbers, the scalar part last. -/
def rotation? (j : Json) : Option (Rotation Float) :=
  (exactly? 4 real? j).map fun v => ⟨v[0], v[1], v[2], v[3]⟩

/-- An array of six numbers. -/
def joints? (j : Json) : Option (Joints Float) := (exactly? 6 real? j).map .mk

/-- An array of six numbers, null where unset. -/
def externalAxes? (j : Json) : Option (ExternalAxes Float) :=
  (exactly? 6 (nullable? real?) j).map .mk

/-- A value that may be absent, as null. -/
def ofOption {β : Type} (f : β → Json) (value : Option β) : Json := value.elim .null f

end RobotMotion.Json
