/-!
# JSON values

A JSON document as a tree. The fields of an object keep their order and their
repetitions, because a repeated field is an error only where the field is known.

The leaf `unreadable` stands for a document part that follows the grammar but
has no value: a number beyond the range of doubles, a text with half of a
surrogate pair. Such a part may be skipped and is never read.
-/

namespace RobotMotion

/-- A JSON value. -/
inductive Json where
  | null
  | bool (value : Bool)
  /-- a whole number of at most 64 bits, written without point and exponent -/
  | integer (value : Int)
  /-- any other number -/
  | real (value : Float)
  | text (value : String)
  | array (items : List Json)
  | object (fields : List (String × Json))
  /-- a part of a document without a value -/
  | unreadable

namespace Json

mutual

/-- How deeply arrays and objects are nested in a value. -/
def depth : Json → Nat
  | .array items => depthItems items + 1
  | .object fields => depthFields fields + 1
  | _ => 0

/-- How deeply arrays and objects are nested in the items of an array. -/
def depthItems : List Json → Nat
  | [] => 0
  | j :: rest => max j.depth (depthItems rest)

/-- How deeply arrays and objects are nested in the fields of an object. -/
def depthFields : List (String × Json) → Nat
  | [] => 0
  | (_, j) :: rest => max j.depth (depthFields rest)

end

mutual

/-- Whether every part of a value can be read. -/
def readable : Json → Bool
  | .unreadable => false
  | .array items => readableItems items
  | .object fields => readableFields fields
  | _ => true

/-- Whether every item of an array can be read. -/
def readableItems : List Json → Bool
  | [] => true
  | j :: rest => j.readable && readableItems rest

/-- Whether every field of an object can be read. -/
def readableFields : List (String × Json) → Bool
  | [] => true
  | (_, j) :: rest => j.readable && readableFields rest

end

/-- The first field of a name. -/
def field? (j : Json) (name : String) : Option Json :=
  match j with
  | .object fields => fields.lookup name
  | _ => none

/-- A text, or null when there is none. -/
def ofText? : Option String → Json
  | some s => .text s
  | none => .null

/-- A natural number. -/
def natural (n : Nat) : Json := .integer n

end Json

end RobotMotion
