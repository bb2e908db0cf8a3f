import RobotMotion.Json.Token

/-!
# Reading JSON

The grammar of JSON over tokens, as a machine with a stack: an open array or
object waits on the stack while its parts are read. Nothing bounds the depth of
nesting. A document is one value and nothing else.
-/

namespace RobotMotion.Json

/-- An array or object that is still open, with what was read of it, newest
first. The key of a field is absent when it has no value. -/
inductive Frame where
  | array (items : List Json)
  | object (fields : List (Option String × Json)) (key : Option String)

/-- What may come next. -/
inductive Reading where
  /-- a value -/
  | expectValue (stack : List Frame)
  /-- the first item of an array, or its end -/
  | firstItem (stack : List Frame)
  /-- the first key of an object, or its end -/
  | firstKey (stack : List Frame)
  /-- a further key of an object -/
  | expectKey (fields : List (Option String × Json)) (stack : List Frame)
  /-- the colon after a key -/
  | expectColon (fields : List (Option String × Json)) (key : Option String) (stack : List Frame)
  /-- a comma in an array, or its end -/
  | afterItem (items : List Json) (stack : List Frame)
  /-- a comma in an object, or its end -/
  | afterField (fields : List (Option String × Json)) (stack : List Frame)
  /-- nothing -/
  | finished (value : Json)

namespace Reading

/-- What comes after a value that is complete. -/
def deliver (value : Json) : List Frame → Reading
  | [] => .finished value
  | .array items :: stack => .afterItem (value :: items) stack
  | .object fields key :: stack => .afterField ((key, value) :: fields) stack

/-- The object of the fields read, newest first. An object with a key without a
value has none itself. -/
def close (fields : List (Option String × Json)) : Json :=
  match fields.reverse.mapM fun (key, value) => key.map (·, value) with
  | some fields => .object fields
  | none => .unreadable

/-- What comes after a token where a value is expected. -/
def stepValue (stack : List Frame) : Token → Option Reading
  | .openArray => some (.firstItem stack)
  | .openObject => some (.firstKey stack)
  | token => token.value?.map (deliver · stack)

/-- What comes after a token. -/
def step (r : Reading) (token : Token) : Option Reading :=
  match r with
  | .expectValue stack => stepValue stack token
  | .firstItem stack =>
    match token with
    | .closeArray => some (deliver (.array []) stack)
    | _ => stepValue (.array [] :: stack) token
  | .firstKey stack =>
    match token with
    | .closeObject => some (deliver (.object []) stack)
    | _ => token.key?.map (.expectColon [] · stack)
  | .expectKey fields stack => token.key?.map (.expectColon fields · stack)
  | .expectColon fields key stack =>
    match token with
    | .colon => some (.expectValue (.object fields key :: stack))
    | _ => none
  | .afterItem items stack =>
    match token with
    | .comma => some (.expectValue (.array items :: stack))
    | .closeArray => some (deliver (.array items.reverse) stack)
    | _ => none
  | .afterField fields stack =>
    match token with
    | .comma => some (.expectKey fields stack)
    | .closeObject => some (deliver (close fields) stack)
    | _ => none
  | .finished _ => none

/-- The value that the tokens make, if they make exactly one. -/
def run : Reading → List Token → Option Json
  | .finished value, [] => some value
  | _, [] => none
  | r, token :: rest =>
    match r.step token with
    | none => none
    | some r => run r rest

end Reading

/-- The value of a JSON text. -/
def parse (s : String) : Option Json := do
  Reading.run (.expectValue []) (← Token.scan s)

end RobotMotion.Json
