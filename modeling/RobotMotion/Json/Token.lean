import RobotMotion.Json.Basic

/-!
# JSON tokens

The words of a JSON text: brackets, separators, texts, and the other values
without structure. `Token.scan` cuts a text into tokens and fails where no token
begins. Blanks between tokens are spaces, tabs and line ends.
-/

namespace RobotMotion.Json

/-- A word of a JSON text. -/
inductive Token where
  | openArray
  | closeArray
  | openObject
  | closeObject
  | comma
  | colon
  /-- a text, without content when half of a surrogate pair stands alone in it -/
  | text (content : Option String)
  /-- a number, a truth value or null -/
  | scalar (value : Json)

namespace Token

/-- Whether a character may stand between tokens. -/
def isBlank (c : Char) : Bool := c = ' ' || c = '\t' || c = '\n' || c = '\r'

/-! ### Numbers -/

/-- The characters up to the first that is no digit, and the rest. -/
def spanDigits (s : List Char) : List Char × List Char :=
  (s.takeWhile Char.isDigit, s.dropWhile Char.isDigit)

/-- The number that decimal digits stand for. -/
def digitsValue (digits : List Char) : Nat :=
  digits.foldl (fun n c => 10 * n + (c.toNat - '0'.toNat)) 0

/-- A number as it is written: `± digits · 10 ^ exponent`. -/
structure Numeral where
  negative : Bool
  digits : Nat
  exponent : Int
  /-- whether there is neither a point nor an exponent -/
  isWhole : Bool

/-- The double nearest to a numeral, unless it is beyond the range of doubles.
Numbers too far out for either end of that range are not computed. -/
def Numeral.real? (n : Numeral) : Option Float :=
  let signed (x : Float) : Float := if n.negative then -x else x
  let top := n.exponent + (Nat.toDigits 10 n.digits).length
  if n.digits = 0 ∨ top < -330 then some (signed 0.0)
  else if 310 < top then none
  else
    let x := Float.ofScientific n.digits (n.exponent < 0) n.exponent.natAbs
    if x.isFinite then some (signed x) else none

/-- The value of a numeral. A whole number of at most 64 bits stays whole;
minus zero does not, since its sign would be lost. -/
def Numeral.value (n : Numeral) : Json :=
  if n.isWhole ∧ !n.negative ∧ n.digits < Nat.pow 2 64 then .integer n.digits
  else if n.isWhole ∧ n.negative ∧ 0 < n.digits ∧ n.digits ≤ Nat.pow 2 63 then .integer (-n.digits)
  else match n.real? with
    | some x => .real x
    | none => .unreadable

/-- The digits after a decimal point, if there is one. -/
def scanFraction : List Char → Option (List Char × List Char)
  | '.' :: rest =>
    let (digits, rest) := spanDigits rest
    if digits.isEmpty then none else some (digits, rest)
  | rest => some ([], rest)

/-- The exponent, if there is one. -/
def scanExponent (s : List Char) : Option (Option Int × List Char) :=
  let unsigned (rest : List Char) : Option (Nat × List Char) :=
    let (digits, rest) := spanDigits rest
    if digits.isEmpty then none else some (digitsValue digits, rest)
  match s with
  | c :: rest =>
    if c = 'e' ∨ c = 'E' then
      match rest with
      | '-' :: rest => (unsigned rest).map fun (n, rest) => (some (-(n : Int)), rest)
      | '+' :: rest => (unsigned rest).map fun (n, rest) => (some (n : Int), rest)
      | rest => (unsigned rest).map fun (n, rest) => (some (n : Int), rest)
    else some (none, s)
  | [] => some (none, s)

/-- The digits before a decimal point: a single zero, or digits that do not
begin with zero. -/
def scanWhole : List Char → Option (List Char × List Char)
  | '0' :: rest => some (['0'], rest)
  | s =>
    let (digits, rest) := spanDigits s
    if digits.isEmpty then none else some (digits, rest)

/-- A number at the front of a text whose sign has been read. -/
def scanUnsigned (negative : Bool) (s : List Char) : Option (Json × List Char) := do
  let (whole, s) ← scanWhole s
  let (fraction, s) ← scanFraction s
  let (exponent, s) ← scanExponent s
  let numeral : Numeral :=
    { negative
      digits := digitsValue (whole ++ fraction)
      exponent := exponent.getD 0 - fraction.length
      isWhole := fraction.isEmpty && exponent.isNone }
  return (numeral.value, s)

/-! ### Texts -/

/-- The value of a hexadecimal digit. -/
def hexDigit? (c : Char) : Option Nat :=
  if '0' ≤ c ∧ c ≤ '9' then some (c.toNat - '0'.toNat)
  else if 'a' ≤ c ∧ c ≤ 'f' then some (c.toNat - 'a'.toNat + 10)
  else if 'A' ≤ c ∧ c ≤ 'F' then some (c.toNat - 'A'.toNat + 10)
  else none

/-- The number that four hexadecimal digits stand for. -/
def hexUnit? (a b c d : Char) : Option Nat := do
  return ((← hexDigit? a) * 16 + (← hexDigit? b)) * 256 + (← hexDigit? c) * 16 + (← hexDigit? d)

/-- The character that a one-letter escape stands for. -/
def shortEscape? (c : Char) : Option Char :=
  match c with
  | '"' => some '"'
  | '\\' => some '\\'
  | '/' => some '/'
  | 'b' => some '\x08'
  | 'f' => some '\x0c'
  | 'n' => some '\n'
  | 'r' => some '\r'
  | 't' => some '\t'
  | _ => none

/-- The code units of a text up to its closing quote, and what follows it. Each
plain character counts as one unit, whatever its size. -/
def scanUnits : List Char → Option (List Nat × List Char)
  | [] => none
  | '"' :: rest => some ([], rest)
  | '\\' :: 'u' :: a :: b :: c :: d :: rest =>
    match hexUnit? a b c d with
    | none => none
    | some unit => (scanUnits rest).map fun (units, rest) => (unit :: units, rest)
  | '\\' :: c :: rest =>
    match shortEscape? c with
    | none => none
    | some e => (scanUnits rest).map fun (units, rest) => (e.toNat :: units, rest)
  | c :: rest =>
    if c.toNat < 0x20 ∨ c = '\\' then none
    else (scanUnits rest).map fun (units, rest) => (c.toNat :: units, rest)

/-- The characters that code units stand for. Absent when half of a surrogate
pair stands alone. -/
def assemble : List Nat → Option (List Char)
  | [] => some []
  | [u] => if 0xD800 ≤ u ∧ u < 0xE000 then none else some [Char.ofNat u]
  | u :: v :: rest =>
    if 0xD800 ≤ u ∧ u < 0xDC00 then
      if 0xDC00 ≤ v ∧ v < 0xE000 then
        (assemble rest).map (Char.ofNat (0x10000 + (u - 0xD800) * 0x400 + (v - 0xDC00)) :: ·)
      else none
    else if 0xDC00 ≤ u ∧ u < 0xE000 then none
    else (assemble (v :: rest)).map (Char.ofNat u :: ·)

/-- The content of a text at the front of what follows an opening quote. -/
def scanText (s : List Char) : Option (Option String × List Char) :=
  (scanUnits s).map fun (units, rest) => ((assemble units).map String.ofList, rest)

/-! ### All tokens -/

/-- The key that a token gives in front of a field. Only a text is a key. -/
def key? : Token → Option (Option String)
  | .text content => some content
  | _ => none

/-- The value that a token is by itself. -/
def value? : Token → Option Json
  | .scalar value => some value
  | .text (some content) => some (.text content)
  | .text none => some .unreadable
  | _ => none

/-- The token at the front of a text, and what follows it. -/
def next? : List Char → Option (Token × List Char)
  | '[' :: rest => some (.openArray, rest)
  | ']' :: rest => some (.closeArray, rest)
  | '\x7b' :: rest => some (.openObject, rest)
  | '\x7d' :: rest => some (.closeObject, rest)
  | ',' :: rest => some (.comma, rest)
  | ':' :: rest => some (.colon, rest)
  | 'n' :: 'u' :: 'l' :: 'l' :: rest => some (.scalar .null, rest)
  | 't' :: 'r' :: 'u' :: 'e' :: rest => some (.scalar (.bool true), rest)
  | 'f' :: 'a' :: 'l' :: 's' :: 'e' :: rest => some (.scalar (.bool false), rest)
  | '"' :: rest => (scanText rest).map fun (content, rest) => (.text content, rest)
  | '-' :: rest => (scanUnsigned true rest).map fun (j, rest) => (.scalar j, rest)
  | s => (scanUnsigned false s).map fun (j, rest) => (.scalar j, rest)

/-- The tokens of a text, with a bound on their number. -/
def scanUpTo : Nat → List Char → Option (List Token)
  | 0, s => if s.all isBlank then some [] else none
  | n + 1, s =>
    match s.dropWhile isBlank with
    | [] => some []
    | s => do
      let (token, rest) ← next? s
      return token :: (← scanUpTo n rest)

/-- The tokens of a text. A token takes at least one character. -/
def scan (s : String) : Option (List Token) :=
  let characters := s.toList
  scanUpTo characters.length characters

end Token

end RobotMotion.Json
