import MarkedMath.Json.Value

/-!
# Writing JSON

A value is written without blanks. In strings only quotation marks, backslashes and control characters
are escaped. What was not read whole is written as far as it was read.
-/

namespace MarkedMath.Json

/-- Doubles in JSON texts, as scripts write them: with an exponent from `10 ^ 21` on and below
`10 ^ -6`. -/
def numberFormat : FloatFormat where
  widest := 21
  deepest := 5
  pointZero := false
  plus := "+"
  negativeZero := "0"

/-- A double as it is written. -/
def writeDouble (x : Float) : Text :=
  (numberFormat.write x).toList

/-- A truth value as it is written. -/
def writeBool (b : Bool) : Text :=
  (if b then "true" else "false").toList

/-- A hexadecimal digit. -/
def hexDigit (n : Nat) : Char :=
  if n < 10 then Char.ofNat (48 + n) else Char.ofNat (87 + n)

/-- A character as it is written inside a string. -/
def writeChar (c : Char) : Text :=
  match c with
  | '\x22' => ['\\', '\x22']
  | '\\' => ['\\', '\\']
  | '\x08' => ['\\', 'b']
  | '\t' => ['\\', 't']
  | '\n' => ['\\', 'n']
  | '\x0c' => ['\\', 'f']
  | '\r' => ['\\', 'r']
  | c => if c < ' ' then "\\u00".toList ++ [hexDigit (c.toNat / 16), hexDigit (c.toNat % 16)] else [c]

/-- A string as it is written. -/
def writeString (s : Text) : Text :=
  ['\x22'] ++ s.flatMap writeChar ++ ['\x22']

/-- Items between brackets. -/
def writeItems (items : List Text) : Text :=
  ['['] ++ [','].intercalate items ++ [']']

/-- Members between braces, with their names. -/
def writeMembers (members : List (Text × Text)) : Text :=
  ['\x7b'] ++ [','].intercalate (members.map fun (name, v) => writeString name ++ [':'] ++ v) ++
    ['\x7d']

namespace Value

mutual

/-- The value as a text. -/
def write : Value → Text
  | null | junk _ | number (.error _) | string (.error _) => "null".toList
  | bool b => writeBool b
  | number (.ok (.integer n)) => (toString n).toList
  | number (.ok (.real x)) => writeDouble x
  | string (.ok s) => writeString s
  | array items _ => writeItems (writeAll items)
  | object members _ => writeMembers (writeNamed members)

/-- The items of an array as texts. -/
def writeAll : List Value → List Text
  | [] => []
  | v :: rest => v.write :: writeAll rest

/-- The members of an object as texts. -/
def writeNamed : List (Except Fault Text × Value) → List (Text × Text)
  | [] => []
  | (.ok name, v) :: rest => (name, v.write) :: writeNamed rest
  | (.error _, _) :: rest => writeNamed rest

end

/-! ## Making values -/

/-- A text. -/
def ofString (s : String) : Value :=
  string (.ok s.toList)

/-- A natural number. -/
def ofNat (n : Nat) : Value :=
  number (.ok (.integer n))

/-- A list. -/
def ofList (items : List Value) : Value :=
  array items none

/-- A record. -/
def ofMembers (members : List (String × Value)) : Value :=
  object (members.map fun (name, v) => (.ok name.toList, v)) none

end Value

end MarkedMath.Json
