import MarkedMath.Decimal.Shortest
import MarkedMath.Text

/-!
# JSON values as they are met in a text

A value is what was read of it before the text broke off or went wrong. A reader of settings looks at
values from left to right and stops at the first thing that does not fit, so what lies behind a fault
in the text matters only when nothing before it was wrong. Faults therefore stand inside values: a
leaf holds the fault met while reading it, and an array or object that was not closed holds the fault
that cut it.

A value can be read for its content or merely be skipped. Skipping asks for less: it accepts halves
of surrogate pairs and numbers of any size.
-/

namespace MarkedMath.Json

/-- Why a text is no JSON. -/
inductive Fault where
  /-- Something stands where it must not. -/
  | malformed
  /-- The text is over too early. -/
  | unfinished
  deriving DecidableEq, Repr

/-- A number in a text. -/
inductive Number where
  /-- A whole number between `-2 ^ 63` and `2 ^ 64`, written without point and exponent. -/
  | integer (n : Int)
  /-- Any other number, as a double. -/
  | real (x : Float)

/-- A value, as far as it was read. -/
inductive Value where
  /-- The word `null`. -/
  | null
  /-- One of the words `true` and `false`. -/
  | bool (b : Bool)
  /-- A number, or why its digits give none. -/
  | number (n : Except Fault Number)
  /-- A string, or why its characters give no text. -/
  | string (s : Except Fault Text)
  /-- An array, with the fault that cut it if it was not closed. -/
  | array (items : List Value) (cut : Option Fault)
  /-- An object, with the fault that cut it if it was not closed. -/
  | object (members : List (Except Fault Text × Value)) (cut : Option Fault)
  /-- Nothing that could be read as a value. -/
  | junk (fault : Fault)

instance : Inhabited Value := ⟨.null⟩

/-- Doubles in messages on values: with a point, and with an exponent from `10 ^ 16` on and below
`10 ^ -5`. -/
def messageFormat : FloatFormat where
  widest := 16
  deepest := 4
  pointZero := true
  plus := ""
  negativeZero := "-0.0"

end MarkedMath.Json
