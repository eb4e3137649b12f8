/-!
# The two kinds of equation

Inline equations flow with the text around them, display equations stand on their own. The kind
fixes the brackets of a marker's payload, the name used in identifiers and the element that carries
the equation.
-/

namespace MarkedMath

/-- How an equation is set. -/
inductive Kind where
  /-- Flows with the surrounding text. -/
  | inline
  /-- Stands as a centred block. -/
  | display
  deriving DecidableEq, Repr, Inhabited

namespace Kind

/-- The name used in identifiers and attributes. -/
def name : Kind → String
  | inline => "inline"
  | display => "display"

/-- The bracket that opens a payload. -/
def opening : Kind → Char
  | inline => '('
  | display => '['

/-- The bracket that closes a payload. -/
def closing : Kind → Char
  | inline => ')'
  | display => ']'

/-- The element that carries an equation. -/
def tag : Kind → String
  | inline => "span"
  | display => "div"

end Kind

end MarkedMath
