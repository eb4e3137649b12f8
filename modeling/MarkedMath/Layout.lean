import MarkedMath.Segment

/-!
# Equations as elements

Every equation becomes one element: a `span` for inline equations and a `div` for display equations,
with the configured class, the kind and the identifier as attributes and the payload as content.
-/

namespace MarkedMath

/-- The classes of equation elements. -/
structure Layout where
  /-- The class of inline equations. -/
  inlineClass : String
  /-- The class of display equations. -/
  displayClass : String
  deriving DecidableEq, Repr

/-- The layout that settings ask for. -/
def Settings.layout (s : Settings) : Layout :=
  ⟨s.inlineClass, s.displayClass⟩

namespace Layout

/-- The class of equations of a kind. -/
def className (l : Layout) : Kind → String
  | .inline => l.inlineClass
  | .display => l.displayClass

/-- The attributes of an equation's element, in the order in which they are written. -/
def attributes (l : Layout) (e : Equation) : List (String × String) :=
  [("class", l.className e.kind), ("data-equation-kind", e.kind.name), ("data-equation-id", e.id)]

/-- An attribute as it is written, with the blank before it. -/
def writtenAttribute (a : String × String) : Text :=
  (" " ++ a.1 ++ "=\"" ++ a.2 ++ "\"").toList

/-- The element of an equation as markup. The payload is written as it is: it came out of markup. -/
def toHtml (l : Layout) (e : Equation) : Text :=
  ("<" ++ e.kind.tag).toList ++ (l.attributes e).flatMap writtenAttribute ++ ['>'] ++ e.content ++
    ("</" ++ e.kind.tag ++ ">").toList

/-- A segment as markup. -/
def renderSegment (l : Layout) : Segment → Text
  | .text t => t
  | .equation e => l.toHtml e

/-- Segments as markup, one after the other. -/
def render (l : Layout) (segments : List Segment) : Text :=
  segments.flatMap l.renderSegment

end Layout

/-- A text with its markers turned into elements, numbered on from `counts`, and the counts reached
after it. A text without a marker stays as it is. -/
def Grammar.convert (g : Grammar) (layout : Layout) (counts : Counts) (s : Text) : Text × Counts :=
  match g.segment? counts s with
  | some (segments, counts) => (layout.render segments, counts)
  | none => (s, counts)

/-- One pass over a text of its own. -/
def Grammar.transform (g : Grammar) (layout : Layout) (s : Text) : Text × Counts :=
  g.convert layout {} s

/-- Passes over a text, each fed with the outcome of the one before. -/
def Grammar.passes (g : Grammar) (layout : Layout) : Nat → Text → List (Text × Counts)
  | 0, _ => []
  | n + 1, s =>
    let outcome := g.transform layout s
    outcome :: g.passes layout n outcome.1

end MarkedMath
