import MarkedMath.Grammar

/-!
# Cutting texts into segments

A text is cut at its markers: inline markers first, then display markers in the text left between
them. Cutting yields unnumbered pieces (`Grammar.pieces`); numbering them from the counts reached so
far gives segments (`Grammar.segment?`). The counts are all that one text hands on to the next, so
texts taken one after the other are numbered in one run.
-/

namespace MarkedMath

/-- How many equations of each kind have been numbered. -/
structure Counts where
  /-- Inline equations. -/
  inline : Nat := 0
  /-- Display equations. -/
  display : Nat := 0
  deriving DecidableEq, Repr, Inhabited

namespace Counts

/-- Equations of both kinds. -/
def total (c : Counts) : Nat :=
  c.inline + c.display

/-- Equations of one kind. -/
def get (c : Counts) : Kind → Nat
  | .inline => c.inline
  | .display => c.display

/-- One more equation of a kind. -/
def advance (c : Counts) : Kind → Counts
  | .inline => { c with inline := c.inline + 1 }
  | .display => { c with display := c.display + 1 }

end Counts

/-- An equation with its number. -/
structure Equation where
  /-- How it is set. -/
  kind : Kind
  /-- Its number among the equations of its kind, from 1. -/
  number : Nat
  /-- The payload of its marker, unchanged. -/
  content : Text
  deriving DecidableEq, Repr

/-- The identifier written into documents, such as `inline-3`. -/
def Equation.id (e : Equation) : String :=
  e.kind.name ++ "-" ++ toString e.number

/-- A part of a text before numbering. -/
inductive Piece where
  /-- Text outside any marker. -/
  | text (content : Text)
  /-- The payload of a marker. -/
  | marker (kind : Kind) (payload : Text)
  deriving DecidableEq, Repr

/-- Whether the piece is a marker. -/
def Piece.isMarker : Piece → Bool
  | text _ => false
  | marker _ _ => true

/-- A part of a text. -/
inductive Segment where
  /-- Text outside any marker, unchanged. -/
  | text (content : Text)
  /-- The equation of a marker. -/
  | equation (e : Equation)
  deriving DecidableEq, Repr

/-- A piece of text, left out when it is empty. -/
def Piece.ofText (s : Text) : List Piece :=
  if s.isEmpty then [] else [.text s]

/-- Cuts a text at the markers of one kind. -/
def Rule.pieces (r : Rule) (s : Text) : List Piece :=
  match h : r.find? s with
  | none => Piece.ofText s
  | some f =>
    have : f.after.length < s.length := Rule.length_after_lt h
    Piece.ofText f.before ++ .marker r.kind f.payload :: r.pieces f.after
termination_by s.length

namespace Grammar

/-- Cuts a text at its inline markers and the text between those at its display markers. -/
def pieces (g : Grammar) (s : Text) : List Piece :=
  ((g.rule .inline).pieces s).flatMap fun
    | .text t => (g.rule .display).pieces t
    | marker => [marker]

end Grammar

/-- Numbers the markers among pieces, going on from the counts reached so far. -/
def Segment.number (counts : Counts) : List Piece → List Segment × Counts
  | [] => ([], counts)
  | .text t :: rest =>
    let (segments, final) := number counts rest
    (.text t :: segments, final)
  | .marker kind payload :: rest =>
    let counts := counts.advance kind
    let (segments, final) := number counts rest
    (.equation ⟨kind, counts.get kind, payload⟩ :: segments, final)

/-- Takes one text in: its segments, or `none` when it holds no marker, and the counts reached after
it. -/
def Grammar.scan (g : Grammar) (counts : Counts) (s : Text) : Option (List Segment) × Counts :=
  let pieces := g.pieces s
  let (segments, after) := Segment.number counts pieces
  (if pieces.any Piece.isMarker then some segments else none, after)

/-- The segments of a text and the counts reached after it, or `none` when it holds no marker. -/
def Grammar.segment? (g : Grammar) (counts : Counts) (s : Text) : Option (List Segment × Counts) :=
  match g.scan counts s with
  | (some segments, after) => some (segments, after)
  | (none, _) => none

end MarkedMath
