import MarkedMath.Layout
import MarkedMath.Style
import MarkedMath.Typeset

/-!
# A pass over a document

A pass normalizes the document, puts elements in the place of the markers in its text nodes, makes
sure of the style rules and asks the typesetters to render. Numbering starts from 1 in every pass; a
text node that the document does not let go keeps its markers and uses up no numbers.
-/

namespace MarkedMath

/-- The version that host pages are told. -/
def version : String := "1.0.0"

/-- What a pass did. -/
structure PassReport where
  /-- Equations converted. -/
  counts : Counts
  /-- What became of the style rules. -/
  styles : StyleOutcome
  /-- What became of the typesetters. -/
  render : RenderReport
  deriving DecidableEq, Repr

/-- What asking for the change monitor did. -/
inductive WatchStatus where
  /-- The monitor was put in place. -/
  | armed
  /-- It was in place already. -/
  | alreadyArmed
  deriving DecidableEq, Repr

/-- The node that a segment becomes. -/
def Layout.nodeSpec (l : Layout) : Segment → NodeSpec
  | .text t => .text t
  | .equation e =>
    .element e.kind.tag ((l.attributes e).map fun (name, value) => (name, value.toList)) e.content

section Pass

variable {σ ν : Type} (host : Host σ ν)

/-- Converts the markers in text nodes, numbering on from `counts`. -/
def convertNodes (g : Grammar) (layout : Layout) (counts : Counts) : List ν → σ → Counts × σ
  | [], s => (counts, s)
  | n :: rest, s =>
    match g.segment? counts (host.textOf s n) with
    | none => convertNodes g layout counts rest s
    | some (segments, after) =>
      match host.replaceText n (segments.map layout.nodeSpec) s with
      | (.ok _, s) => convertNodes g layout after rest s
      | (.error e, s) =>
        convertNodes g layout counts rest
          (host.log ⟨.warn, "left equation markers in place: " ++ e.message⟩ s)

/-- Normalizes the document and converts the markers of all its text nodes. -/
def convertDocument (g : Grammar) (layout : Layout) (s : σ) : Counts × σ :=
  let (nodes, s) := host.textNodes (host.normalize s)
  convertNodes host g layout {} nodes s

/-- The report at the end of a pass. -/
def passSummary (counts : Counts) : Record :=
  ⟨.info, "processed " ++ toString counts.inline ++ " inline and " ++ toString counts.display ++
    " display equations (" ++ toString counts.total ++ " total)"⟩

/-- One pass. `settle` drops the insertions that the pass itself made from what the engine is told of
later, and counts the pass. -/
def runPass (settings : CheckedSettings) (typesetters : List (Typesetter σ)) (settle : σ → σ)
    (s : σ) : PassReport × σ :=
  let (counts, s) := convertDocument host settings.grammar settings.layout s
  let (styles, s) := settings.sheet.ensure host s
  let (render, s) := trigger host.log settings.delimiters typesetters s
  (⟨counts, styles, render⟩, host.log (passSummary counts) (settle s))

end Pass

/-! ## What engines report -/

/-- The document is ready and the first pass begins. -/
def Record.documentReady : Record :=
  ⟨.info, "document ready, processing equations"⟩

/-- A pass over content that was loaded later begins. -/
def Record.reprocessing : Record :=
  ⟨.info, "reprocessing equations"⟩

/-- The monitor saw new content with markers. -/
def Record.contentDetected : Record :=
  ⟨.info, "new content with markers detected, reprocessing"⟩

/-- The monitor is in place. -/
def Record.watching : Record :=
  ⟨.info, "watching for dynamic content changes"⟩

/-- Identifiers are shown or hidden. -/
def Record.debugMode (enabled : Bool) : Record :=
  ⟨.info, if enabled then "debug mode enabled, equation ids are visible" else "debug mode disabled"⟩

end MarkedMath
