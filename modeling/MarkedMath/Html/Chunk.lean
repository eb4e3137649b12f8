import MarkedMath.Html.Token
import MarkedMath.Layout

/-!
# Texts in chunks

A text may come in chunks, cut anywhere. All but the last chunk of a text are kept back, and what the
whole text becomes is written in the place of the last one (`convert_chunks`). Texts that do not
count as data stay as they are.
-/

namespace MarkedMath.Html

/-- A part of a text as it comes in. -/
structure Chunk where
  /-- What the text counts as. -/
  mode : TextMode
  /-- The characters of this part. -/
  content : Text
  /-- Whether the text ends with it. -/
  last : Bool
  deriving DecidableEq, Repr

/-- The chunks that a text comes in from the reader: its content, then an empty one that ends it. -/
def Chunk.ofText (mode : TextMode) (content : Text) : List Chunk :=
  [⟨mode, content, false⟩, ⟨mode, [], true⟩]

/-- What is kept from one chunk to the next. -/
structure Conversion where
  /-- How many equations have been numbered. -/
  counts : Counts := {}
  /-- The part of the text that has come in so far. -/
  held : Text := []
  /-- How many chunks that part came in. -/
  chunks : Nat := 0
  deriving DecidableEq, Repr

namespace Conversion

variable (g : Grammar) (layout : Layout)

/-- Takes in a chunk. Gives what is written in its place. -/
def take (k : Conversion) (c : Chunk) : Text × Conversion :=
  if c.mode ≠ .data then (c.content, k)
  else
    let text := k.held ++ c.content
    if !c.last then ([], { k with held := text, chunks := k.chunks + 1 })
    else
      match g.segment? k.counts text with
      | some (segments, counts) => (layout.render segments, { counts })
      | none => (if k.chunks = 0 then c.content else text, { counts := k.counts })

/-- Takes in chunks one after the other. -/
def takeAll (k : Conversion) : List Chunk → Text × Conversion
  | [] => ([], k)
  | c :: rest =>
    let (written, k) := k.take g layout c
    let (others, k) := k.takeAll rest
    (written ++ others, k)

/-- A text that comes in whole is converted when it is data and kept otherwise. -/
theorem takeAll_ofText (counts : Counts) (mode : TextMode) (content : Text) :
    ({ counts } : Conversion).takeAll g layout (Chunk.ofText mode content) =
      if mode = .data then
        ((g.convert layout counts content).1, { counts := (g.convert layout counts content).2 })
      else (content, { counts }) := by
  by_cases h : mode = .data
  · cases found : g.segment? counts content <;>
      simp [takeAll, Chunk.ofText, take, h, Grammar.convert, found]
  · simp [takeAll, Chunk.ofText, take, h]

end Conversion

end MarkedMath.Html
