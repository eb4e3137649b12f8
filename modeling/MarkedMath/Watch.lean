import MarkedMath.Grammar

/-!
# Watching for new content

Which batches of inserted nodes are a reason to look for markers again: those in which an element or
a text node mentions a watch pattern.
-/

namespace MarkedMath

/-- The sort of an inserted node. -/
inductive InsertedKind where
  /-- An element; its content is the markup inside it. -/
  | element
  /-- A text node; its content is its data. -/
  | text
  /-- Anything else; its content is never looked at. -/
  | other
  deriving DecidableEq, Repr

/-- The name of the sort. -/
def InsertedKind.name : InsertedKind → String
  | element => "element"
  | text => "text"
  | other => "other"

/-- An inserted node as it is when the batch is handed out. -/
structure Inserted where
  /-- Its sort. -/
  kind : InsertedKind
  /-- Its markup or data. -/
  content : Text
  deriving DecidableEq, Repr

/-- Whether the content mentions one of the patterns. -/
def mentionsAny (patterns : List Text) (content : Text) : Bool :=
  patterns.any fun pattern => Text.mentions pattern content

/-- Whether the node is a reason to look for markers again. -/
def Inserted.qualifies (patterns : List Text) (node : Inserted) : Bool :=
  node.kind ≠ .other && mentionsAny patterns node.content

/-- Whether any node of the batch is a reason to look for markers again. -/
def batchQualifies (patterns : List Text) (batch : List Inserted) : Bool :=
  batch.any (Inserted.qualifies patterns)

end MarkedMath
