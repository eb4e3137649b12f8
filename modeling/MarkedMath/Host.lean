import MarkedMath.Log
import MarkedMath.Segment

/-!
# Documents as hosts

What an engine needs of the document that it works on. A host is given by its operations on a state
`σ` with nodes named by `ν`; an operation that can be refused answers with a `HostError` and then
leaves the document as it was.
-/

namespace MarkedMath

/-- Why a document refuses an operation. -/
inductive HostError where
  /-- The node has no parent. -/
  | detached
  /-- The document lacks the element that would take the content. -/
  | missingElement (tag : String)
  /-- The document rejects the operation for a reason of its own. -/
  | rejected (operation reason : String)
  deriving DecidableEq, Repr

/-- The name of the kind of refusal. -/
def HostError.name : HostError → String
  | detached => "Detached"
  | missingElement _ => "MissingElement"
  | rejected _ _ => "Rejected"

/-- The refusal in words. -/
def HostError.message : HostError → String
  | detached => "node is detached from the document"
  | missingElement tag => "document has no `" ++ tag ++ "` element"
  | rejected operation reason => operation ++ " failed: " ++ reason

/-- A node to be made in the place of a text node. -/
inductive NodeSpec where
  /-- A text node. -/
  | text (data : Text)
  /-- An element with a single text node in it. -/
  | element (tag : String) (attributes : List (String × Text)) (content : Text)
  deriving DecidableEq, Repr

/-- The elements whose text is never looked at. -/
def skippedTags : List String :=
  ["script", "style", "textarea", "title"]

/-- The operations of a document that a pass uses. -/
structure Host (σ ν : Type) where
  /-- Merges adjacent text nodes of the body and drops empty ones. -/
  normalize : σ → σ
  /-- The text nodes of the body in document order, without those in skipped elements. -/
  textNodes : σ → List ν × σ
  /-- The data of a text node. -/
  textOf : σ → ν → Text
  /-- Puts new nodes in the place of a node. -/
  replaceText : ν → List NodeSpec → σ → Except HostError Unit × σ
  /-- Whether an element carries the identifier. -/
  hasStyle : String → σ → Bool
  /-- Adds a style element with an identifier and rules. -/
  insertStyle : String → String → σ → Except HostError Unit × σ
  /-- Writes a log record. -/
  log : Record → σ → σ

end MarkedMath
