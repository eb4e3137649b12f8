import MarkedMath.Html.Token

/-!
# Open elements

Content is added at the end of an element in front of the tag that closes it: its own end tag, or the
end tag of an element around it. An element that no tag closes takes no content.
-/

namespace MarkedMath.Html

/-- The elements of HTML that have no content. -/
def voidElements : List String :=
  ["area", "base", "basefont", "bgsound", "br", "col", "embed", "hr", "img", "input", "keygen",
    "link", "meta", "param", "source", "track", "wbr"]

/-- Whether a start tag opens an element that has content. In HTML the name decides, in drawings and
formulas the slash in the tag. -/
def Tag.opens (tag : Tag) (vocabulary : Vocabulary) : Bool :=
  if vocabulary = .html then !voidElements.contains tag.element else !tag.selfClosing

/-- Whether the tag is that of a head. -/
def Tag.isHead (tag : Tag) : Bool :=
  tag.element = "head"

/-- An open element. -/
structure OpenElement where
  /-- The name of the element. -/
  element : String
  /-- Whether content is to be added at its end. -/
  awaited : Bool
  deriving DecidableEq, Repr

/-- The elements that an end tag closes, namely those up to the innermost one of its name, and the
elements that stay open. -/
def closeElement (element : String) (opened : List OpenElement) :
    List OpenElement × List OpenElement :=
  match opened.span fun e => e.element ≠ element with
  | (_, []) => ([], opened)
  | (inside, e :: around) => (inside ++ [e], around)

/-- The search for the end of the first `head` element. -/
structure HeadSearch where
  /-- Whether its start tag has been met. -/
  met : Bool := false
  /-- The open elements, the innermost first. -/
  opened : List OpenElement := []
  deriving DecidableEq, Repr

/-- Whether a token closes the first `head` element, and the search behind it. -/
def HeadSearch.step (h : HeadSearch) : Token → Bool × HeadSearch
  | .start tag _ vocabulary _ =>
    let opened :=
      if tag.opens vocabulary then ⟨tag.element, tag.isHead && !h.met⟩ :: h.opened else h.opened
    (false, ⟨h.met || tag.isHead, opened⟩)
  | .stop tag _ _ =>
    let (closed, opened) := closeElement tag.element h.opened
    (closed.any OpenElement.awaited, { h with opened })
  | _ => (false, h)

end MarkedMath.Html
