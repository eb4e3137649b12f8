import MarkedMath.Tree.Forest

/-!
# Forests as markup

How a forest is written as HTML. A `MarkupStyle` holds what writers differ in: the characters that
are escaped and the elements whose text is written as it is.
-/

namespace MarkedMath

/-- The conventions of a writer of markup. -/
structure MarkupStyle where
  /-- A character of a text node. -/
  textChar : Char → Text
  /-- A character of an attribute value. -/
  attributeChar : Char → Text
  /-- The elements whose text is written as it is. -/
  rawTags : List String
  /-- Whether an element that has no end tag shows no children. -/
  voidHidesChildren : Bool

/-- The elements that have no end tag. -/
def voidTags : List String :=
  ["area", "base", "br", "col", "embed", "hr", "img", "input", "link", "meta", "source", "track",
    "wbr"]

/-- The characters that would begin or end markup, by their names. -/
def escapeMarkup : Char → Text
  | '&' => "&amp;".toList
  | '<' => "&lt;".toList
  | '>' => "&gt;".toList
  | c => [c]

/-- The same, and the quotation mark. -/
def escapeQuoted (c : Char) : Text :=
  if c = '\x22' then "&quot;".toList else escapeMarkup c

/-- A text between tags. -/
def escapeText (s : Text) : Text :=
  s.flatMap escapeMarkup

namespace Forest

/-- The start tag of an element. -/
def startTag (style : MarkupStyle) (tag : String) (attributes : List (String × Text)) : Text :=
  ['<'] ++ tag.toList ++
    (attributes.flatMap fun (name, value) =>
      [' '] ++ name.toList ++ ['=', '\x22'] ++ value.flatMap style.attributeChar ++ ['\x22']) ++
    ['>']

/-- The end tag of an element. -/
def endTag (tag : String) : Text :=
  ['<', '/'] ++ tag.toList ++ ['>']

/-- Whether an element with these children is written as its start tag alone. -/
def isLoneTag (style : MarkupStyle) (tag : String) (children : Forest) : Bool :=
  voidTags.contains tag && (style.voidHidesChildren || children.isEmpty)

/-- A forest as markup. `raw` says that it stands in an element whose text is written as it is. -/
def write (style : MarkupStyle) (raw : Bool) : Forest → Text
  | nil => []
  | node _ data children next =>
    (match data with
      | .text data => if raw then data else data.flatMap style.textChar
      | .comment data => "<!--".toList ++ data ++ "-->".toList
      | .element tag attributes =>
        if isLoneTag style tag children then startTag style tag attributes
        else
          startTag style tag attributes ++ children.write style (style.rawTags.contains tag) ++
            endTag tag) ++
      next.write style raw

/-- The markup of a node's children. -/
def innerMarkup (style : MarkupStyle) (id : NodeId) (f : Forest) : Text :=
  match f.find? id with
  | some (data, children) =>
    children.write style ((data.tag?.map style.rawTags.contains).getD false)
  | none => []

end Forest

end MarkedMath
