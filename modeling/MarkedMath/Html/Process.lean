import MarkedMath.Census
import MarkedMath.Html.Chunk
import MarkedMath.Html.Edit
import MarkedMath.Html.Element
import MarkedMath.Style

/-!
# Equations in HTML

Documents as text: their markers become elements, the style rules are added to the head, equation
elements are counted, and the class that shows identifiers is added to the body and taken away. All but
what is changed on purpose keeps its spelling.
-/

namespace MarkedMath.Html

/-- What became of the style rules. -/
inductive StyleInjection where
  /-- They were asked for at the end of the head. -/
  | inserted
  /-- An element with their identifier was there already. -/
  | alreadyPresent
  /-- There is no head. -/
  | noHead
  deriving DecidableEq, Repr

/-- The name in reports. -/
def StyleInjection.name : StyleInjection → String
  | inserted => "Inserted"
  | alreadyPresent => "AlreadyPresent"
  | noHead => "NoHead"

/-- The name that callers are told. -/
def StyleInjection.key : StyleInjection → String
  | inserted => "inserted"
  | alreadyPresent => "alreadyPresent"
  | noHead => "noHead"

/-- A converted document. -/
structure Converted where
  /-- The document. -/
  html : Text
  /-- Equations converted. -/
  counts : Counts
  /-- What became of the style rules. -/
  styles : StyleInjection
  deriving DecidableEq, Repr

/-- The start tags that a survey notices. One that has to be weighed as a whole is overlooked when the
last tag in front of it was an end tag that did not have to be. -/
def noticed (behindStop : Bool) : List Token → List Tag
  | [] => []
  | .start tag _ _ weighed :: rest =>
    if weighed && behindStop then noticed false rest else tag :: noticed false rest
  | .stop _ _ weighed :: rest => noticed (!weighed) rest
  | _ :: rest => noticed behindStop rest

/-- The start tags of a document, for counting. -/
def survey (html : Text) : Except AmbiguousTag (List Tag) :=
  (read .survey html).map (noticed false)

/-- Whether the token begins a head. -/
def Token.beginsHead : Token → Bool
  | start tag _ _ _ => tag.isHead
  | _ => false

/-- What becomes of the style rules, as can be told from the tags of a survey and from the tokens of the
document. A head takes the rules when both show one. -/
def injection (sheet : Sheet) (tags : List Tag) (tokens : List Token) : StyleInjection :=
  if tags.any fun tag => tag.value? "id" = some sheet.id.toList then .alreadyPresent
  else if tags.any Tag.isHead && tokens.any Token.beginsHead then .inserted
  else .noHead

/-- The document with its markers converted and, if there is a block, the block in front of the tag that
closes the head. -/
def writeConverted (g : Grammar) (layout : Layout) (block : Option Text) (search : HeadSearch)
    (k : Conversion) : List Token → Text × Counts
  | [] => ([], k.counts)
  | token :: rest =>
    let (closes, search) := search.step token
    let added := if closes then block.getD [] else []
    let (written, k) :=
      match token with
      | .text mode content => k.takeAll g layout (Chunk.ofText mode content)
      | token => (token.raw, k)
    let (others, counts) := writeConverted g layout block search k rest
    (added ++ written ++ others, counts)

/-- Converts the markers of a document and makes sure of the style rules. -/
def process (s : CheckedSettings) (html : Text) : Except AmbiguousTag Converted := do
  let tags ← survey html
  let tokens ← read .conversion html
  let styles := injection s.sheet tags tokens
  let block := if styles = .inserted then some s.sheet.toHtml.toList else none
  let (html, counts) := writeConverted s.grammar s.layout block {} {} tokens
  return ⟨html, counts, styles⟩

/-- What is reported of a conversion. -/
def Converted.summary (c : Converted) : Record :=
  ⟨.debug, "converted " ++ toString c.counts.inline ++ " inline and " ++ toString c.counts.display ++
    " display equations, styles " ++ c.styles.name⟩

/-- How many elements of a document have the class of equations, by kind. -/
def stats (s : CheckedSettings) (html : Text) : Except AmbiguousTag Counts := do
  let tags ← survey html
  let count (kind : Kind) : Nat :=
    tags.countP fun tag => tag.classes.contains (s.equationClass kind).toList
  return ⟨count .inline, count .display⟩

/-- The document with a class added to the tags of bodies or taken away. The change that a body tag
taken for text asks for is made to the next start tag. -/
def writeToggled (name : Text) (enabled owed : Bool) : List Token → Text
  | [] => []
  | .start tag raw _ _ :: rest =>
    (if owed || tag.element = "body" then tag.toggleClass raw name enabled else raw) ++
      writeToggled name enabled false rest
  | .swallowed element content :: rest =>
    content ++ writeToggled name enabled (owed || element = "body") rest
  | token :: rest => token.raw ++ writeToggled name enabled owed rest

/-- Shows or hides the identifiers of equations. -/
def setDebug (s : CheckedSettings) (html : Text) (enabled : Bool) : Except AmbiguousTag Text :=
  (read .toggle html).map (writeToggled s.debugClass.toList enabled false)

/-- The selector of elements with a class. -/
def classSelector (name : String) : String :=
  "[class~=\"" ++ name ++ "\"]"

/-- The selector of the element with an identifier. -/
def idSelector (id : String) : String :=
  "[id=\"" ++ id ++ "\"]"

end MarkedMath.Html
