import MarkedMath.Html.Tag

/-!
# What tags mean where they stand

A tag by itself does not say how the text behind it is read: inside drawings and formulas the elements
of HTML mean nothing special, and inside lists of choices and frame sets it cannot be told from the
tags alone whether an element is there at all. The context follows both from tag to tag.
-/

namespace MarkedMath.Html

/-- How text is read. -/
inductive TextMode where
  /-- Tags, comments and character references count. -/
  | data
  /-- Character references and the end tag of the element count. -/
  | escapable
  /-- Only the end tag of the element counts. -/
  | raw
  /-- The same, but for end tags in what scripts comment out. -/
  | script
  /-- Nothing counts any more. -/
  | plain
  /-- In a marked section of a drawing or formula, only the end of the section counts. -/
  | cdata
  deriving DecidableEq, Repr

/-- The elements whose text is not read as data, and how it is read. -/
def TextMode.special : List (String × TextMode) :=
  [("textarea", escapable), ("title", escapable), ("plaintext", plain), ("script", script),
    ("style", raw), ("iframe", raw), ("xmp", raw), ("noembed", raw), ("noframes", raw),
    ("noscript", raw)]

/-- How the text of an element is read. -/
def TextMode.ofElement (element : String) : TextMode :=
  (special.lookup element).getD data

/-- Whether the text of an element is not read as data. -/
def isSpecial (element : String) : Bool :=
  (TextMode.special.lookup element).isSome

/-! ## Where special elements are ambiguous -/

/-- A special element where it cannot be told whether it is there. -/
structure AmbiguousTag where
  /-- The name of the element. -/
  element : String
  deriving DecidableEq, Repr

/-- The fault in words. -/
def AmbiguousTag.message (e : AmbiguousTag) : String :=
  "The parser has encountered a text content tag (`<" ++ e.element ++
    ">`) in the context where it is ambiguous whether this tag should be ignored or not. And, thus, " ++
    "it is unclear whether consequent content should be parsed as raw text or HTML markup.\n\n" ++
    "This error occurs due to the limited capabilities of the streaming parsing. However, almost " ++
    "all of the cases of this error are caused by a non-conforming markup (e.g. a `<script>` " ++
    "element in `<select>` element)."

/-- The failure of a conversion in words. -/
def AmbiguousTag.failure (e : AmbiguousTag) : String :=
  "HTML rewrite failed: " ++ e.message

/-- Where special elements may be ignored. -/
inductive Doubt where
  /-- They never are. -/
  | none
  /-- In a list of choices all but scripts may be. -/
  | choices
  /-- In templates in a list of choices, so many deep, all may be. -/
  | template (depth : Nat)
  /-- In a frame set and behind it all but the content without frames may be. -/
  | frames
  deriving DecidableEq, Repr

namespace Doubt

/-- Refuses a special element unless it is the exception. -/
def refuse (d : Doubt) (element : String) (exception : Option String) : Except AmbiguousTag Doubt :=
  if isSpecial element && some element ≠ exception then .error ⟨element⟩ else .ok d

/-- Behind a start tag. -/
def enter (element : String) : Doubt → Except AmbiguousTag Doubt
  | none =>
    .ok (if element = "select" then choices else if element = "frameset" then frames else none)
  | choices =>
    if ["select", "textarea", "input", "keygen"].contains element then .ok none
    else if element = "template" then .ok (template 1)
    else refuse choices element "script"
  | template depth =>
    if element = "template" then .ok (template (depth + 1))
    else refuse (template depth) element .none
  | frames => refuse frames element "noframes"

/-- Behind an end tag. -/
def leave (element : String) : Doubt → Doubt
  | choices => if element = "select" then none else choices
  | template depth =>
    if element = "template" then (if depth ≤ 1 then choices else template (depth - 1))
    else template depth
  | d => d

end Doubt

/-! ## Drawings and formulas -/

/-- The vocabulary that elements are taken from. -/
inductive Vocabulary where
  | html
  /-- Drawings. -/
  | svg
  /-- Formulas. -/
  | mathML
  deriving DecidableEq, Repr

/-- The elements that begin drawings and formulas. -/
def foreignRoots : List String :=
  ["svg", "math"]

/-- The elements of HTML that end a drawing or formula around them. -/
def breakoutElements : List String :=
  ["b", "big", "blockquote", "body", "br", "center", "code", "dd", "div", "dl", "dt", "em", "embed",
    "h1", "h2", "h3", "h4", "h5", "h6", "head", "hr", "i", "img", "li", "listing", "menu", "meta",
    "nobr", "ol", "p", "pre", "ruby", "s", "small", "span", "strong", "strike", "sub", "sup",
    "table", "tt", "u", "ul", "var"]

/-- The elements of a vocabulary whose content is HTML again. -/
def Vocabulary.embedding : Vocabulary → List String
  | html => []
  | svg => ["desc", "title", "foreignobject"]
  | mathML => ["mi", "mo", "mn", "ms", "mtext"]

/-- The five bits that stand for a character in the number of a name. Letters and the digits from 1 to 6
have some. -/
def nameBits? (c : Char) : Option Nat :=
  if 'a' ≤ c ∧ c ≤ 'z' then some (c.toNat - 'a'.toNat + 6)
  else if '1' ≤ c ∧ c ≤ '6' then some (c.toNat - '1'.toNat)
  else none

/-- Whether the name of an element, in small letters, has a number of 64 bits. Names are told apart by
their numbers, so an element without one is not known by its name alone. -/
def hasNumber (element : String) : Bool :=
  match element.toList.foldlM (fun n c => (nameBits? c).map (32 * n + ·)) 0 with
  | some n => n < UInt64.size
  | none => false

/-- Whether an annotation of a formula says that its content is HTML. -/
def isHtmlAnnotation (tag : Tag) : Bool :=
  tag.attributes.any fun a =>
    Text.lower a.name = "encoding".toList &&
      ["text/html", "application/xhtml+xml"].contains (String.ofList (Text.lower a.value))

/-- Whether a font element sets color, size or face, as only the one of HTML does. -/
def isStyledFont (tag : Tag) : Bool :=
  ["color", "size", "face"].any fun name => (tag.attribute? name).isSome

/-- What is known about the place between two tags. -/
structure Context where
  /-- Whether special elements may be ignored. -/
  doubt : Doubt := .none
  /-- The vocabulary. -/
  vocabulary : Vocabulary := .html
  /-- The vocabularies around it, the innermost first. -/
  outer : List Vocabulary := []
  deriving DecidableEq, Repr

namespace Context

/-- Begins content of a vocabulary. -/
def push (c : Context) (vocabulary : Vocabulary) : Context :=
  { c with vocabulary, outer := c.vocabulary :: c.outer }

/-- Goes back to the vocabulary around. -/
def pop (c : Context) : Context :=
  match c.outer with
  | [] => c
  | vocabulary :: outer => { c with vocabulary, outer }

/-- The vocabulary behind a start tag. -/
def enterVocabulary (c : Context) (tag : Tag) : Context :=
  let element := tag.element
  if element = "svg" then c.push .svg
  else if element = "math" then c.push .mathML
  else if c.vocabulary = .html then c
  else if breakoutElements.contains element then c.pop
  else if c.vocabulary.embedding.contains element then
    if tag.selfClosing then c else c.push .html
  else if element = "font" then
    if isStyledFont tag then c.pop else c
  else if c.vocabulary = .mathML && element = "annotation-xml" then
    if !tag.selfClosing && isHtmlAnnotation tag then c.push .html else c
  else c

/-- The vocabulary behind an end tag. Besides its own end tag that of a paragraph or of a line break ends
a drawing or formula. -/
def leaveVocabulary (c : Context) (element : String) : Context :=
  let ends : Bool :=
    match c.vocabulary, c.outer with
    | .html, .mathML :: _ =>
      Vocabulary.mathML.embedding.contains element || element = "annotation-xml"
    | .html, .svg :: _ => Vocabulary.svg.embedding.contains element
    | .html, _ => false
    | .svg, _ => ["svg", "p", "br"].contains element
    | .mathML, _ => ["math", "p", "br"].contains element
  if ends then c.pop else c

/-- Whether the vocabulary behind a start tag depends on more than its name, so that the tag has to be
weighed as a whole. -/
def weighsStart (c : Context) (element : String) : Bool :=
  c.vocabulary ≠ .html && !foreignRoots.contains element && !breakoutElements.contains element &&
    (c.vocabulary.embedding.contains element || element = "font" ||
      (c.vocabulary = .mathML && !hasNumber element))

/-- Whether the vocabulary behind an end tag depends on more than the number of its name. -/
def weighsStop (c : Context) (element : String) : Bool :=
  c.vocabulary = .html && c.outer.head? = some .mathML && !hasNumber element

/-- The context behind a start tag. -/
def enter (c : Context) (tag : Tag) : Except AmbiguousTag Context :=
  (c.doubt.enter tag.element).map fun doubt => { c with doubt }.enterVocabulary tag

/-- The context behind an end tag. -/
def leave (c : Context) (tag : Tag) : Context :=
  { c with doubt := c.doubt.leave tag.element }.leaveVocabulary tag.element

/-- How the text behind a start tag is read: only elements of HTML are special. -/
def textMode (c : Context) (tag : Tag) : TextMode :=
  if c.vocabulary = .html then .ofElement tag.element else .data

end Context

end MarkedMath.Html
