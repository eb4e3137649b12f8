import MarkedMath.Html.Tag
import MarkedMath.Tree.Markup

/-!
# Changing the classes of a tag

A tag with a changed attribute is written anew from its parts. The other attributes keep their spelling,
and a tag from which nothing is taken away keeps its own.
-/

namespace MarkedMath.Html

/-- The character as it stands in a value between quotation marks. -/
def escapeQuote (c : Char) : Text :=
  if c = '\x22' then "&quot;".toList else [c]

/-- An attribute with a value as it is written. -/
def Attribute.ofValue (name value : Text) : Attribute :=
  let written := value.flatMap escapeQuote
  ⟨name, written, name ++ ['=', '\x22'] ++ written ++ ['\x22'], false⟩

/-- The attributes with the first one of a name, given in small letters, set to a value, or with one
more attribute at the end. -/
def setAttribute (name : String) (value : Text) : List Attribute → List Attribute
  | [] => [.ofValue name.toList value]
  | a :: rest =>
    if Text.lower a.name = name.toList then .ofValue a.name value :: rest
    else a :: setAttribute name value rest

namespace Tag

/-- The start tag as it is written. -/
def write (tag : Tag) : Text :=
  ['<'] ++ tag.name ++ (tag.attributes.flatMap fun a => ' ' :: a.raw) ++
    (if tag.selfClosing then " />".toList else ['>'])

/-- The tag with the given classes, or `none` when it has no class attribute to be taken away. -/
def setClasses? (tag : Tag) (classes : List Text) : Option Tag :=
  if classes.isEmpty then
    if (tag.attribute? "class").isNone then none
    else
      some { tag with
        attributes := tag.attributes.eraseP fun a => Text.lower a.name = "class".toList }
  else some { tag with attributes := setAttribute "class" (Text.unwords classes) tag.attributes }

/-- The classes of the tag without a class, which comes last when it is enabled. -/
def toggledClasses (tag : Tag) (name : Text) (enabled : Bool) : List Text :=
  (tag.classes.filter fun c => c ≠ name) ++ (if enabled then [name] else [])

/-- The start tag, spelled `raw` so far, with a class added or taken away. -/
def toggleClass (tag : Tag) (raw : Text) (name : Text) (enabled : Bool) : Text :=
  match tag.setClasses? (tag.toggledClasses name enabled) with
  | some changed => changed.write
  | none => raw

end Tag

end MarkedMath.Html
