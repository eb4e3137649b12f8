import MarkedMath.Text

/-!
# Tags

A tag is read from its name to its closing bracket, and every attribute keeps its own spelling next to
its name and value. A tag that the text breaks off is no tag. What is read is always a part of the text
from its start on (`Tag.isSuffix_of_read?`), so the spelling of a tag is the text in front of the rest.
-/

namespace MarkedMath.Html

/-- The part of a text that stands in front of its end part `rest`. -/
def spelling (s rest : Text) : Text :=
  s.take (s.length - rest.length)

theorem spelling_append {s rest : Text} (h : rest <:+ s) : spelling s rest ++ rest = s := by
  obtain ⟨before, rfl⟩ := h
  simp [spelling]

/-- An attribute of a tag. Character references are left as they are. -/
structure Attribute where
  /-- The name. -/
  name : Text
  /-- The value, without its quotation marks. -/
  value : Text
  /-- Name and value as they are spelled. An equals sign that no value follows is left out. -/
  raw : Text
  /-- Whether an equals sign stands behind the name, but no value. -/
  lacksValue : Bool
  deriving DecidableEq, Repr

/-- What may stand in the name of an attribute behind its first character. -/
def isAttributeChar (c : Char) : Bool :=
  !(Text.isBlank c || c = '/' || c = '>' || c = '=')

/-- What may stand in a value without quotation marks. -/
def isBareChar (c : Char) : Bool :=
  !(Text.isBlank c || c = '>')

/-- What may stand in the name of a tag. -/
def isTagChar (c : Char) : Bool :=
  !(Text.isBlank c || c = '/' || c = '>')

/-- The text in front of the first `quote` and the text behind it. -/
def readQuoted? (quote : Char) : Text → Option (Text × Text)
  | [] => none
  | c :: s =>
    if c = quote then some ([], s)
    else (readQuoted? quote s).map fun (value, rest) => (c :: value, rest)

/-- Reads a value from behind an equals sign, if the tag does not end there. The outer `none` says that
the text breaks off. -/
def readValue? (s : Text) : Option (Option Text × Text) :=
  match s.dropWhile Text.isBlank with
  | [] => none
  | c :: t =>
    if c = '>' then some (none, c :: t)
    else if c = '\x22' || c = '\x27' then
      (readQuoted? c t).map fun (value, rest) => (some value, rest)
    else some (some ((c :: t).takeWhile isBareChar), (c :: t).dropWhile isBareChar)

namespace Attribute

/-- Reads an attribute whose name begins with `c`. A name may begin with any character that does not
end the tag. -/
def read? (c : Char) (s : Text) : Option (Attribute × Text) :=
  let name := c :: s.takeWhile isAttributeChar
  let behind := s.dropWhile isAttributeChar
  match behind.dropWhile Text.isBlank with
  | '=' :: t =>
    (readValue? t).map fun
      | (some value, rest) => (⟨name, value, spelling (c :: s) rest, false⟩, rest)
      | (none, rest) => (⟨name, [], name, true⟩, rest)
  | _ => some (⟨name, [], name, false⟩, behind)

end Attribute

/-! ## What is read is the start of the text -/

theorem isSuffix_of_readQuoted? {quote : Char} {s value rest : Text}
    (h : readQuoted? quote s = some (value, rest)) : rest <:+ s := by
  induction s generalizing value with
  | nil => simp [readQuoted?] at h
  | cons c s ih =>
    unfold readQuoted? at h
    split at h
    · obtain ⟨-, rfl⟩ := by simpa using h
      exact List.suffix_cons c s
    · obtain ⟨⟨v, r⟩, found, heq⟩ := Option.map_eq_some_iff.1 h
      obtain ⟨-, rfl⟩ := by simpa using heq
      exact (ih found).trans (List.suffix_cons c s)

theorem isSuffix_of_readValue? {s rest : Text} {value : Option Text}
    (h : readValue? s = some (value, rest)) : rest <:+ s := by
  have blanks := List.dropWhile_suffix (l := s) Text.isBlank
  unfold readValue? at h
  split at h
  · simp at h
  · next c t heq =>
    rw [heq] at blanks
    split at h
    · obtain ⟨-, rfl⟩ := by simpa using h
      exact blanks
    · split at h
      · obtain ⟨⟨v, r⟩, found, same⟩ := Option.map_eq_some_iff.1 h
        obtain ⟨-, rfl⟩ := by simpa using same
        exact ((isSuffix_of_readQuoted? found).trans (List.suffix_cons c t)).trans blanks
      · obtain ⟨-, rfl⟩ := by simpa using h
        exact (List.dropWhile_suffix _).trans blanks

/-- An attribute takes its first character at least. -/
theorem Attribute.isSuffix_of_read? {c : Char} {s rest : Text} {a : Attribute}
    (h : read? c s = some (a, rest)) : rest <:+ s := by
  have name := List.dropWhile_suffix (l := s) isAttributeChar
  simp only [read?] at h
  split at h
  · next t heq =>
    have blanks := List.dropWhile_suffix (l := s.dropWhile isAttributeChar) Text.isBlank
    rw [heq] at blanks
    obtain ⟨⟨v, r⟩, found, same⟩ := Option.map_eq_some_iff.1 h
    have value := isSuffix_of_readValue? found
    have whole := ((value.trans (List.suffix_cons '=' t)).trans blanks).trans name
    cases v <;> (obtain ⟨-, rfl⟩ := by simpa using same) <;> exact whole
  · obtain ⟨-, rfl⟩ := by simpa using h
    exact name

/-! ## Tags -/

/-- Reads the attributes of a tag and its closing bracket: the attributes, whether a slash stands right
before the bracket, and the text behind it. -/
def readAttributes? : Text → Option (List Attribute × Bool × Text)
  | [] => none
  | c :: s =>
    if c = '>' then some ([], false, s)
    else if Text.isBlank c then readAttributes? s
    else if c = '/' then
      match s with
      | '>' :: rest => some ([], true, rest)
      | s => readAttributes? s
    else
      match h : Attribute.read? c s with
      | none => none
      | some (a, rest) =>
        have : rest.length < s.length + 1 :=
          Nat.lt_succ_of_le (Attribute.isSuffix_of_read? h).length_le
        (readAttributes? rest).map fun (attributes, tail) => (a :: attributes, tail)
termination_by s => s.length

theorem isSuffix_of_readAttributes? {s rest : Text} {attributes : List Attribute} {slash : Bool}
    (h : readAttributes? s = some (attributes, slash, rest)) : rest <:+ s := by
  fun_induction readAttributes? s generalizing attributes with
  | case1 => simp at h
  | case2 s =>
    obtain ⟨-, -, rfl⟩ := by simpa using h
    exact List.suffix_cons _ _
  | case3 c s _ _ ih => exact (ih h).trans (List.suffix_cons c s)
  | case4 =>
    obtain ⟨-, -, rfl⟩ := by simpa using h
    exact (List.suffix_cons _ _).trans (List.suffix_cons _ _)
  | case5 s _ _ _ ih => exact (ih h).trans (List.suffix_cons _ _)
  | case6 => simp at h
  | case7 c s _ _ _ a r found _ ih =>
    obtain ⟨⟨as, b, r'⟩, later, heq⟩ := Option.map_eq_some_iff.1 h
    obtain ⟨-, rfl, rfl⟩ := by simpa using heq
    exact ((ih later).trans (Attribute.isSuffix_of_read? found)).trans (List.suffix_cons c s)

/-- A tag, its opening bracket and slash left aside. -/
structure Tag where
  /-- The name as it is spelled. -/
  name : Text
  /-- The attributes in order, repeated ones included. -/
  attributes : List Attribute
  /-- Whether a slash stands right before the closing bracket. -/
  selfClosing : Bool
  deriving DecidableEq, Repr

namespace Tag

/-- Reads a tag from its name on. -/
def read? (s : Text) : Option (Tag × Text) :=
  (readAttributes? (s.dropWhile isTagChar)).map fun (attributes, selfClosing, rest) =>
    (⟨s.takeWhile isTagChar, attributes, selfClosing⟩, rest)

theorem isSuffix_of_read? {s rest : Text} {tag : Tag} (h : read? s = some (tag, rest)) :
    rest <:+ s := by
  obtain ⟨⟨as, b, r⟩, found, heq⟩ := Option.map_eq_some_iff.1 h
  obtain ⟨-, rfl⟩ := by simpa using heq
  exact (isSuffix_of_readAttributes? found).trans (List.dropWhile_suffix _)

/-- The name of the element, in small letters. -/
def element (tag : Tag) : String :=
  String.ofList (Text.lower tag.name)

/-- The first attribute with a name given in small letters. -/
def attribute? (tag : Tag) (name : String) : Option Attribute :=
  tag.attributes.find? fun a => Text.lower a.name = name.toList

/-- The value of the first attribute with a name given in small letters. -/
def value? (tag : Tag) (name : String) : Option Text :=
  (tag.attribute? name).map Attribute.value

/-- Whether the tag ends where a value is missing, right behind an equals sign. -/
def lacksValue (tag : Tag) : Bool :=
  tag.attributes.any Attribute.lacksValue

/-- The classes that the tag gives to its element. -/
def classes (tag : Tag) : List Text :=
  Text.words ((tag.value? "class").getD [])

end Tag

end MarkedMath.Html
