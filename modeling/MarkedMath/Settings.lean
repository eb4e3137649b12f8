import MarkedMath.Kind

/-!
# Settings

The tokens that wrap a marker, the class names and identifiers that are written into documents, and
the delimiters handed to typesetters. `Settings.fault?` is the one place that says which settings
are usable; `CheckedSettings` are settings together with the fact that it finds no fault.
-/

namespace MarkedMath

/-- The literal tokens around a payload, two for each kind. -/
structure Tokens where
  /-- Opens an inline marker. -/
  inlineStart : String := "MATHSTARTINLINE"
  /-- Closes an inline marker. -/
  inlineEnd : String := "MATHENDINLINE"
  /-- Opens a display marker. -/
  displayStart : String := "MATHSTARTDISPLAY"
  /-- Closes a display marker. -/
  displayEnd : String := "MATHENDDISPLAY"
  deriving DecidableEq, Repr, Inhabited

/-- A pair of delimiters for typesetters that look for delimiters. -/
structure Delimiter where
  /-- The opening delimiter. -/
  left : String
  /-- The closing delimiter. -/
  right : String
  /-- Whether the pair sets its content as a block. -/
  display : Bool
  deriving DecidableEq, Repr, Inhabited

/-- The brackets with backslashes, the display pair first. -/
def Delimiter.standard : List Delimiter :=
  [⟨"\\[", "\\]", true⟩, ⟨"\\(", "\\)", false⟩]

/-- All settings of an engine. -/
structure Settings where
  /-- The tokens that wrap markers. -/
  tokens : Tokens := {}
  /-- The class of inline equations. -/
  inlineClass : String := "inlineMath"
  /-- The class of display equations. -/
  displayClass : String := "Math_box"
  /-- The identifier of the style element. -/
  styleId : String := "equation-processor-styles"
  /-- The class of the body while equation identifiers are shown. -/
  debugClass : String := "debug-equations"
  /-- The width in pixels below which display equations shrink. -/
  mobileBreakpoint : UInt32 := 768
  /-- The delimiters handed to typesetters. -/
  delimiters : List Delimiter := Delimiter.standard
  deriving DecidableEq, Repr, Inhabited

/-! ## Fields that are checked -/

/-- The four tokens, by name. -/
inductive TokenField where
  | inlineStart
  | inlineEnd
  | displayStart
  | displayEnd
  deriving DecidableEq, Repr

/-- The tokens in the order in which they are checked. -/
def TokenField.all : List TokenField :=
  [inlineStart, inlineEnd, displayStart, displayEnd]

/-- The name of the field in settings files and messages. -/
def TokenField.key : TokenField → String
  | inlineStart => "inline_start"
  | inlineEnd => "inline_end"
  | displayStart => "display_start"
  | displayEnd => "display_end"

/-- The token that the field holds. -/
def Tokens.get (t : Tokens) : TokenField → String
  | .inlineStart => t.inlineStart
  | .inlineEnd => t.inlineEnd
  | .displayStart => t.displayStart
  | .displayEnd => t.displayEnd

/-- The token that opens markers of a kind. -/
def Tokens.start (t : Tokens) : Kind → String
  | .inline => t.inlineStart
  | .display => t.displayStart

/-- The token that closes markers of a kind. -/
def Tokens.stop (t : Tokens) : Kind → String
  | .inline => t.inlineEnd
  | .display => t.displayEnd

/-- The four names that are written into markup and style rules. -/
inductive NameField where
  | inlineClass
  | displayClass
  | styleId
  | debugClass
  deriving DecidableEq, Repr

/-- The names in the order in which they are checked. -/
def NameField.all : List NameField :=
  [inlineClass, displayClass, styleId, debugClass]

/-- The name of the field in settings files and messages. -/
def NameField.key : NameField → String
  | inlineClass => "inline_class"
  | displayClass => "display_class"
  | styleId => "style_id"
  | debugClass => "debug_class"

/-- The name that the field holds. -/
def Settings.get (s : Settings) : NameField → String
  | .inlineClass => s.inlineClass
  | .displayClass => s.displayClass
  | .styleId => s.styleId
  | .debugClass => s.debugClass

/-- The class of equations of a kind. -/
def Settings.equationClass (s : Settings) : Kind → String
  | .inline => s.inlineClass
  | .display => s.displayClass

/-! ## Faults -/

/-- Why settings are refused. -/
inductive SettingsFault where
  /-- A token is empty. -/
  | emptyToken (field : TokenField)
  /-- A token holds a line break. -/
  | multilineToken (field : TokenField)
  /-- The two tokens of a kind are the same. -/
  | ambiguousTokens (kind : Kind) (token : String)
  /-- A name is empty, holds other characters than it may, or is taken by another field. -/
  | invalidName (field : NameField) (value : String)
  deriving DecidableEq, Repr

/-- The name of the kind of fault. -/
def SettingsFault.name : SettingsFault → String
  | emptyToken _ => "EmptyToken"
  | multilineToken _ => "MultilineToken"
  | ambiguousTokens _ _ => "AmbiguousTokens"
  | invalidName _ _ => "InvalidName"

/-- The fault in words. -/
def SettingsFault.message : SettingsFault → String
  | emptyToken field => "marker token `" ++ field.key ++ "` must not be empty"
  | multilineToken field => "marker token `" ++ field.key ++ "` must not contain line breaks"
  | ambiguousTokens kind token =>
    kind.name ++ " markers use the same start and end token `" ++ token ++ "`"
  | invalidName field value =>
    "`" ++ field.key ++ "` must be a non-empty name of ASCII letters, digits, `-` or `_`, got `" ++
      value ++ "`"

/-- A line break is a line feed or a carriage return. -/
def isLineBreak (c : Char) : Bool :=
  c = '\n' || c = '\r'

/-- What is wrong with one token taken alone. -/
def Tokens.fieldFault? (t : Tokens) (field : TokenField) : Option SettingsFault :=
  let token := (t.get field).toList
  if token.isEmpty then some (.emptyToken field)
  else if token.any isLineBreak then some (.multilineToken field)
  else none

/-- What is wrong with the two tokens of a kind. -/
def Tokens.pairFault? (t : Tokens) (kind : Kind) : Option SettingsFault :=
  if t.start kind = t.stop kind then some (.ambiguousTokens kind (t.start kind)) else none

/-- The first fault of the tokens: each one alone, then the two of each kind. -/
def Tokens.fault? (t : Tokens) : Option SettingsFault :=
  (TokenField.all.findSome? t.fieldFault?).or
    ([Kind.inline, Kind.display].findSome? t.pairFault?)

/-- The characters of a plain name: ASCII letters and digits, the hyphen and the underscore. -/
def isNameChar (c : Char) : Bool :=
  c.isAlphanum || c = '-' || c = '_'

/-- A plain name can stand in an attribute value and in a selector as it is. -/
def isPlainName (value : String) : Bool :=
  !value.toList.isEmpty && value.toList.all isNameChar

/-- What is wrong with one name taken alone. -/
def Settings.nameFault? (s : Settings) (field : NameField) : Option SettingsFault :=
  if isPlainName (s.get field) then none else some (.invalidName field (s.get field))

/-- The two kinds of equation have different classes. -/
def Settings.classFault? (s : Settings) : Option SettingsFault :=
  if s.inlineClass = s.displayClass then some (.invalidName .displayClass s.displayClass)
  else none

/-- The first fault of the settings: of the tokens, of each name, then of the two classes. -/
def Settings.fault? (s : Settings) : Option SettingsFault :=
  (s.tokens.fault?.or (NameField.all.findSome? s.nameFault?)).or s.classFault?

/-- Settings without a fault. -/
structure CheckedSettings extends Settings where
  /-- No fault is found. -/
  valid : toSettings.fault? = none

/-- Checks settings. -/
def Settings.check (s : Settings) : Except SettingsFault CheckedSettings :=
  match h : s.fault? with
  | some fault => .error fault
  | none => .ok ⟨s, h⟩

/-- Tokens of settings without a fault have none either. -/
theorem CheckedSettings.tokens_valid (s : CheckedSettings) : s.tokens.fault? = none := by
  have h := s.valid
  simp only [Settings.fault?, Option.or_eq_none_iff] at h
  exact h.1.1

end MarkedMath
