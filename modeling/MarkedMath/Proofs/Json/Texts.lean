import Mathlib.Data.List.Forall2
import MarkedMath.Text

/-!
# JSON texts

The grammar of JSON, said without its reader. A string may spell each character by itself, by an escape of two
characters where there is one, or by its units of UTF-16 in hexadecimal digits of either case; blanks may stand around
every token; an object may hold its members in any order, and may hold a name twice.

A string that is only passed over is any string of the grammar (`IsAnyString`), also one with half a surrogate pair,
while `IsString s` says that the characters are those of a text `s`.
-/

namespace MarkedMath.Json

/-! ## Blanks -/

/-- Blanks: spaces, line feeds, tabs and carriage returns. -/
def IsBlanks (w : Text) : Prop :=
  ∀ c ∈ w, c ∈ [' ', '\n', '\t', '\r']

/-- A text with blanks around it. -/
def Padded (t s : Text) : Prop :=
  ∃ w w', IsBlanks w ∧ IsBlanks w' ∧ s = w ++ t ++ w'

/-! ## Strings -/

/-- A hexadecimal digit of a value below sixteen, small or capital. -/
def IsHexDigit (n : Nat) (c : Char) : Prop :=
  "0123456789abcdef".toList[n]? = some c ∨ "0123456789ABCDEF".toList[n]? = some c

/-- Four hexadecimal digits that write a unit of UTF-16. -/
def SpellsUnit (u : Nat) (t : Text) : Prop :=
  List.Forall₂ IsHexDigit [u / 4096, u / 256 % 16, u / 16 % 16, u % 16] t

/-- A character in UTF-16: one unit, or the two halves of a surrogate pair. -/
def utf16 (c : Char) : List Nat :=
  if c.toNat < 0x10000 then [c.toNat]
  else [0xD800 + (c.toNat - 0x10000) / 0x400, 0xDC00 + (c.toNat - 0x10000) % 0x400]

/-- The characters that have an escape of two characters, with the second one of these. -/
def shortEscapes : List (Char × Char) :=
  [('\x22', '\x22'), ('\\', '\\'), ('/', '/'), ('\x08', 'b'), ('\x0c', 'f'), ('\n', 'n'), ('\r', 'r'), ('\t', 't')]

/-- A unit behind its backslash. -/
def unitEscape (t : Text) : Text :=
  '\\' :: 'u' :: t

/-- A character that stands in a string as it is. -/
def StandsPlain (c : Char) : Prop :=
  ' ' ≤ c ∧ c ≠ '\x22' ∧ c ≠ '\\'

/-- The spellings of a character inside a string. -/
inductive IsChar (c : Char) : Text → Prop
  | plain (h : StandsPlain c) : IsChar c [c]
  | short {e : Char} (h : (c, e) ∈ shortEscapes) : IsChar c ['\\', e]
  | units {ts : List Text} (h : List.Forall₂ SpellsUnit (utf16 c) ts) : IsChar c (ts.flatMap unitEscape)

/-- What may stand inside a string, whether it makes up a text or not. -/
inductive IsPart : Text → Prop
  | plain {c : Char} (h : StandsPlain c) : IsPart [c]
  | short {c e : Char} (h : (c, e) ∈ shortEscapes) : IsPart ['\\', e]
  | unit {u : Nat} {t : Text} (h : SpellsUnit u t) : IsPart (unitEscape t)

/-- Parts between quotation marks. -/
def quote (parts : List Text) : Text :=
  '\x22' :: (parts.flatten ++ ['\x22'])

/-- The spellings of a text as a string. -/
def IsString (s t : Text) : Prop :=
  ∃ parts, List.Forall₂ IsChar s parts ∧ t = quote parts

/-- The strings of the grammar. -/
def IsAnyString (t : Text) : Prop :=
  ∃ parts, (∀ p ∈ parts, IsPart p) ∧ t = quote parts

/-! ## Numbers -/

/-- One or more decimal digits. -/
def IsDigits (t : Text) : Prop :=
  t ≠ [] ∧ ∀ c ∈ t, c.isDigit = true

/-- Digits without a leading zero, or a zero alone. -/
def IsWhole (t : Text) : Prop :=
  IsDigits t ∧ ∀ rest, t = '0' :: rest → rest = []

/-- What may stand between the whole part of a number and its exponent. -/
inductive IsFraction : Text → Prop
  | absent : IsFraction []
  | point {ds : Text} (h : IsDigits ds) : IsFraction ('.' :: ds)

/-- What may stand at the end of a number. -/
inductive IsExponent : Text → Prop
  | absent : IsExponent []
  | power {e : Char} {sign ds : Text} (he : e = 'e' ∨ e = 'E') (hsign : sign ∈ [[], ['+'], ['-']]) (h : IsDigits ds) :
      IsExponent (e :: (sign ++ ds))

/-- The numbers of the grammar. -/
def IsNumber (t : Text) : Prop :=
  ∃ sign whole fraction exponent, sign ∈ [[], ['-']] ∧ IsWhole whole ∧ IsFraction fraction ∧ IsExponent exponent ∧
    t = sign ++ (whole ++ (fraction ++ exponent))

/-! ## Arrays and objects -/

/-- A text with one part for each entry and commas between the parts. Where there is no entry blanks may stand. -/
inductive Row {α : Type} (One : α → Text → Prop) : List α → Text → Prop
  | none {w : Text} (h : IsBlanks w) : Row One [] w
  | one {a : α} {t : Text} (h : One a t) : Row One [a] t
  | more {a b : α} {as : List α} {t u : Text} (h : One a t) (hrest : Row One (b :: as) u) :
      Row One (a :: b :: as) (t ++ ',' :: u)

/-- An array with these items. -/
def IsArray (items : List Text) (t : Text) : Prop :=
  ∃ inner, Row Padded items inner ∧ t = '[' :: (inner ++ [']'])

/-- A name and a value with a colon between them. -/
def IsMember (m : Text × Text) (t : Text) : Prop :=
  ∃ name value, Padded m.1 name ∧ Padded m.2 value ∧ t = name ++ ':' :: value

/-- An object with these members. -/
def IsObject (members : List (Text × Text)) (t : Text) : Prop :=
  ∃ inner, Row IsMember members inner ∧ t = '\x7b' :: (inner ++ ['\x7d'])

/-- The values of the grammar. -/
inductive IsValue : Text → Prop
  | null : IsValue "null".toList
  | bool (b : Bool) : IsValue (if b then "true" else "false").toList
  | number {t : Text} (h : IsNumber t) : IsValue t
  | string {t : Text} (h : IsAnyString t) : IsValue t
  | array {items : List Text} {t : Text} (hitems : ∀ v ∈ items, IsValue v) (h : IsArray items t) : IsValue t
  | object {members : List (Text × Text)} {t : Text} (hnames : ∀ m ∈ members, IsAnyString m.1)
      (hvalues : ∀ m ∈ members, IsValue m.2) (h : IsObject members t) : IsValue t

end MarkedMath.Json
