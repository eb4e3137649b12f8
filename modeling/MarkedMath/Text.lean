/-!
# Text

Texts are lists of characters, so that every rule of the library is a rule on lists. This module
holds what the rest of the library asks of a text: its length in UTF-8 bytes, the occurrences of a
token, the words between ASCII blanks, and the removal of blanks at both ends.
-/

namespace MarkedMath

/-- A text is the list of its characters. -/
abbrev Text := List Char

namespace Text

/-- The number of bytes of the text in UTF-8. -/
def byteLength : Text → Nat
  | [] => 0
  | c :: s => c.utf8Size + byteLength s

@[simp] theorem byteLength_nil : byteLength [] = 0 := rfl

@[simp] theorem byteLength_cons (c : Char) (s : Text) :
    byteLength (c :: s) = c.utf8Size + byteLength s := rfl

@[simp] theorem byteLength_append (s t : Text) :
    byteLength (s ++ t) = byteLength s + byteLength t := by
  induction s with
  | nil => simp
  | cons c s ih => simp [ih, Nat.add_assoc]

/-- Splits the text at the first character boundary that lies `bytes` or more bytes into it. -/
def splitAtByte (bytes : Nat) : Text → Text × Text
  | [] => ([], [])
  | c :: s =>
    if bytes = 0 then ([], c :: s)
    else
      let (before, after) := splitAtByte (bytes - c.utf8Size) s
      (c :: before, after)

/-- The rest of the text after a token at its head, or `none` when it does not start so. -/
def afterToken? : (token s : Text) → Option Text
  | [], s => some s
  | _ :: _, [] => none
  | t :: token, c :: s => if t = c then afterToken? token s else none

/-- A text starts with a token exactly when it is the token followed by the rest. -/
theorem afterToken?_eq_some_iff {token s rest : Text} :
    afterToken? token s = some rest ↔ s = token ++ rest := by
  induction token generalizing s with
  | nil => simp [afterToken?, eq_comm]
  | cons t token ih =>
    cases s with
    | nil => simp [afterToken?]
    | cons c s =>
      by_cases h : t = c
      · simp [afterToken?, h, ih]
      · simp [afterToken?, h, Ne.symm h]

/-- The walk behind `occurrences`: `index` characters lie behind, and the next `busy` characters
belong to the occurrence found last. -/
def occurrencesFrom (token : Text) : (index busy : Nat) → Text → List Nat
  | _, _, [] => []
  | index, busy + 1, _ :: s => occurrencesFrom token (index + 1) busy s
  | index, 0, c :: s =>
    if (afterToken? token (c :: s)).isSome then
      index :: occurrencesFrom token (index + 1) (token.length - 1) s
    else
      occurrencesFrom token (index + 1) 0 s

/-- The positions, in characters, of the occurrences of a non-empty token. The text is read from
left to right and an occurrence starts only after the end of the one before it. -/
def occurrences (token s : Text) : List Nat :=
  occurrencesFrom token 0 0 s

/-- Whether the token occurs in the text. -/
def mentions (token : Text) : Text → Bool
  | [] => token.isEmpty
  | c :: s => (afterToken? token (c :: s)).isSome || mentions token s

/-- The longest text that both texts start with. -/
def commonStart : Text → Text → Text
  | a :: s, b :: t => if a = b then a :: commonStart s t else []
  | _, _ => []

/-! ## Blanks and words -/

/-- The blanks between class names: tab, line feed, form feed, carriage return and space. -/
def isBlank (c : Char) : Bool :=
  c = '\t' || c = '\n' || c = '\x0c' || c = '\r' || c = ' '

/-- The walk behind `words`: `word` is the word read so far, last character first. -/
def wordsFrom (word : Text) : Text → List Text
  | [] => if word.isEmpty then [] else [word.reverse]
  | c :: s =>
    if isBlank c then
      if word.isEmpty then wordsFrom [] s else word.reverse :: wordsFrom [] s
    else
      wordsFrom (c :: word) s

/-- The maximal runs of characters that are no blanks. -/
def words (s : Text) : List Text :=
  wordsFrom [] s

/-- The words joined by one space each. -/
def unwords (ws : List Text) : Text :=
  [' '].intercalate ws

/-- The characters with the Unicode property `White_Space`. -/
def isSpace (c : Char) : Bool :=
  let n := c.toNat
  (9 ≤ n && n ≤ 13) || n = 0x20 || n = 0x85 || n = 0xA0 || n = 0x1680 ||
    (0x2000 ≤ n && n ≤ 0x200A) || n = 0x2028 || n = 0x2029 || n = 0x202F || n = 0x205F ||
    n = 0x3000

/-- The text without the Unicode white space at its two ends. -/
def trim (s : Text) : Text :=
  ((s.dropWhile isSpace).reverse.dropWhile isSpace).reverse

/-! ## Case -/

/-- The character with an ASCII capital letter made small. -/
def lowerChar (c : Char) : Char :=
  if 'A' ≤ c ∧ c ≤ 'Z' then Char.ofNat (c.toNat + 32) else c

/-- The text with its ASCII capital letters made small. -/
def lower (s : Text) : Text :=
  s.map lowerChar

end Text

/-- The name with its ASCII capital letters made small. -/
def lowerName (s : String) : String :=
  String.ofList (Text.lower s.toList)

end MarkedMath
