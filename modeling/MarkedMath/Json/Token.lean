import MarkedMath.Json.Number

/-!
# Tokens of JSON texts

The text is cut into punctuation, words, numbers and strings. The first token that is broken is the
last one: it carries the fault that ends the reading of the text.
-/

namespace MarkedMath.Json

/-- A token. -/
inductive Token where
  | arrayOpen
  | arrayClose
  | objectOpen
  | objectClose
  | comma
  | colon
  /-- A word or a number, with the fault met even when it is merely skipped. -/
  | leaf (value : Value) (cut : Option Fault)
  /-- A string, with the fault met even when it is merely skipped. -/
  | string (content : Except Fault Text) (cut : Option Fault)
  /-- A character that begins no token. -/
  | junk

/-! ## Strings -/

/-- What was read of the content of a string. -/
structure Content where
  /-- The characters, the last one first. -/
  chars : Text := []
  /-- The first half of a surrogate pair whose second half has to follow. -/
  high : Option Nat := none
  /-- Whether the halves of surrogates met so far make up pairs. -/
  sound : Bool := true

namespace Content

/-- One more character. -/
def push (content : Content) (c : Char) : Content :=
  match content.high with
  | none => { content with chars := c :: content.chars }
  | some _ => { content with sound := false }

/-- One more unit of UTF-16. -/
def unit (content : Content) (u : Nat) : Content :=
  let isHigh := 0xD800 ≤ u ∧ u ≤ 0xDBFF
  let isLow := 0xDC00 ≤ u ∧ u ≤ 0xDFFF
  match content.high with
  | some h =>
    if isLow then
      let c := Char.ofNat (0x10000 + (h - 0xD800) * 0x400 + (u - 0xDC00))
      { content with chars := c :: content.chars, high := none }
    else { content with sound := false }
  | none =>
    if isLow then { content with sound := false }
    else if isHigh then { content with high := some u }
    else content.push (Char.ofNat u)

/-- The content of a closed string. -/
def closed (content : Content) : Except Fault Text :=
  if content.sound && content.high.isNone then .ok content.chars.reverse else .error .malformed

/-- The fault of a string that breaks off: halves of surrogates without their counterpart were met
before. -/
def broken (content : Content) (fault : Fault) : Except Fault Text :=
  .error (if content.sound then fault else .malformed)

end Content

/-- The value of a hexadecimal digit. -/
def hexDigit? (c : Char) : Option Nat :=
  if '0' ≤ c ∧ c ≤ '9' then some (c.toNat - 48)
  else if 'a' ≤ c ∧ c ≤ 'f' then some (c.toNat - 87)
  else if 'A' ≤ c ∧ c ≤ 'F' then some (c.toNat - 55)
  else none

/-- The unit of UTF-16 that four hexadecimal digits write. -/
def unit? (a b c d : Char) : Option Nat := do
  let a ← hexDigit? a
  let b ← hexDigit? b
  let c ← hexDigit? c
  let d ← hexDigit? d
  return ((a * 16 + b) * 16 + c) * 16 + d

/-- The character that an escape of two characters stands for. -/
def escaped? : Char → Option Char
  | '\x22' => some '\x22'
  | '\\' => some '\\'
  | '/' => some '/'
  | 'b' => some '\x08'
  | 'f' => some '\x0c'
  | 'n' => some '\n'
  | 'r' => some '\r'
  | 't' => some '\t'
  | _ => none

/-- Reads a string from behind its first quotation mark: its content, and the text behind it or the
fault met even when it is merely skipped. -/
def readString (content : Content) : Text → Except Fault Text × Except Fault Text
  | [] => (content.broken .unfinished, .error .unfinished)
  | '\\' :: [] => (content.broken .unfinished, .error .unfinished)
  | '\\' :: 'u' :: a :: b :: c :: d :: rest =>
    match unit? a b c d with
    | some u => readString (content.unit u) rest
    | none => (.error .malformed, .error .malformed)
  | '\\' :: 'u' :: short =>
    let fault := if Text.byteLength short < 4 then Fault.unfinished else .malformed
    (content.broken fault, .error fault)
  | '\\' :: c :: rest =>
    match escaped? c with
    | some e => readString (content.push e) rest
    | none => (.error .malformed, .error .malformed)
  | c :: rest =>
    if c = '\x22' then (content.closed, .ok rest)
    else if c < ' ' then (.error .malformed, .error .malformed)
    else readString (content.push c) rest

theorem length_readString_lt {content : Content} {s rest : Text}
    (h : (readString content s).2 = .ok rest) : rest.length < s.length := by
  fun_induction readString content s with
  | case1 => simp at h
  | case2 => simp at h
  | case3 _ _ _ _ _ _ _ _ ih => have := ih h; simp only [List.length_cons]; omega
  | case4 => simp at h
  | case5 => simp at h
  | case6 _ _ _ _ _ _ _ ih => have := ih h; simp only [List.length_cons]; omega
  | case7 => simp at h
  | case8 => simp_all
  | case9 => simp at h
  | case10 _ _ _ _ _ _ _ _ _ ih => have := ih h; simp only [List.length_cons]; omega

/-! ## Words -/

/-- Reads the letters of a word that begins as announced. A word that breaks off may still be
finished by more text. -/
def readWord (value : Value) : (letters s : Text) → Token × Text
  | [], rest => (.leaf value none, rest)
  | _ :: _, [] => (.leaf (.junk .unfinished) (some .unfinished), [])
  | l :: letters, c :: s =>
    if l = c then readWord value letters s
    else (.leaf (.junk .malformed) (some .malformed), [])

theorem length_readWord_le (value : Value) (letters s : Text) :
    (readWord value letters s).2.length ≤ s.length := by
  induction letters generalizing s with
  | nil => simp [readWord]
  | cons l letters ih =>
    cases s with
    | nil => simp [readWord]
    | cons c s =>
      simp only [readWord]
      split
      · have := ih s
        simp only [List.length_cons]
        omega
      · simp

/-! ## The tokens of a text -/

/-- Reads a number from behind its sign. -/
def readNumber (negative : Bool) (s : Text) : Token × Text :=
  match Lexeme.read negative s with
  | .ok (lexeme, rest) => (.leaf (.number lexeme.value) none, rest)
  | .error fault => (.leaf (.number (.error fault)) (some .malformed), [])

theorem length_readNumber_le (negative : Bool) (s : Text) :
    (readNumber negative s).2.length ≤ s.length := by
  unfold readNumber
  split
  · next h => exact Nat.le_of_lt (Lexeme.length_read_lt h)
  · simp

/-- The token that begins with a character, and the text behind it. -/
def readToken (c : Char) (s : Text) : Token × Text :=
  match c with
  | '[' => (.arrayOpen, s)
  | ']' => (.arrayClose, s)
  | '\x7b' => (.objectOpen, s)
  | '\x7d' => (.objectClose, s)
  | ',' => (.comma, s)
  | ':' => (.colon, s)
  | 'n' => readWord .null ['u', 'l', 'l'] s
  | 't' => readWord (.bool true) ['r', 'u', 'e'] s
  | 'f' => readWord (.bool false) ['a', 'l', 's', 'e'] s
  | '-' => readNumber true s
  | _ =>
    if c = '\x22' then
      match readString {} s with
      | (content, .ok rest) => (.string content none, rest)
      | (content, .error fault) => (.string content (some fault), [])
    else if c.isDigit then
      match Lexeme.read false (c :: s) with
      | .ok (lexeme, rest) => (.leaf (.number lexeme.value) none, rest)
      | .error fault => (.leaf (.number (.error fault)) (some .malformed), [])
    else (.junk, [])

theorem length_readToken_le (c : Char) (s : Text) : (readToken c s).2.length ≤ s.length := by
  unfold readToken
  split
  all_goals first
    | exact Nat.le_refl _
    | exact length_readWord_le ..
    | exact length_readNumber_le ..
    | skip
  split
  · split
    · next h =>
      exact Nat.le_of_lt (length_readString_lt (by rw [h]))
    · simp
  · split
    · split
      · next h =>
        have := Lexeme.length_read_lt h
        simp only [List.length_cons] at this
        exact Nat.le_of_lt_succ this
      · simp
    · simp

/-- The blanks between tokens. -/
def isBlank (c : Char) : Bool :=
  c = ' ' || c = '\n' || c = '\t' || c = '\r'

/-- The tokens of a text, up to the first one that is broken. -/
def tokens : Text → List Token
  | [] => []
  | c :: s =>
    if isBlank c then tokens s
    else
      have := length_readToken_le c s
      (readToken c s).1 :: tokens (readToken c s).2
termination_by s => s.length
decreasing_by
  all_goals simp only [List.length_cons]; omega

end MarkedMath.Json
