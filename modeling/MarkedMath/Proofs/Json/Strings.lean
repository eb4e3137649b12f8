import MarkedMath.Json.Token
import MarkedMath.Proofs.Json.Texts

/-!
# Reading strings

Every spelling of a text as a string is read as that text (`tokens_isString`), and every string of the grammar is
passed over to its end (`exists_tokens_isAnyString`).
-/

namespace MarkedMath.Json

variable {c : Char} {s t : Text} {n u : Nat}

/-! ## Escapes -/

lemma hexDigit?_of_isHexDigit (h : IsHexDigit n c) : n < 16 ∧ hexDigit? c = some n := by
  have hsmall : ∀ m < 16, ("0123456789abcdef".toList[m]?).bind hexDigit? = some m := by decide
  have hcapital : ∀ m < 16, ("0123456789ABCDEF".toList[m]?).bind hexDigit? = some m := by decide
  rcases h with h | h
  · have hn : n < 16 := (List.getElem?_eq_some_iff.1 h).1
    have hread := hsmall n hn
    rw [h, Option.bind_some] at hread
    exact ⟨hn, hread⟩
  · have hn : n < 16 := (List.getElem?_eq_some_iff.1 h).1
    have hread := hcapital n hn
    rw [h, Option.bind_some] at hread
    exact ⟨hn, hread⟩

/-- Four digits that write a unit are read as the unit. -/
lemma exists_unit? (h : SpellsUnit u t) : ∃ a b c d, t = [a, b, c, d] ∧ unit? a b c d = some u := by
  obtain ⟨a, _, ha, h₁, rfl⟩ := List.forall₂_cons_left_iff.1 h
  obtain ⟨b, _, hb, h₂, rfl⟩ := List.forall₂_cons_left_iff.1 h₁
  obtain ⟨c, _, hc, h₃, rfl⟩ := List.forall₂_cons_left_iff.1 h₂
  obtain ⟨d, _, hd, h₄, rfl⟩ := List.forall₂_cons_left_iff.1 h₃
  obtain rfl := List.forall₂_nil_left_iff.1 h₄
  refine ⟨a, b, c, d, rfl, ?_⟩
  simp only [unit?, (hexDigit?_of_isHexDigit ha).2, (hexDigit?_of_isHexDigit hb).2, (hexDigit?_of_isHexDigit hc).2,
    (hexDigit?_of_isHexDigit hd).2, Option.bind_eq_bind, Option.bind_some]
  congr 1
  omega

lemma escaped?_of_mem {e : Char} (h : (c, e) ∈ shortEscapes) : e ≠ 'u' ∧ escaped? e = some c := by
  have hall : ∀ p ∈ shortEscapes, p.2 ≠ 'u' ∧ escaped? p.2 = some p.1 := by decide
  exact hall (c, e) h

/-! ## Steps of the reader -/

section Steps

variable (content : Content) (rest : Text)

lemma readString_quote : readString content ('\x22' :: rest) = (content.closed, .ok rest) := by
  simp [readString]

lemma readString_plain (h : StandsPlain c) : readString content (c :: rest) = readString (content.push c) rest := by
  obtain ⟨hlow, hquote, hbackslash⟩ := h
  have hnot : ¬ c < ' ' := Char.not_lt.2 hlow
  rw [readString.eq_def]
  split <;> grind

lemma readString_short {e : Char} (h : (c, e) ∈ shortEscapes) :
    readString content ('\\' :: e :: rest) = readString (content.push c) rest := by
  obtain ⟨hne, hescaped⟩ := escaped?_of_mem h
  rw [readString.eq_def]
  split <;> grind

lemma readString_unit (h : SpellsUnit u t) :
    readString content (unitEscape t ++ rest) = readString (content.unit u) rest := by
  obtain ⟨a, b, c, d, rfl, hunit⟩ := exists_unit? h
  simp only [unitEscape, List.cons_append, List.nil_append]
  rw [readString, hunit]

end Steps

/-! ## Characters of a text -/

lemma Content.unit_of_lt {content : Content} (h : content.high = none) (hc : c.toNat < 0x10000) :
    content.unit c.toNat = content.push c := by
  have hvalid : c.toNat < 0xD800 ∨ 0xDFFF < c.toNat ∧ c.toNat < 0x110000 := c.valid
  have hlow : ¬ (0xDC00 ≤ c.toNat ∧ c.toNat ≤ 0xDFFF) := by omega
  have hhigh : ¬ (0xD800 ≤ c.toNat ∧ c.toNat ≤ 0xDBFF) := by omega
  simp [Content.unit, h, hlow, hhigh]

lemma Content.unit_unit {content : Content} (h : content.high = none) (hc : ¬ c.toNat < 0x10000) :
    (content.unit (0xD800 + (c.toNat - 0x10000) / 0x400)).unit (0xDC00 + (c.toNat - 0x10000) % 0x400) =
      content.push c := by
  have hvalid : c.toNat < 0xD800 ∨ 0xDFFF < c.toNat ∧ c.toNat < 0x110000 := c.valid
  generalize hhalf : (c.toNat - 0x10000) / 0x400 = high
  generalize hrest : (c.toNat - 0x10000) % 0x400 = low
  have hlow : 0xDC00 ≤ 0xDC00 + low ∧ 0xDC00 + low ≤ 0xDFFF := by omega
  have hnot : ¬ (0xDC00 ≤ 0xD800 + high ∧ 0xD800 + high ≤ 0xDFFF) := by omega
  have hhigh : 0xD800 ≤ 0xD800 + high ∧ 0xD800 + high ≤ 0xDBFF := by omega
  have hback : 0x10000 + (0xD800 + high - 0xD800) * 0x400 + (0xDC00 + low - 0xDC00) = c.toNat := by omega
  have hfirst : content.unit (0xD800 + high) = { content with high := some (0xD800 + high) } := by
    simp only [Content.unit, h, if_neg hnot, if_pos hhigh]
  rw [hfirst]
  simp only [Content.unit, if_pos hlow, hback, Char.ofNat_toNat, Content.push, h]

/-- Whichever way a character is spelled, it is read as this character. -/
lemma readString_isChar {content : Content} (hhigh : content.high = none) (h : IsChar c t) (rest : Text) :
    readString content (t ++ rest) = readString (content.push c) rest := by
  cases h with
  | plain h => exact readString_plain content rest h
  | short h => exact readString_short content rest h
  | @units ts h =>
    rw [utf16] at h
    split at h
    · next hc =>
      obtain ⟨t, _, hunit, h₁, rfl⟩ := List.forall₂_cons_left_iff.1 h
      obtain rfl := List.forall₂_nil_left_iff.1 h₁
      rw [List.flatMap_singleton, readString_unit content rest hunit, Content.unit_of_lt hhigh hc]
    · next hc =>
      obtain ⟨t, _, hfirst, h₁, rfl⟩ := List.forall₂_cons_left_iff.1 h
      obtain ⟨t', _, hsecond, h₂, rfl⟩ := List.forall₂_cons_left_iff.1 h₁
      obtain rfl := List.forall₂_nil_left_iff.1 h₂
      have hflat : [t, t'].flatMap unitEscape ++ rest = unitEscape t ++ (unitEscape t' ++ rest) := by simp
      rw [hflat, readString_unit _ _ hfirst, readString_unit _ _ hsecond, Content.unit_unit hhigh hc]

/-- The characters read before stay below those of the text. -/
lemma readString_isChars {content : Content} {parts : List Text} (hhigh : content.high = none)
    (hsound : content.sound = true) (h : List.Forall₂ IsChar s parts) (rest : Text) :
    readString content (parts.flatten ++ '\x22' :: rest) = (.ok (content.chars.reverse ++ s), .ok rest) := by
  induction h generalizing content with
  | nil => simp [readString_quote, Content.closed, hhigh, hsound]
  | @cons c t s parts hc _ ih =>
    have hpush : content.push c = { content with chars := c :: content.chars } := by simp [Content.push, hhigh]
    have hhigh' : (content.push c).high = none := by rw [hpush, hhigh]
    have hsound' : (content.push c).sound = true := by rw [hpush, hsound]
    rw [List.flatten_cons, List.append_assoc, readString_isChar hhigh hc, ih hhigh' hsound', hpush]
    simp

/-! ## Strings that are passed over -/

/-- What is read of the parts does not depend on the text behind them. -/
lemma exists_readString_isParts {parts : List Text} (h : ∀ p ∈ parts, IsPart p) (content : Content) :
    ∃ read, ∀ rest, readString content (parts.flatten ++ '\x22' :: rest) = (read, .ok rest) := by
  induction parts generalizing content with
  | nil => exact ⟨content.closed, fun rest => readString_quote content rest⟩
  | cons p parts ih =>
    obtain ⟨content', hp⟩ : ∃ content', ∀ rest, readString content (p ++ rest) = readString content' rest := by
      cases h p (List.mem_cons_self ..) with
      | plain hc => exact ⟨_, fun rest => readString_plain content rest hc⟩
      | short hc => exact ⟨_, fun rest => readString_short content rest hc⟩
      | unit hu => exact ⟨_, fun rest => readString_unit content rest hu⟩
    obtain ⟨read, hparts⟩ := ih (fun q hq => h q (List.mem_cons_of_mem p hq)) content'
    refine ⟨read, fun rest => ?_⟩
    rw [List.flatten_cons, List.append_assoc, hp, hparts]

/-! ## Tokens -/

lemma tokens_quote {parts : List Text} {content : Except Fault Text} {rest : Text}
    (h : readString {} (parts.flatten ++ '\x22' :: rest) = (content, .ok rest)) :
    tokens (quote parts ++ rest) = .string content none :: tokens rest := by
  have htoken : readToken '\x22' (parts.flatten ++ '\x22' :: rest) = (.string content none, rest) := by
    simp [readToken, h]
  simp only [quote, List.cons_append, List.append_assoc, List.nil_append]
  rw [tokens, if_neg (by decide), htoken]

/-- A text that is spelled as a string is one token, with this text for its content. -/
lemma tokens_isString (h : IsString s t) (rest : Text) :
    tokens (t ++ rest) = .string (.ok s) none :: tokens rest := by
  obtain ⟨parts, hparts, rfl⟩ := h
  exact tokens_quote (readString_isChars rfl rfl hparts rest)

/-- Every string is one token. -/
lemma exists_tokens_isAnyString (h : IsAnyString t) :
    ∃ content, ∀ rest, tokens (t ++ rest) = .string content none :: tokens rest := by
  obtain ⟨parts, hparts, rfl⟩ := h
  obtain ⟨content, hread⟩ := exists_readString_isParts hparts {}
  exact ⟨content, fun rest => tokens_quote (hread rest)⟩

end MarkedMath.Json
