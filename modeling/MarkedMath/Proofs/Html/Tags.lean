import MarkedMath.Document
import MarkedMath.Html.Token
import MarkedMath.Proofs.Escaping

/-!
# Tags that were written

The tags that are written for an element are read back as tags of the element: each attribute with its
value, no slash at the end, and nothing of what stands behind (`readMarkup_startTag`, `readMarkup_endTag`).
Attribute values are escaped, so none of them ends before its quotation mark.
-/

namespace MarkedMath.Html

/-- A name of an element in small letters. -/
def IsElementName (tag : String) : Prop :=
  tag.toList ≠ [] ∧ ∀ c ∈ tag.toList, c.isLower = true

/-- A name of an attribute that is read as one, and holds no `<`. -/
def IsAttributeName (name : String) : Prop :=
  name.toList ≠ [] ∧ ∀ c ∈ name.toList, isAttributeChar c = true ∧ c ≠ '<'

instance (tag : String) : Decidable (IsElementName tag) :=
  @instDecidableAnd _ _ _ (List.decidableBAll _ _)

instance (name : String) : Decidable (IsAttributeName name) :=
  @instDecidableAnd _ _ _ (List.decidableBAll _ _)

/-- An attribute as it is read. -/
def Attribute.ofWritten (name : String) (value : Text) : Attribute where
  name := name.toList
  value := value.flatMap escapeQuoted
  raw := name.toList ++ '=' :: '\x22' :: (value.flatMap escapeQuoted ++ ['\x22'])
  lacksValue := false

/-- A start tag as it is read. -/
def Tag.ofWritten (tag : String) (attributes : List (String × Text)) : Tag where
  name := tag.toList
  attributes := attributes.map fun a => .ofWritten a.1 a.2
  selfClosing := false

lemma Tag.lacksValue_ofWritten (tag : String) (attributes : List (String × Text)) :
    (ofWritten tag attributes).lacksValue = false := by
  simp [lacksValue, ofWritten, Attribute.ofWritten]

/-! ## Characters -/

lemma isAlpha_of_isLower {c : Char} (h : c.isLower = true) : c.isAlpha = true := by
  show (c.isUpper || c.isLower) = true
  rw [h, Bool.or_true]

lemma lowerChar_of_isLower {c : Char} (h : c.isLower = true) : Text.lowerChar c = c := by
  refine if_neg fun hc => ?_
  have hle : 'a'.val ≤ c.val := of_decide_eq_true (Bool.and_eq_true_iff.1 h).1
  exact absurd (UInt32.le_trans hle hc.2) (by decide)

lemma ne_of_isLower {c d : Char} (h : c.isLower = true) (hd : d.isLower = false) : c ≠ d := by
  rintro rfl
  rw [h] at hd
  cases hd

lemma isTagChar_of_isLower {c : Char} (h : c.isLower = true) : isTagChar c = true := by
  simp [isTagChar, Text.isBlank, ne_of_isLower h (show '\t'.isLower = false from rfl),
    ne_of_isLower h (show '\n'.isLower = false from rfl), ne_of_isLower h (show '\x0c'.isLower = false from rfl),
    ne_of_isLower h (show '\r'.isLower = false from rfl), ne_of_isLower h (show ' '.isLower = false from rfl),
    ne_of_isLower h (show '/'.isLower = false from rfl), ne_of_isLower h (show '>'.isLower = false from rfl)]

/-- No bracket is written for a character. -/
lemma not_mem_escapeMarkup {c : Char} (hc : c = '<' ∨ c = '>') (d : Char) : c ∉ escapeMarkup d := by
  by_cases hd : d = '&' ∨ d = '<' ∨ d = '>'
  · rcases hd with rfl | rfl | rfl <;> rcases hc with rfl | rfl <;> decide
  · obtain ⟨hamp, hlt, hgt⟩ := not_or.1 hd |>.imp_right not_or.1
    rw [escapeMarkup_of_ne hamp hlt hgt, List.mem_singleton]
    rintro rfl
    exact hc.elim hlt hgt

lemma not_mem_escapeText {c : Char} (hc : c = '<' ∨ c = '>') (t : Text) : c ∉ escapeText t := fun hmem =>
  let ⟨d, _, hd⟩ := List.mem_flatMap.1 hmem
  not_mem_escapeMarkup hc d hd

/-- No quotation mark and no bracket stands in an escaped value. -/
lemma not_mem_escapeQuoted {c : Char} (hc : c = '\x22' ∨ c = '<' ∨ c = '>') (v : Text) :
    c ∉ v.flatMap escapeQuoted := by
  intro hmem
  obtain ⟨d, -, hd⟩ := List.mem_flatMap.1 hmem
  by_cases hquote : d = '\x22'
  · subst hquote
    rcases hc with rfl | rfl | rfl <;> exact absurd hd (by decide)
  rw [escapeQuoted, if_neg hquote] at hd
  rcases hc with rfl | hc
  · by_cases hmarkup : d = '&' ∨ d = '<' ∨ d = '>'
    · rcases hmarkup with rfl | rfl | rfl <;> exact absurd hd (by decide)
    · obtain ⟨hamp, hlt, hgt⟩ := not_or.1 hmarkup |>.imp_right not_or.1
      rw [escapeMarkup_of_ne hamp hlt hgt, List.mem_singleton] at hd
      exact hquote hd.symm
  · exact not_mem_escapeMarkup hc d hd

lemma Tag.element_ofWritten {tag : String} (h : IsElementName tag) (attributes : List (String × Text)) :
    (ofWritten tag attributes).element = tag := by
  rw [element, ofWritten, Text.lower, List.map_congr_left fun c hc => lowerChar_of_isLower (h.2 c hc)]
  simp

/-! ## Attributes -/

lemma readQuoted?_append {quote : Char} {v : Text} (h : quote ∉ v) (rest : Text) :
    readQuoted? quote (v ++ quote :: rest) = some (v, rest) := by
  induction v with
  | nil => simp [readQuoted?]
  | cons c v ih =>
    rw [List.mem_cons, not_or] at h
    rw [List.cons_append, readQuoted?, if_neg (Ne.symm h.1), ih h.2]
    rfl

lemma spelling_append_right (s rest : Text) : spelling (s ++ rest) rest = s := by
  simp [spelling]

/-- An attribute is read up to the quotation mark at its end. -/
lemma Attribute.read?_written {name : String} (h : IsAttributeName name) (value rest : Text) :
    ∃ c s, name.toList ++ '=' :: '\x22' :: (value.flatMap escapeQuoted ++ '\x22' :: rest) = c :: s ∧
      isAttributeChar c = true ∧ Attribute.read? c s = some (.ofWritten name value, rest) := by
  obtain ⟨hne, hchars⟩ := h
  obtain ⟨c, s, hname⟩ := List.exists_cons_of_ne_nil hne
  rw [hname] at hchars
  refine ⟨c, _, by rw [hname, List.cons_append], (hchars c (List.mem_cons_self ..)).1, ?_⟩
  have hs : ∀ d ∈ s, isAttributeChar d = true := fun d hd => (hchars d (List.mem_cons_of_mem c hd)).1
  have htake : (s ++ '=' :: '\x22' :: (value.flatMap escapeQuoted ++ '\x22' :: rest)).takeWhile
      isAttributeChar = s := by
    rw [List.takeWhile_append_of_pos hs]
    simp [isAttributeChar]
  have hdrop : (s ++ '=' :: '\x22' :: (value.flatMap escapeQuoted ++ '\x22' :: rest)).dropWhile
      isAttributeChar = '=' :: '\x22' :: (value.flatMap escapeQuoted ++ '\x22' :: rest) := by
    rw [List.dropWhile_append_of_pos hs]
    simp [isAttributeChar]
  have hvalue : readValue? ('\x22' :: (value.flatMap escapeQuoted ++ '\x22' :: rest)) =
      some (some (value.flatMap escapeQuoted), rest) := by
    simp [readValue?, Text.isBlank, readQuoted?_append (not_mem_escapeQuoted (Or.inl rfl) value)]
  have hraw : spelling (c :: (s ++ '=' :: '\x22' :: (value.flatMap escapeQuoted ++ '\x22' :: rest))) rest =
      name.toList ++ '=' :: '\x22' :: (value.flatMap escapeQuoted ++ ['\x22']) := by
    rw [hname, ← spelling_append_right (c :: s ++ '=' :: '\x22' :: (value.flatMap escapeQuoted ++ ['\x22'])) rest]
    simp
  simp only [read?, htake, hdrop]
  simp [Text.isBlank, hvalue, hraw, ofWritten, hname]

lemma isTagChar_of_isAttributeChar {c : Char} (h : isAttributeChar c = true) : isTagChar c = true := by
  simp only [isAttributeChar, Bool.not_eq_true', Bool.or_eq_false_iff] at h
  simp [isTagChar, h.1]

/-- An attribute stands where no tag ends. -/
lemma readAttributes?_attribute {c : Char} {s rest : Text} {a : Attribute} (hc : isTagChar c = true)
    (h : Attribute.read? c s = some (a, rest)) :
    readAttributes? (c :: s) = (readAttributes? rest).map fun (attributes, tail) => (a :: attributes, tail) := by
  simp only [isTagChar, Bool.not_eq_true', Bool.or_eq_false_iff, decide_eq_false_iff_not] at hc
  obtain ⟨⟨hblank, hslash⟩, hclose⟩ := hc
  rw [readAttributes?.eq_def]
  simp only [hclose, hblank, hslash, if_false, Bool.false_eq_true]
  split
  · next hnone => simp [h] at hnone
  · next a' rest' hsome =>
    obtain ⟨rfl, rfl⟩ := Prod.mk.inj (Option.some_inj.1 (h.symm.trans hsome))
    rfl

/-- The attributes of a start tag as they are written. -/
def writtenAttributes (attributes : List (String × Text)) : Text :=
  attributes.flatMap fun a => ' ' :: (a.1.toList ++ '=' :: '\x22' :: (a.2.flatMap escapeQuoted ++ ['\x22']))

lemma startTag_eq (tag : String) (attributes : List (String × Text)) :
    Forest.startTag Document.markupStyle tag attributes =
      '<' :: (tag.toList ++ (writtenAttributes attributes ++ ['>'])) := by
  simp [Forest.startTag, writtenAttributes, Document.markupStyle]

lemma readAttributes?_written {attributes : List (String × Text)}
    (h : ∀ a ∈ attributes, IsAttributeName a.1) (rest : Text) :
    readAttributes? (writtenAttributes attributes ++ '>' :: rest) =
      some (attributes.map fun a => .ofWritten a.1 a.2, false, rest) := by
  induction attributes with
  | nil =>
    rw [readAttributes?.eq_def]
    rfl
  | cons a attributes ih =>
    obtain ⟨c, s, hchars, hc, hread⟩ := Attribute.read?_written (h a (List.mem_cons_self ..)) a.2
      (writtenAttributes attributes ++ '>' :: rest)
    have hwritten : writtenAttributes (a :: attributes) ++ '>' :: rest = ' ' :: c :: s := by
      rw [← hchars]
      simp [writtenAttributes]
    have hblank : readAttributes? (' ' :: c :: s) = readAttributes? (c :: s) := by
      rw [readAttributes?.eq_def]
      rfl
    rw [hwritten, hblank, readAttributes?_attribute (isTagChar_of_isAttributeChar hc) hread,
      ih fun b hb => h b (List.mem_cons_of_mem a hb)]
    rfl

/-! ## Tags -/

lemma Tag.read?_written {tag : String} {attributes : List (String × Text)} (htag : IsElementName tag)
    (h : ∀ a ∈ attributes, IsAttributeName a.1) (rest : Text) :
    Tag.read? (tag.toList ++ (writtenAttributes attributes ++ '>' :: rest)) =
      some (.ofWritten tag attributes, rest) := by
  have hname : ∀ c ∈ tag.toList, isTagChar c = true := fun c hc => isTagChar_of_isLower (htag.2 c hc)
  have hend : ∃ c s, writtenAttributes attributes ++ '>' :: rest = c :: s ∧ isTagChar c = false := by
    cases attributes with
    | nil => exact ⟨'>', rest, rfl, rfl⟩
    | cons a attributes => exact ⟨' ', _, by rw [writtenAttributes, List.flatMap_cons]; rfl, rfl⟩
  obtain ⟨c, s, hwritten, hc⟩ := hend
  have hattributes := readAttributes?_written h rest
  rw [hwritten] at hattributes ⊢
  rw [read?, List.dropWhile_append_of_pos hname, List.takeWhile_append_of_pos hname]
  simp [hc, hattributes, ofWritten]

/-- A start tag is read from behind its bracket. -/
lemma readMarkup_startTag {tag : String} {attributes : List (String × Text)} (htag : IsElementName tag)
    (h : ∀ a ∈ attributes, IsAttributeName a.1) (sections : Bool) (rest : Text) :
    readMarkup sections (tag.toList ++ (writtenAttributes attributes ++ '>' :: rest)) =
      (.start (.ofWritten tag attributes), rest) := by
  have hread := Tag.read?_written htag h rest
  obtain ⟨hne, hletters⟩ := htag
  obtain ⟨c, s, hname⟩ := List.exists_cons_of_ne_nil hne
  have hc : c.isLower = true := hletters c (hname ▸ List.mem_cons_self ..)
  rw [hname, List.cons_append] at hread ⊢
  simp only [readMarkup, if_neg (ne_of_isLower hc (show '/'.isLower = false from rfl)), isAlpha_of_isLower hc,
    if_true, hread]

/-- An end tag is read from behind its bracket. -/
lemma readMarkup_endTag {tag : String} (htag : IsElementName tag) (sections : Bool) (rest : Text) :
    readMarkup sections ('/' :: (tag.toList ++ '>' :: rest)) = (.stop (.ofWritten tag []), rest) := by
  have hread : Tag.read? (tag.toList ++ (writtenAttributes [] ++ '>' :: rest)) = some (.ofWritten tag [], rest) :=
    Tag.read?_written htag (by simp) rest
  obtain ⟨hne, hletters⟩ := htag
  obtain ⟨c, s, hname⟩ := List.exists_cons_of_ne_nil hne
  have hc : c.isLower = true := hletters c (hname ▸ List.mem_cons_self ..)
  rw [writtenAttributes, List.flatMap_nil, List.nil_append, hname, List.cons_append] at hread
  rw [hname, List.cons_append]
  simp only [readMarkup, isAlpha_of_isLower hc, if_true, hread]

end MarkedMath.Html
