import Mathlib.Data.List.Chain
import MarkedMath.Html.Edit
import MarkedMath.Proofs.ClassWords
import MarkedMath.Proofs.Html.Steps

/-!
# Tags that are written anew

A tag with a changed class attribute is written from its parts, with one blank in front of each attribute. To be
read again as the tag that was meant, no attribute may take up the next one: behind a name without a value an
equals sign would be read as if a value came (`Apart`). Then the tag is read as its parts
(`Tag.readMarkup_write`), but an equals sign that no value follows is gone (`Tag.respelled`).

The attributes besides the classes (`Tag.others`) stay the same from change to change. This is why a condition on
them is all that changes need (`Tag.Editable`).
-/

namespace MarkedMath.Html

section Values

variable {u value : Text}

/-- A text that ends a name or a value without quotation marks. -/
def Stops (u : Text) : Prop :=
  ∃ c ∈ u.head?, isBareChar c = false

lemma Stops.takeWhile {p : Char → Bool} (h : Stops u) (hp : ∀ c, isBareChar c = false → p c = false)
    (hvalue : ∀ c ∈ value, p c = true) :
    (value ++ u).takeWhile p = value ∧ (value ++ u).dropWhile p = u := by
  obtain ⟨c, hc, hbare⟩ := h
  obtain ⟨u, rfl⟩ := List.head?_eq_some_iff.1 hc
  have hstop : p c = false := hp c hbare
  rw [List.takeWhile_append_of_pos hvalue, List.dropWhile_append_of_pos hvalue]
  simp [hstop]

lemma isAttributeChar_of_not_bare {c : Char} (h : isBareChar c = false) : isAttributeChar c = false := by
  simp only [isBareChar, Bool.not_eq_false', Bool.or_eq_true] at h
  rcases h with h | h <;> simp [isAttributeChar, h]

lemma isTagChar_of_not_bare {c : Char} (h : isBareChar c = false) : isTagChar c = false := by
  simp only [isBareChar, Bool.not_eq_false', Bool.or_eq_true] at h
  rcases h with h | h <;> simp [isTagChar, h]

lemma readValue?_blanks {blanks : Text} (h : ∀ c ∈ blanks, Text.isBlank c = true) (s : Text) :
    readValue? (blanks ++ s) = readValue? s := by
  rw [readValue?, readValue?, List.dropWhile_append_of_pos h]

lemma readValue?_quoted {quote : Char} (hquote : quote = '\x22' ∨ quote = '\x27') (hvalue : quote ∉ value)
    (u : Text) : readValue? (quote :: (value ++ quote :: u)) = some (some value, u) := by
  rcases hquote with rfl | rfl <;> simp [readValue?, Text.isBlank, readQuoted?_append hvalue]

lemma readValue?_bare {c : Char} (hc : c ≠ '\x22' ∧ c ≠ '\x27') (hvalue : ∀ d ∈ c :: value, isBareChar d = true)
    (hu : Stops u) : readValue? (c :: value ++ u) = some (some (c :: value), u) := by
  obtain ⟨htake, hdrop⟩ := hu.takeWhile (fun _ h => h) hvalue
  have hbare := hvalue c List.mem_cons_self
  simp only [isBareChar, Bool.not_eq_true', Bool.or_eq_false_iff, decide_eq_false_iff_not] at hbare
  rw [List.cons_append] at htake hdrop ⊢
  rw [readValue?, List.dropWhile_cons_of_neg (by simp [hbare.1])]
  simp only [if_neg hbare.2, hc.1, hc.2, decide_false, Bool.or_self, Bool.false_eq_true, if_false, htake, hdrop]

/-- A value is read from its spelling wherever a value can end behind it. -/
lemma exists_of_readValue? {s rest : Text} (h : readValue? s = some (some value, rest)) :
    ∃ x, s = x ++ rest ∧ ∀ u, Stops u → readValue? (x ++ u) = some (some value, u) := by
  have hblanks : ∀ c ∈ s.takeWhile Text.isBlank, Text.isBlank c = true := fun c hc => List.mem_takeWhile_imp hc
  have hwhole := List.takeWhile_append_dropWhile (p := Text.isBlank) (l := s)
  have hfirst := List.head?_dropWhile_not Text.isBlank s
  -- the blanks in front of the value are read with it
  have hsplit : ∀ y, s.dropWhile Text.isBlank = y ++ rest →
      (∀ u, Stops u → readValue? (y ++ u) = some (some value, u)) →
        ∃ x, s = x ++ rest ∧ ∀ u, Stops u → readValue? (x ++ u) = some (some value, u) := by
    intro y hy hread
    refine ⟨s.takeWhile Text.isBlank ++ y, ?_, fun u hu => ?_⟩
    · rw [List.append_assoc, ← hy, hwhole]
    · rw [List.append_assoc, readValue?_blanks hblanks, hread u hu]
  rw [readValue?] at h
  cases hdrop : s.dropWhile Text.isBlank with
  | nil => simp [hdrop] at h
  | cons c t =>
    simp only [hdrop] at h hsplit hfirst
    split at h
    · cases h
    · next hclose =>
      split at h
      · next hquote =>
        obtain ⟨⟨v, r⟩, hread, heq⟩ := Option.map_eq_some_iff.1 h
        obtain ⟨hv, rfl⟩ := Prod.mk.inj heq
        obtain rfl := Option.some_inj.1 hv
        obtain ⟨rfl, hnot⟩ := eq_of_readQuoted? hread
        refine hsplit (c :: (v ++ [c])) (by simp) fun u _ => ?_
        simpa using readValue?_quoted (by simpa using hquote) hnot u
      · next hquote =>
        obtain ⟨hv, rfl⟩ := Prod.mk.inj (Option.some_inj.1 h)
        obtain rfl := Option.some_inj.1 hv
        have hbare : isBareChar c = true := by
          have hblank : Text.isBlank c = false := by simpa using hfirst
          simp [isBareChar, hblank, hclose]
        refine hsplit _ List.takeWhile_append_dropWhile.symm fun u hu => ?_
        rw [List.takeWhile_cons_of_pos hbare]
        refine readValue?_bare (by simpa using hquote) (fun d hd => ?_) hu
        rw [← List.takeWhile_cons_of_pos hbare] at hd
        exact List.mem_takeWhile_imp hd

end Values

/-! ## Attributes -/

namespace Attribute

/-- The attribute as it is read where its spelling was written. -/
def respelled (a : Attribute) : Attribute :=
  { a with lacksValue := false }

/-- How an attribute is spelled. -/
inductive Spelled : Attribute → Prop
  /-- By its name alone. -/
  | lone {c : Char} {name : Text} {lacksValue : Bool} (hc : isTagChar c = true)
    (hname : ∀ d ∈ name, isAttributeChar d = true) : Spelled ⟨c :: name, [], c :: name, lacksValue⟩
  /-- By its name and its value. -/
  | valued {c : Char} {name blanks t value : Text} (hc : isTagChar c = true)
    (hname : ∀ d ∈ name, isAttributeChar d = true) (hblanks : ∀ d ∈ blanks, Text.isBlank d = true)
    (hvalue : ∀ u, Stops u → readValue? (t ++ u) = some (some value, u)) :
    Spelled ⟨c :: name, value, c :: (name ++ (blanks ++ '=' :: t)), false⟩

variable {a : Attribute} {u : Text}

/-- Every attribute that is read is spelled. -/
lemma spelled_of_read? {c : Char} {s rest : Text} (hc : isTagChar c = true) (h : read? c s = some (a, rest)) :
    a.Spelled := by
  have hname : ∀ d ∈ s.takeWhile isAttributeChar, isAttributeChar d = true := fun d hd => List.mem_takeWhile_imp hd
  simp only [read?] at h
  split at h
  · next t hequals =>
    obtain ⟨⟨v, r⟩, hread, heq⟩ := Option.map_eq_some_iff.1 h
    cases v with
    | none =>
      obtain ⟨rfl, -⟩ := Prod.mk.inj heq
      exact .lone hc hname
    | some value =>
      obtain ⟨rfl, rfl⟩ := Prod.mk.inj heq
      obtain ⟨x, rfl, hvalue⟩ := exists_of_readValue? hread
      have hwhole := List.takeWhile_append_dropWhile (p := isAttributeChar) (l := s)
      rw [← List.takeWhile_append_dropWhile (p := Text.isBlank) (l := s.dropWhile isAttributeChar), hequals] at hwhole
      have hparts : c :: s = c :: (s.takeWhile isAttributeChar ++
          ((s.dropWhile isAttributeChar).takeWhile Text.isBlank ++ '=' :: x)) ++ r := by
        rw [← List.cons_append, ← List.append_assoc, ← List.append_assoc] at hwhole
        simpa using congrArg (c :: ·) hwhole.symm
      have hraw := (congrArg (spelling · r) hparts).trans (spelling_append_right _ r)
      show Spelled ⟨_, _, spelling (c :: s) r, _⟩
      rw [hraw]
      exact .valued hc hname (fun d hd => List.mem_takeWhile_imp hd) hvalue
  · obtain ⟨rfl, -⟩ := Prod.mk.inj (Option.some_inj.1 h)
    exact .lone hc hname

/-- An attribute is read from its spelling, where no value for it comes behind. -/
lemma Spelled.read? (h : a.Spelled) (hu : Stops u)
    (hlone : a.raw = a.name → (u.dropWhile Text.isBlank).head? ≠ some '=') :
    ∃ c s, a.raw = c :: s ∧ isTagChar c = true ∧ Attribute.read? c (s ++ u) = some (a.respelled, u) := by
  cases h with
  | @lone c name _ hc hname =>
    refine ⟨c, name, rfl, hc, ?_⟩
    obtain ⟨htake, hdrop⟩ := hu.takeWhile (fun _ => isAttributeChar_of_not_bare) hname
    simp only [Attribute.read?, htake, hdrop]
    split
    · next t hequals => simp [hequals] at hlone
    · rfl
  | @valued c name blanks t value hc hname hblanks hvalue =>
    refine ⟨c, _, rfl, hc, ?_⟩
    have hbehind : (name ++ (blanks ++ '=' :: t) ++ u) = name ++ (blanks ++ '=' :: (t ++ u)) := by simp
    have hspan : (name ++ (blanks ++ '=' :: (t ++ u))).takeWhile isAttributeChar = name ∧
        (name ++ (blanks ++ '=' :: (t ++ u))).dropWhile isAttributeChar = blanks ++ '=' :: (t ++ u) := by
      rw [List.takeWhile_append_of_pos hname, List.dropWhile_append_of_pos hname]
      cases blanks with
      | nil => simp [isAttributeChar]
      | cons b blanks =>
        have hb : isAttributeChar b = false := by simp [isAttributeChar, hblanks b List.mem_cons_self]
        simp [hb]
    have hequals : (blanks ++ '=' :: (t ++ u)).dropWhile Text.isBlank = '=' :: (t ++ u) := by
      rw [List.dropWhile_append_of_pos hblanks]
      rfl
    have hraw : spelling (c :: (name ++ (blanks ++ '=' :: t) ++ u)) u = c :: (name ++ (blanks ++ '=' :: t)) :=
      spelling_append_right (c :: (name ++ (blanks ++ '=' :: t))) u
    rw [hbehind] at hraw ⊢
    simp only [Attribute.read?, hspan.1, hspan.2, hequals, hvalue u hu, Option.map_some, hraw, respelled]

end Attribute

/-- The attributes can be told apart where they stand one blank apart: behind a name without a value comes no name
that begins with an equals sign. -/
def Apart (attributes : List Attribute) : Prop :=
  attributes.IsChain fun a b => a.raw = a.name → b.name.head? ≠ some '='

instance (attributes : List Attribute) : Decidable (Apart attributes) :=
  inferInstanceAs (Decidable (attributes.IsChain _))

lemma apart_respelled {attributes : List Attribute} :
    Apart (attributes.map Attribute.respelled) ↔ Apart attributes :=
  List.isChain_map Attribute.respelled

/-! ## Tags -/

section Tags

variable {attributes : List Attribute} {tag : Tag} {s rest u : Text}

/-- The end of a start tag as it is written. -/
def closing (selfClosing : Bool) : Text :=
  if selfClosing then " />".toList else ['>']

/-- Behind an attribute comes a blank or the end of the tag, and no equals sign before the name of the next one. -/
lemma stops_attributes (h : ∀ a ∈ attributes, a.Spelled) (selfClosing : Bool) (u : Text) :
    let v := (attributes.flatMap fun a => ' ' :: a.raw) ++ (closing selfClosing ++ u)
    Stops v ∧ ((∀ a ∈ attributes.head?, a.name.head? ≠ some '=') → (v.dropWhile Text.isBlank).head? ≠ some '=') := by
  intro v
  cases attributes with
  | nil => cases selfClosing <;> exact ⟨⟨_, rfl, rfl⟩, fun _ => by simp [v, closing, Text.isBlank]⟩
  | cons a attributes =>
    refine ⟨⟨' ', rfl, rfl⟩, fun hfirst => ?_⟩
    have hname := hfirst a rfl
    have hblank : ∀ {c}, isTagChar c = true → Text.isBlank c = false := fun hc => by
      simp only [isTagChar, Bool.not_eq_true', Bool.or_eq_false_iff] at hc
      exact hc.1.1
    have hspace : Text.isBlank ' ' = true := rfl
    cases h a List.mem_cons_self with
    | lone hc => simpa [v, hspace, hblank hc] using hname
    | valued hc => simpa [v, hspace, hblank hc] using hname

lemma readAttributes?_blank (s : Text) : readAttributes? (' ' :: s) = readAttributes? s := by
  rw [readAttributes?.eq_def]
  rfl

/-- Attributes that stand apart are read one by one. -/
lemma readAttributes?_spelled (h : ∀ a ∈ attributes, a.Spelled) (hapart : Apart attributes) (selfClosing : Bool)
    (u : Text) :
    readAttributes? ((attributes.flatMap fun a => ' ' :: a.raw) ++ (closing selfClosing ++ u)) =
      some (attributes.map Attribute.respelled, selfClosing, u) := by
  induction attributes with
  | nil =>
    cases selfClosing with
    | false =>
      rw [readAttributes?.eq_def]
      rfl
    | true =>
      refine (readAttributes?_blank ('/' :: '>' :: u)).trans ?_
      rw [readAttributes?.eq_def]
      rfl
  | cons a attributes ih =>
    rw [List.forall_mem_cons] at h
    obtain ⟨hfirst, hlater⟩ := List.isChain_cons.1 hapart
    obtain ⟨hstops, hhead⟩ := stops_attributes h.2 selfClosing u
    obtain ⟨c, s, hraw, hc, hread⟩ := h.1.read? hstops fun hlone => hhead fun b hb => hfirst b hb hlone
    rw [List.flatMap_cons, hraw, List.append_assoc, List.cons_append, readAttributes?_blank, List.cons_append,
      readAttributes?_attribute hc hread, ih h.2 hlater]
    rfl

lemma spelled_of_readAttributes? {slash : Bool} (h : readAttributes? s = some (attributes, slash, rest)) :
    ∀ a ∈ attributes, a.Spelled := by
  fun_induction readAttributes? s generalizing attributes with
  | case1 => cases h
  | case2 =>
    obtain ⟨rfl, -⟩ := by simpa using h
    simp
  | case3 _ _ _ _ ih => exact ih h
  | case4 =>
    obtain ⟨rfl, -⟩ := by simpa using h
    simp
  | case5 _ _ _ _ ih => exact ih h
  | case6 => cases h
  | case7 c s hclose hblank hslash a r hread _ ih =>
    obtain ⟨⟨as, b, r'⟩, hlater, heq⟩ := Option.map_eq_some_iff.1 h
    obtain ⟨rfl, rfl, rfl⟩ := by simpa using heq
    rw [List.forall_mem_cons]
    exact ⟨Attribute.spelled_of_read? (by simp [isTagChar, hclose, hblank, hslash]) hread, ih hlater⟩

lemma isTagChar_of_isAlpha {c : Char} (h : c.isAlpha = true) : isTagChar c = true := by
  by_contra hnot
  simp only [isTagChar, Text.isBlank, Bool.not_eq_true', Bool.or_eq_true, decide_eq_true_eq, Bool.not_eq_false] at hnot
  rcases hnot with (((((rfl | rfl) | rfl) | rfl) | rfl) | rfl) | rfl <;> exact absurd h (by decide)

/-- The element that a text begins, if its name ends. -/
lemma begun?_readMarkup (sections : Bool) (s : Text) : (readMarkup sections s).1.begun? =
    if s.head?.any Char.isAlpha = true ∧ s.dropWhile isTagChar ≠ [] then
      some (String.ofList (Text.lower (s.takeWhile isTagChar)))
    else none := by
  cases s with
  | nil => rfl
  | cons c s =>
    by_cases hslash : c = '/'
    · subst hslash
      rw [if_neg (by simp)]
      simp only [readMarkup, if_true]
      split
      · rfl
      · split
        · split <;> rfl
        · rfl
    · by_cases hc : c.isAlpha = true
      · simp only [readMarkup, if_neg hslash, hc, if_true]
        cases hread : Tag.read? (c :: s) with
        | some found =>
          obtain ⟨tag, rest⟩ := found
          have hdrop : (c :: s).dropWhile isTagChar ≠ [] := by
            intro hnil
            rw [Tag.read?, hnil, readAttributes?.eq_def] at hread
            cases hread
          simp [hdrop, hc, Markup.begun?, Tag.element, Place.name_of_read? hread]
        | none =>
          by_cases hdrop : (c :: s).dropWhile isTagChar = []
          · simp [Markup.ofBroken, hdrop, Markup.begun?]
          · simp [Markup.ofBroken, hdrop, hc, Markup.begun?]
      · rw [if_neg (by simp [hc])]
        rw [Bool.not_eq_true] at hc
        simp only [readMarkup, if_neg hslash, hc, Bool.false_eq_true, if_false]
        split
        · rfl
        · split <;> rfl

namespace Tag

/-- The tag as it is read where it was written from its parts. -/
def respelled (tag : Tag) : Tag :=
  { tag with attributes := tag.attributes.map Attribute.respelled }

/-- A start tag as it is spelled: it begins with a letter, and its attributes are spelled. -/
structure Spelled (tag : Tag) : Prop where
  letter : ∃ c ∈ tag.name.head?, c.isAlpha = true
  name : ∀ c ∈ tag.name, isTagChar c = true
  attributes : ∀ a ∈ tag.attributes, a.Spelled

lemma readMarkup_of_read? {c : Char} (hc : c.isAlpha = true) (sections : Bool)
    (h : Tag.read? (c :: s) = some (tag, rest)) : readMarkup sections (c :: s) = (.start tag, rest) := by
  have hslash : c ≠ '/' := by
    rintro rfl
    exact absurd hc (by decide)
  simp only [readMarkup, if_neg hslash, hc, if_true, h]

/-- Every start tag that is read is spelled. -/
lemma spelled_of_readMarkup {sections : Bool} (h : readMarkup sections s = (.start tag, rest)) :
    tag.Spelled ∧ ∃ c t, s = c :: t ∧ c.isAlpha = true := by
  have hread := Place.read?_of_readMarkup_start h
  cases s with
  | nil => cases h
  | cons c s =>
    have hc : c.isAlpha = true := by
      by_contra hnot
      have hbegun := begun?_readMarkup sections (c :: s)
      rw [h, if_neg (by simp [hnot])] at hbegun
      cases hbegun
    refine ⟨?_, c, s, rfl, hc⟩
    have hname := Place.name_of_read? hread
    obtain ⟨⟨as, b, r⟩, hattributes, heq⟩ := Option.map_eq_some_iff.1 hread
    obtain ⟨htag, -⟩ := Prod.mk.inj heq
    constructor
    · rw [hname, List.takeWhile_cons_of_pos (isTagChar_of_isAlpha hc)]
      exact ⟨c, rfl, hc⟩
    · rw [hname]
      exact fun d hd => List.mem_takeWhile_imp hd
    · rw [← htag]
      exact spelled_of_readAttributes? hattributes

/-- **A tag that is written anew is read as its parts**, whatever stands behind it. -/
lemma readMarkup_write (h : tag.Spelled) (hapart : Apart tag.attributes) (sections : Bool) :
    ∃ c t, tag.write = '<' :: c :: t ∧ c.isAlpha = true ∧
      ∀ u, readMarkup sections (c :: (t ++ u)) = (.start tag.respelled, u) := by
  obtain ⟨c, hc, halpha⟩ := h.letter
  obtain ⟨name, hname⟩ := List.head?_eq_some_iff.1 hc
  refine ⟨c, name ++ ((tag.attributes.flatMap fun a => ' ' :: a.raw) ++ closing tag.selfClosing), ?_, halpha, ?_⟩
  · simp [write, hname, closing]
  · intro u
    have hread := readAttributes?_spelled h.attributes hapart tag.selfClosing u
    obtain ⟨hstops, -⟩ := stops_attributes h.attributes tag.selfClosing u
    obtain ⟨htake, hdrop⟩ := hstops.takeWhile (p := isTagChar) (fun _ => isTagChar_of_not_bare) h.name
    refine readMarkup_of_read? halpha sections ?_
    have hwhole : c :: (name ++ ((tag.attributes.flatMap fun a => ' ' :: a.raw) ++ closing tag.selfClosing) ++ u) =
        tag.name ++ ((tag.attributes.flatMap fun a => ' ' :: a.raw) ++ (closing tag.selfClosing ++ u)) := by
      simp [hname]
    rw [hwhole, Tag.read?, hdrop, hread, htake]
    rfl

end Tag

end Tags

end MarkedMath.Html
