import MarkedMath.Html.Edit
import MarkedMath.Proofs.Numbering
import MarkedMath.Proofs.Html.RewrittenTags

/-!
# A class of a tag that comes and goes

A class is added to a tag or taken away by setting the class attribute anew, or by taking it away when no class is
left. In a value between quotation marks a class stands escaped, and stays so from then on (`escaped_escaped`).

What is to be seen of the tag afterwards (`Tag.Shows`) does not depend on what was done before: by `Tag.shows_toggled`
for one change and `Tag.Shows.trans` for one more, the last change decides whether the class is there, and the other
classes are what they were.
-/

namespace MarkedMath.Html

/-! ## Escaped classes -/

section Escaped

variable {w name : Text} {ws : List Text}

/-- A class as it stands in a value between quotation marks. -/
def escaped (w : Text) : Text :=
  w.flatMap escapeQuote

lemma not_mem_escaped (w : Text) : '\x22' ∉ escaped w := by
  intro hmem
  obtain ⟨c, -, hc⟩ := List.mem_flatMap.1 hmem
  rw [escapeQuote] at hc
  split at hc
  · exact absurd hc (by decide)
  · next hne => exact hne (List.mem_singleton.1 hc).symm

lemma escaped_of_not_mem (h : '\x22' ∉ w) : escaped w = w := by
  induction w with
  | nil => rfl
  | cons c w ih =>
    rw [List.mem_cons, not_or] at h
    have hc : escapeQuote c = [c] := if_neg (Ne.symm h.1)
    rw [escaped, List.flatMap_cons, hc, ← escaped, ih h.2, List.singleton_append]

lemma escaped_escaped (w : Text) : escaped (escaped w) = escaped w :=
  escaped_of_not_mem (not_mem_escaped w)

/-- A class in which nothing is escaped. -/
structure IsPlainClass (name : Text) : Prop where
  word : Text.IsWord name
  quote : '\x22' ∉ name
  ampersand : '&' ∉ name

/-- No other class is written as a plain one. -/
lemma IsPlainClass.escaped_eq_iff (h : IsPlainClass name) : escaped w = name ↔ w = name := by
  constructor
  · rintro rfl
    refine (escaped_of_not_mem fun hmem => h.ampersand ?_).symm
    exact List.mem_flatMap.2 ⟨_, hmem, by decide⟩
  · rintro rfl
    exact escaped_of_not_mem h.quote

lemma isPlainClass_debugClass (s : CheckedSettings) : IsPlainClass s.debugClass.toList := by
  have hplain := isNameChar_of_isPlainName (s.isPlainName_get .debugClass)
  refine ⟨s.isWord_debugClass, ?_, ?_⟩
  · exact fun hmem => absurd (hplain _ hmem) (by decide)
  · exact fun hmem => absurd (hplain _ hmem) (by decide)

lemma isWord_escaped (h : Text.IsWord w) : Text.IsWord (escaped w) := by
  constructor
  · obtain ⟨c, w, rfl⟩ := List.exists_cons_of_ne_nil h.1
    rw [escaped, List.flatMap_cons, escapeQuote]
    split <;> simp
  · intro c hc
    obtain ⟨d, hd, hc⟩ := List.mem_flatMap.1 hc
    rw [escapeQuote] at hc
    split at hc
    · have hplain : ∀ d ∈ "&quot;".toList, Text.isBlank d = false := by simp [Text.isBlank]
      exact hplain c hc
    · rw [List.mem_singleton.1 hc]
      exact h.2 d hd

lemma escaped_unwords (ws : List Text) : escaped (Text.unwords ws) = Text.unwords (ws.map escaped) := by
  induction ws with
  | nil => rfl
  | cons w ws ih =>
    cases ws with
    | nil => simp [Text.unwords]
    | cons w' ws =>
      have hjoined : ∀ (v v' : Text) (vs : List Text),
          Text.unwords (v :: v' :: vs) = v ++ ' ' :: Text.unwords (v' :: vs) := fun v v' vs => by
        simp [Text.unwords, List.intercalate]
      rw [List.map_cons, List.map_cons, hjoined, hjoined, ← List.map_cons, ← ih, escaped, List.flatMap_append,
        List.flatMap_cons]
      rfl

/-- Classes that are written are read again, escaped. -/
lemma words_escaped (h : ∀ w ∈ ws, Text.IsWord w) :
    Text.words (escaped (Text.unwords ws)) = ws.map escaped := by
  rw [escaped_unwords]
  refine Text.words_unwords fun w hw => ?_
  obtain ⟨v, hv, rfl⟩ := List.mem_map.1 hw
  exact isWord_escaped (h v hv)

end Escaped

/-! ## Changed classes -/

/-- Whether the attribute gives classes. -/
def Attribute.isClass (a : Attribute) : Bool :=
  Text.lower a.name = "class".toList

section Tags

variable {tag : Tag} {name : Text}

/-- A name that is `class` in small letters is the name of an attribute. -/
lemma isAttributeChar_of_class (h : Text.lower name = "class".toList) : ∀ c ∈ name, isAttributeChar c = true := by
  intro c hc
  have hmem : Text.lowerChar c ∈ "class".toList := h ▸ List.mem_map_of_mem hc
  have hletters : ∀ d ∈ "class".toList, isTagChar d = true := by simp [isTagChar, Text.isBlank]
  have htag : isTagChar c = true := by
    rw [← Place.isTagChar_lowerChar]
    exact hletters _ hmem
  have hequals : c ≠ '=' := by
    rintro rfl
    exact absurd hmem (by decide)
  simp only [isTagChar, Bool.not_eq_true', Bool.or_eq_false_iff] at htag
  simp [isAttributeChar, htag, hequals]

/-- A class attribute that is written is spelled. -/
lemma Attribute.spelled_ofValue (h : Text.lower name = "class".toList) (value : Text) :
    (Attribute.ofValue name value).Spelled := by
  have hchars := isAttributeChar_of_class h
  cases name with
  | nil => cases h
  | cons c name =>
    rw [List.forall_mem_cons] at hchars
    have hvalue : ∀ u, Stops u →
        readValue? ('\x22' :: (escaped value ++ ['\x22']) ++ u) = some (some (escaped value), u) := fun u _ => by
      simpa using readValue?_quoted (Or.inl rfl) (not_mem_escaped value) u
    have hblanks : ∀ d ∈ ([] : Text), Text.isBlank d = true := by simp
    have hspelled := Attribute.Spelled.valued (isTagChar_of_isAttributeChar hchars.1) hchars.2 hblanks hvalue
    have hraw : (c :: name) ++ ['=', '\x22'] ++ escaped value ++ ['\x22'] =
        c :: (name ++ ([] ++ '=' :: '\x22' :: (escaped value ++ ['\x22']))) := by simp
    rw [Attribute.ofValue, ← escaped, hraw]
    exact hspelled

/-- The attributes besides the first one that gives classes. -/
def Tag.others (tag : Tag) : List Attribute :=
  tag.attributes.eraseP Attribute.isClass

/-- The classes are set between the other attributes. -/
lemma exists_setAttribute (value : Text) (attributes : List Attribute) :
    ∃ before after name, attributes.eraseP Attribute.isClass = before ++ after ∧
      Text.lower name = "class".toList ∧
      setAttribute "class" value attributes = before ++ .ofValue name value :: after := by
  induction attributes with
  | nil => exact ⟨[], [], "class".toList, rfl, by decide, rfl⟩
  | cons a attributes ih =>
    by_cases ha : Text.lower a.name = "class".toList
    · refine ⟨[], attributes, a.name, ?_, ha, ?_⟩
      · rw [List.eraseP_cons_of_pos (by simpa [Attribute.isClass] using ha), List.nil_append]
      · rw [setAttribute, if_pos ha, List.nil_append]
    · obtain ⟨before, after, name, hothers, hname, hset⟩ := ih
      refine ⟨a :: before, after, name, ?_, hname, ?_⟩
      · rw [List.eraseP_cons_of_neg (by simpa [Attribute.isClass] using ha), hothers, List.cons_append]
      · rw [setAttribute, if_neg ha, hset, List.cons_append]

namespace Tag

/-- What becomes of a tag whose classes are changed. -/
inductive SetTo (tag : Tag) : List Text → Tag → Prop
  /-- Without classes the attribute is taken away. -/
  | removed : SetTo tag [] { tag with attributes := tag.others }
  /-- The attribute stands somewhere between the others. -/
  | given {classes : List Text} {before after : List Attribute} {name : Text} (hne : classes ≠ [])
    (hothers : tag.others = before ++ after) (hname : Text.lower name = "class".toList) :
    SetTo tag classes { tag with attributes := before ++ .ofValue name (Text.unwords classes) :: after }

lemma setTo_of_setClasses? {changed : Tag} {classes : List Text} (h : tag.setClasses? classes = some changed) :
    tag.SetTo classes changed := by
  rw [setClasses?] at h
  split at h
  · next hempty =>
    split at h
    · cases h
    · obtain rfl := Option.some_inj.1 h
      rw [List.isEmpty_iff.1 hempty]
      exact .removed
  · next hne =>
    obtain rfl := Option.some_inj.1 h
    obtain ⟨before, after, name, hothers, hname, hset⟩ :=
      exists_setAttribute (Text.unwords classes) tag.attributes
    rw [hset]
    exact .given (by simpa using hne) hothers hname

lemma setClasses?_eq_none {classes : List Text} (h : tag.setClasses? classes = none) :
    classes = [] ∧ tag.attribute? "class" = none := by
  rw [setClasses?] at h
  split at h
  · next hempty =>
    split at h
    · next hnone => exact ⟨List.isEmpty_iff.1 hempty, Option.isNone_iff_eq_none.1 hnone⟩
    · cases h
  · cases h

/-- A tag with one class attribute at most, whose other attributes can be told apart. -/
structure Editable (tag : Tag) : Prop where
  single : ∀ a ∈ tag.others, a.isClass = false
  apart : Apart tag.others

instance (tag : Tag) : Decidable tag.Editable :=
  decidable_of_iff ((∀ a ∈ tag.others, a.isClass = false) ∧ Apart tag.others)
    ⟨fun ⟨single, apart⟩ => ⟨single, apart⟩, fun ⟨single, apart⟩ => ⟨single, apart⟩⟩

lemma others_respelled (tag : Tag) : tag.respelled.others = tag.others.map Attribute.respelled := by
  show (tag.attributes.map Attribute.respelled).eraseP Attribute.isClass = _
  rw [List.eraseP_map]
  rfl

lemma find?_class_eq_none {attributes : List Attribute} (h : ∀ a ∈ attributes, a.isClass = false) :
    (attributes.map Attribute.respelled).find? (fun a => Text.lower a.name = "class".toList) = none := by
  refine List.find?_eq_none.2 fun a hmem => ?_
  obtain ⟨b, hb, rfl⟩ := List.mem_map.1 hmem
  exact Bool.eq_false_iff.1 (h b hb)

namespace SetTo

variable {changed : Tag} {classes : List Text}

lemma name_eq (h : tag.SetTo classes changed) : changed.name = tag.name := by
  cases h <;> rfl

lemma spelled (h : tag.SetTo classes changed) (hs : tag.Spelled) : changed.Spelled := by
  have hothers : ∀ a ∈ tag.others, a.Spelled := fun a ha => hs.attributes a (List.mem_of_mem_eraseP ha)
  cases h with
  | removed => exact ⟨hs.letter, hs.name, hothers⟩
  | given hne hsplit hname =>
    rw [hsplit, List.forall_mem_append] at hothers
    refine ⟨hs.letter, hs.name, ?_⟩
    rw [List.forall_mem_append, List.forall_mem_cons]
    exact ⟨hothers.1, Attribute.spelled_ofValue hname _, hothers.2⟩

/-- The class attribute parts its neighbours. -/
lemma apart (h : tag.SetTo classes changed) (ha : tag.Editable) : Apart changed.attributes := by
  have hothers := ha.apart
  cases h with
  | removed => exact hothers
  | @given _ before after name hne hsplit hname =>
    rw [hsplit, Apart, List.isChain_append] at hothers
    obtain ⟨hbefore, hafter, -⟩ := hothers
    have hfirst : (Attribute.ofValue name (Text.unwords classes)).name.head? ≠ some '=' := by
      intro hequals
      have hmem := isAttributeChar_of_class hname '=' (List.mem_of_mem_head? hequals)
      exact absurd hmem (by decide)
    have hlone : (Attribute.ofValue name (Text.unwords classes)).raw ≠ name := by
      simp [Attribute.ofValue]
    rw [Apart, List.isChain_append, List.isChain_cons]
    refine ⟨hbefore, ⟨fun b _ heq => absurd heq hlone, hafter⟩, ?_⟩
    intro a _ b hb _
    obtain rfl := Option.mem_some_iff.1 hb
    exact hfirst

lemma others (h : tag.SetTo classes changed) (ha : tag.Editable) : changed.others = tag.others := by
  have hnone := ha.single
  cases h with
  | removed => exact List.eraseP_of_forall_not (by simpa using hnone)
  | given hne hsplit hname =>
    rw [hsplit, List.forall_mem_append] at hnone
    rw [hsplit, Tag.others, List.eraseP_append_right _ (by simpa using hnone.1),
      List.eraseP_cons_of_pos (by simpa [Attribute.isClass, Attribute.ofValue] using hname)]

/-- The classes that were set are read again, escaped. -/
lemma classes_respelled (h : tag.SetTo classes changed) (ha : tag.Editable) (hwords : ∀ w ∈ classes, Text.IsWord w) :
    changed.respelled.classes = classes.map escaped ∧
      (classes = [] → changed.respelled.attribute? "class" = none) := by
  have hnone := ha.single
  cases h with
  | removed =>
    have habsent : ({ tag with attributes := tag.others } : Tag).respelled.attribute? "class" = none :=
      find?_class_eq_none hnone
    refine ⟨?_, fun _ => habsent⟩
    rw [Tag.classes, value?, habsent]
    rfl
  | @given _ before after name hne hsplit hname =>
    rw [hsplit, List.forall_mem_append] at hnone
    have hthere : ({ tag with attributes := before ++ .ofValue name (Text.unwords classes) :: after } :
        Tag).respelled.attribute? "class" = some (.ofValue name (Text.unwords classes)) := by
      rw [attribute?, respelled, List.map_append, List.find?_append, find?_class_eq_none hnone.1, List.map_cons,
        List.find?_cons_of_pos (by simpa [Attribute.respelled, Attribute.ofValue] using hname)]
      rfl
    refine ⟨?_, fun hempty => absurd hempty hne⟩
    rw [Tag.classes, value?, hthere]
    exact words_escaped hwords

end SetTo

/-- The tag as it is read when a class was added to it or taken away. -/
def toggled (name : Text) (enabled : Bool) (tag : Tag) : Tag :=
  match tag.setClasses? (tag.toggledClasses name enabled) with
  | some changed => changed.respelled
  | none => tag

/-- What is to be seen of a tag when a class was added or taken away, several times perhaps: the other classes are
there, escaped, and the class stands behind them or nowhere. -/
structure Shows (name : Text) (enabled : Bool) (tag shown : Tag) : Prop where
  tagName : shown.name = tag.name
  classes : shown.classes = (tag.classes.filter fun c => c ≠ name).map escaped ++ (if enabled then [name] else [])
  /-- Without classes the attribute is not there. -/
  absent : shown.classes = [] → shown.attribute? "class" = none
  /-- The other attributes keep their spelling. -/
  others : shown.others.map Attribute.raw = tag.others.map Attribute.raw

lemma isWord_of_mem_toggledClasses (hname : IsPlainClass name) {enabled : Bool} :
    ∀ w ∈ tag.toggledClasses name enabled, Text.IsWord w := by
  intro w hw
  rcases List.mem_append.1 hw with hw | hw
  · exact Text.isWord_of_mem_words (List.mem_of_mem_filter hw)
  · cases enabled with
    | false => cases hw
    | true =>
      obtain rfl := List.mem_singleton.1 hw
      exact hname.word

/-- **A class is added or taken away once.** -/
lemma shows_toggled (ha : tag.Editable) (hname : IsPlainClass name) (enabled : Bool) :
    tag.Shows name enabled (tag.toggled name enabled) ∧ (tag.toggled name enabled).Editable := by
  have hclasses : (tag.toggledClasses name enabled).map escaped =
      (tag.classes.filter fun c => c ≠ name).map escaped ++ (if enabled then [name] else []) := by
    rw [toggledClasses, List.map_append]
    cases enabled with
    | false => rfl
    | true => simp [escaped_of_not_mem hname.quote]
  cases hset : tag.setClasses? (tag.toggledClasses name enabled) with
  | none =>
    have htoggled : tag.toggled name enabled = tag := by simp [toggled, hset]
    obtain ⟨hempty, habsent⟩ := setClasses?_eq_none hset
    rw [hempty, List.map_nil] at hclasses
    rw [htoggled]
    refine ⟨⟨rfl, ?_, fun _ => habsent, rfl⟩, ha⟩
    rw [← hclasses, Tag.classes, value?, habsent]
    rfl
  | some changed =>
    have htoggled : tag.toggled name enabled = changed.respelled := by simp [toggled, hset]
    have hto := setTo_of_setClasses? hset
    obtain ⟨hshown, habsent⟩ := hto.classes_respelled ha (isWord_of_mem_toggledClasses hname)
    have hothers : changed.respelled.others = tag.others.map Attribute.respelled := by
      rw [others_respelled, hto.others ha]
    rw [htoggled]
    refine ⟨⟨?_, ?_, fun hnone => habsent ?_, ?_⟩, ?_, ?_⟩
    · exact hto.name_eq
    · rw [hshown, hclasses]
    · simpa [hshown] using hnone
    · rw [hothers, List.map_map]
      rfl
    · rw [hothers, List.forall_mem_map]
      exact ha.single
    · rw [hothers, apart_respelled]
      exact ha.apart

/-- Only the last time counts. -/
lemma Shows.trans {enabled enabled' : Bool} {shown shown' : Tag} (h : tag.Shows name enabled shown)
    (h' : shown.Shows name enabled' shown') (hname : IsPlainClass name) :
    tag.Shows name enabled' shown' := by
  refine ⟨h'.tagName.trans h.tagName, ?_, h'.absent, h'.others.trans h.others⟩
  have hkept : (shown.classes.filter fun c => c ≠ name) = (tag.classes.filter fun c => c ≠ name).map escaped := by
    have hlast : ((if enabled then [name] else []).filter fun c => c ≠ name) = [] := by cases enabled <;> simp
    rw [h.classes, List.filter_append, hlast, List.append_nil, List.filter_eq_self]
    intro c hc
    obtain ⟨w, hw, rfl⟩ := List.mem_map.1 hc
    have hne : w ≠ name := by simpa using List.of_mem_filter hw
    simpa [hname.escaped_eq_iff] using hne
  rw [h'.classes, hkept, List.map_map]
  congr 2
  exact funext escaped_escaped

end Tag

end Tags

end MarkedMath.Html
