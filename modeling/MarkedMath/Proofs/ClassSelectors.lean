import MarkedMath.Proofs.Html.Rereading

/-!
# Class selectors in style rules

The class names of the settings stand in style rules as they are. A style text is read here for its class selectors:
what stands before an opening brace is a prelude, and in it a class selector is a dot with the name behind it. In the
rules that are written the selectors are the three class names of the settings and nothing else
(`classSelectors_css`).

A class selector is valid when the name is an identifier (`Text.IsIdentifier`). The check of names admits names that
are none: those that begin with a digit, also behind a hyphen, and the hyphen by itself (`Text.isIdentifier_iff`).
-/

namespace MarkedMath

namespace Text

/-! ## Identifiers -/

/-- An identifier of style rules: two hyphens, or a letter or underscore that one hyphen may precede, and then
letters, digits, hyphens and underscores. -/
def IsIdentifier (name : Text) : Prop :=
  ∃ front rest, name = front ++ rest ∧ (∀ c ∈ rest, isNameChar c = true) ∧
    (front = ['-', '-'] ∨ ∃ c, (c.isAlpha = true ∨ c = '_') ∧ (front = [c] ∨ front = ['-', c]))

/-- A name that is a single hyphen, or begins with a digit when a hyphen in front of it is passed over. -/
def LacksLetter (name : Text) : Prop :=
  name = ['-'] ∨ ∃ d rest, d.isDigit = true ∧ (name = d :: rest ∨ name = '-' :: d :: rest)

lemma isNameChar_cases {c : Char} (h : isNameChar c = true) :
    (c.isAlpha = true ∨ c = '_') ∨ c.isDigit = true ∨ c = '-' := by
  simp only [isNameChar, Char.isAlphanum, Bool.or_eq_true, decide_eq_true_eq] at h
  tauto

lemma not_isDigit_of_letter {c : Char} (h : c.isAlpha = true ∨ c = '_') : ¬ c.isDigit = true := by
  rcases h with h | rfl
  · intro hdigit
    have hnat : 48 ≤ c.toNat ∧ c.toNat ≤ 57 := Char.isDigit_iff_toNat.1 hdigit
    have hall : ∀ n < 58, (Char.ofNat n).isAlpha = false := by decide
    have hnot := hall c.toNat (by omega)
    rw [Char.ofNat_toNat, h] at hnot
    cases hnot
  · decide

lemma ne_hyphen_of_letter {c : Char} (h : c.isAlpha = true ∨ c = '_') : c ≠ '-' := by
  rintro rfl
  exact absurd h (by decide)

/-- Of the names that pass the check, those are no identifiers that lack a letter at their beginning. -/
lemma isIdentifier_iff {name : Text} (hne : name ≠ []) (hchars : ∀ c ∈ name, isNameChar c = true) :
    name.IsIdentifier ↔ ¬ name.LacksLetter := by
  have hyphen : ¬ ('-' : Char).isDigit = true := by decide
  constructor
  · rintro ⟨front, rest, rfl, -, rfl | ⟨c, hc, rfl | rfl⟩⟩ (heq | ⟨d, rest', hd, heq | heq⟩)
    · simp at heq
    · obtain ⟨rfl, -⟩ := List.cons.inj heq
      exact hyphen hd
    · obtain ⟨-, heq⟩ := List.cons.inj heq
      obtain ⟨rfl, -⟩ := List.cons.inj heq
      exact hyphen hd
    · exact ne_hyphen_of_letter hc (List.cons.inj heq).1
    · obtain ⟨rfl, -⟩ := List.cons.inj heq
      exact not_isDigit_of_letter hc hd
    · exact ne_hyphen_of_letter hc (List.cons.inj heq).1
    · simp at heq
    · obtain ⟨rfl, -⟩ := List.cons.inj heq
      exact hyphen hd
    · obtain ⟨-, heq⟩ := List.cons.inj heq
      obtain ⟨rfl, -⟩ := List.cons.inj heq
      exact not_isDigit_of_letter hc hd
  · intro hlacks
    obtain ⟨c, s, rfl⟩ := List.exists_cons_of_ne_nil hne
    have hs : ∀ d ∈ s, isNameChar d = true := fun d hd => hchars d (List.mem_cons_of_mem c hd)
    rcases isNameChar_cases (hchars c (List.mem_cons_self ..)) with hc | hc | rfl
    · exact ⟨[c], s, rfl, hs, Or.inr ⟨c, hc, Or.inl rfl⟩⟩
    · exact absurd (Or.inr ⟨c, s, hc, Or.inl rfl⟩) hlacks
    · -- behind a hyphen in front there is a letter, or one more hyphen
      cases s with
      | nil => exact absurd (Or.inl rfl) hlacks
      | cons d s =>
        have hrest : ∀ e ∈ s, isNameChar e = true := fun e he => hs e (List.mem_cons_of_mem d he)
        rcases isNameChar_cases (hs d (List.mem_cons_self ..)) with hd | hd | rfl
        · exact ⟨['-', d], s, rfl, hrest, Or.inr ⟨d, hd, Or.inr rfl⟩⟩
        · exact absurd (Or.inr ⟨d, s, hd, Or.inr rfl⟩) hlacks
        · exact ⟨['-', '-'], s, rfl, hrest, Or.inl rfl⟩

/-! ## Class selectors of a style text -/

/-- What was read of a style text. -/
structure Preludes where
  /-- The characters behind the last brace or semicolon. -/
  since : Text := []
  /-- What stood before each opening brace, back to the brace or semicolon in front of it. -/
  found : List Text := []

/-- One more character. -/
def Preludes.step (p : Preludes) (c : Char) : Preludes :=
  if c = '\x7b' then ⟨[], p.found ++ [p.since]⟩
  else if c = '\x7d' ∨ c = ';' then ⟨[], p.found⟩
  else ⟨p.since ++ [c], p.found⟩

/-- The preludes of the rules in a style text. -/
def preludes (css : Text) : List Text :=
  (css.foldl Preludes.step {}).found

/-- The names behind the dots of a text. -/
def namesBehindDots : Text → List Text
  | [] => []
  | c :: s => if c = '.' then s.takeWhile isNameChar :: namesBehindDots s else namesBehindDots s

/-- The class selectors of a style text. -/
def classSelectors (css : Text) : List Text :=
  (preludes css).flatMap namesBehindDots

/-! ## Reading preludes -/

/-- A character that neither begins nor ends a prelude. -/
def IsPlain (c : Char) : Prop :=
  c ≠ '\x7b' ∧ c ≠ '\x7d' ∧ c ≠ ';'

instance : DecidablePred IsPlain := fun c =>
  inferInstanceAs (Decidable (c ≠ '\x7b' ∧ c ≠ '\x7d' ∧ c ≠ ';'))

variable {t u name : Text}

lemma isPlain_of_all (h : t.all (fun c => decide (IsPlain c)) = true) : ∀ c ∈ t, IsPlain c := by
  simpa using h

lemma foldl_plain (ht : ∀ c ∈ t, IsPlain c) (p : Preludes) :
    t.foldl Preludes.step p = ⟨p.since ++ t, p.found⟩ := by
  induction t generalizing p with
  | nil => simp
  | cons c t ih =>
    have hc := ht c (List.mem_cons_self ..)
    have hstep : p.step c = ⟨p.since ++ [c], p.found⟩ := by simp [Preludes.step, hc.1, hc.2.1, hc.2.2]
    rw [List.foldl_cons, hstep, ih fun d hd => ht d (List.mem_cons_of_mem c hd), List.append_assoc]
    rfl

lemma found_foldl (ht : '\x7b' ∉ t) (p : Preludes) : (t.foldl Preludes.step p).found = p.found := by
  induction t generalizing p with
  | nil => rfl
  | cons c t ih =>
    have hc : c ≠ '\x7b' := fun heq => ht (by simp [heq])
    rw [List.foldl_cons, ih (List.not_mem_of_not_mem_cons ht), Preludes.step, if_neg hc]
    split <;> rfl

/-- A rule is read as its selectors, and what follows it begins behind a line break. -/
lemma foldl_written (indent : String) {r : StyleRule} (hindent : ∀ c ∈ indent.toList, IsPlain c)
    (hselectors : ∀ c ∈ r.selectors.toList, IsPlain c)
    (hlines : ∀ d ∈ r.declarations, '\x7b' ∉ d.1.toList ∧ '\x7b' ∉ d.2.toList) (p : Preludes) :
    (r.written indent).toList.foldl Preludes.step p =
      ⟨['\n'], p.found ++ [p.since ++ indent.toList ++ r.selectors.toList ++ [' ']]⟩ := by
  have hadditive : Additive fun t => '\x7b' ∉ t := ⟨by simp, fun ht hu => by simp [ht, hu]⟩
  have hno : '\x7b' ∉ indent.toList := fun hmem => (hindent _ hmem).1 rfl
  let line (d : String × String) : String := indent ++ "    " ++ d.1 ++ ": " ++ d.2 ++ ";\n"
  have hinside : '\x7b' ∉ (String.join (r.declarations.map line) ++ indent).toList := by
    refine hadditive.toList_append (hadditive.join fun l hl => ?_) hno
    obtain ⟨d, hd, rfl⟩ := List.mem_map.1 hl
    obtain ⟨hproperty, hvalue⟩ := hlines d hd
    simp [line, hno, hproperty, hvalue]
  have hwritten : (r.written indent).toList = (indent.toList ++ r.selectors.toList) ++ (" \x7b\n".toList ++
      ((String.join (r.declarations.map line) ++ indent).toList ++ "\x7d\n".toList)) := by
    simp [StyleRule.written, StyleRule.braced, line]
  have hselectors' : ∀ c ∈ indent.toList ++ r.selectors.toList, IsPlain c := fun c hc =>
    (List.mem_append.1 hc).elim (hindent c) (hselectors c)
  have hopen : ∀ q : Preludes, " \x7b\n".toList.foldl Preludes.step q = ⟨['\n'], q.found ++ [q.since ++ [' ']]⟩ :=
    fun q => by simp [Preludes.step]
  have hclose : ∀ q : Preludes, "\x7d\n".toList.foldl Preludes.step q = ⟨['\n'], q.found⟩ :=
    fun q => by simp [Preludes.step]
  rw [hwritten, List.foldl_append, foldl_plain hselectors', List.foldl_append, hopen, List.foldl_append, hclose,
    found_foldl hinside]
  simp

/-! ## Names behind dots -/

lemma namesBehindDots_append (ht : '.' ∉ t) : namesBehindDots (t ++ u) = namesBehindDots u := by
  induction t with
  | nil => rfl
  | cons c t ih =>
    have hc : c ≠ '.' := fun heq => ht (by simp [heq])
    rw [List.cons_append, namesBehindDots, if_neg hc, ih (List.not_mem_of_not_mem_cons ht)]

lemma namesBehindDots_dot (hname : ∀ c ∈ name, isNameChar c = true) (hu : ∀ c ∈ u.head?, isNameChar c = false) :
    namesBehindDots ('.' :: (name ++ u)) = name :: namesBehindDots u := by
  have hdot : '.' ∉ name := fun hmem => absurd (hname '.' hmem) (by decide)
  have htake : (name ++ u).takeWhile isNameChar = name := by
    rw [List.takeWhile_append_of_pos hname]
    cases u with
    | nil => simp
    | cons c u => simp [hu c rfl]
  rw [namesBehindDots, if_pos rfl, htake, namesBehindDots_append hdot]

end Text

/-! ## The rules that are written -/

section Rules

variable (s : CheckedSettings)

lemma isPlain_of_isNameChar {c : Char} (h : isNameChar c = true) : Text.IsPlain c := by
  refine ⟨?_, ?_, ?_⟩ <;> rintro rfl <;> exact absurd h (by decide)

lemma additive_isPlain : Text.Additive fun t => ∀ c ∈ t, Text.IsPlain c where
  nil := by simp
  append ht hu := fun c hc => (List.mem_append.1 hc).elim (ht c) (hu c)

lemma isNameChar_equationClass (kind : Kind) : ∀ c ∈ (s.equationClass kind).toList, isNameChar c = true := by
  cases kind with
  | inline => exact isNameChar_of_mem_get s .inlineClass
  | display => exact isNameChar_of_mem_get s .displayClass

lemma isPlain_equationSelector (kind : Kind) : ∀ c ∈ (s.equationSelector kind).toList, Text.IsPlain c :=
  additive_isPlain.toList_append (Text.isPlain_of_all (by decide)) fun c hc =>
    isPlain_of_isNameChar (isNameChar_equationClass s kind c hc)

lemma isPlain_debugSelector (kind : Kind) : ∀ c ∈ (s.debugSelector kind).toList, Text.IsPlain c := by
  have hdebug : ∀ c ∈ s.debugClass.toList, Text.IsPlain c := fun c hc =>
    isPlain_of_isNameChar (isNameChar_of_mem_get s .debugClass c hc)
  refine additive_isPlain.toList_append (additive_isPlain.toList_append (additive_isPlain.toList_append
    (additive_isPlain.toList_append ?_ hdebug) ?_) (isPlain_equationSelector s kind)) ?_
  all_goals exact Text.isPlain_of_all (by decide)

lemma isPlain_width : ∀ c ∈ ("@media (max-width: " ++ toString s.mobileBreakpoint.toNat ++ "px)").toList,
    Text.IsPlain c := by
  have hfront : ∀ c ∈ "@media (max-width: ".toList, Text.IsPlain c := Text.isPlain_of_all (by decide)
  have hback : ∀ c ∈ "px)".toList, Text.IsPlain c := Text.isPlain_of_all (by decide)
  refine additive_isPlain.toList_append (additive_isPlain.toList_append hfront fun c hc => ?_) hback
  have hdigit := isDigit_of_mem_toString c hc
  refine ⟨?_, ?_, ?_⟩ <;> rintro rfl <;> exact absurd hdigit (by decide)

/-- The preludes of the style rules. -/
lemma preludes_css : Text.preludes s.css.toList =
    [("\n" ++ s.equationSelector .inline ++ " ").toList,
      ("\n" ++ s.equationSelector .display ++ " ").toList,
      ("\n" ++ s.equationSelector .inline ++ ":hover, " ++ s.equationSelector .display ++ ":hover ").toList,
      ("\n@media (max-width: " ++ toString s.mobileBreakpoint.toNat ++ "px) ").toList,
      ("\n    " ++ s.equationSelector .display ++ " ").toList,
      ("\n" ++ s.debugSelector .inline ++ ",\n" ++ s.debugSelector .display ++ " ").toList] := by
  have hinline := isPlain_equationSelector s .inline
  have hdisplay := isPlain_equationSelector s .display
  have hhover : ∀ c ∈ s.hoverRule.selectors.toList, Text.IsPlain c := by
    refine additive_isPlain.toList_append (additive_isPlain.toList_append
      (additive_isPlain.toList_append hinline ?_) hdisplay) ?_
    all_goals exact Text.isPlain_of_all (by decide)
  have hdebug : ∀ c ∈ s.debugRule.selectors.toList, Text.IsPlain c := by
    refine additive_isPlain.toList_append (additive_isPlain.toList_append (isPlain_debugSelector s .inline) ?_)
      (isPlain_debugSelector s .display)
    exact Text.isPlain_of_all (by decide)
  have hcss : s.css.toList = "\n".toList ++ ((s.inlineRule.written "").toList ++ ((s.displayRule.written "").toList ++
      ((s.hoverRule.written "").toList ++
      (("@media (max-width: " ++ toString s.mobileBreakpoint.toNat ++ "px)").toList ++ (" \x7b\n".toList ++
      ((s.narrowRule.written "    ").toList ++ ("\x7d\n".toList ++ (s.debugRule.written "").toList))))))) := by
    simp [Settings.css, StyleRule.braced]
  have hopen : ∀ q : Text.Preludes, " \x7b\n".toList.foldl Text.Preludes.step q =
      ⟨['\n'], q.found ++ [q.since ++ [' ']]⟩ := fun q => by simp [Text.Preludes.step]
  have hclose : ∀ q : Text.Preludes, "\x7d\n".toList.foldl Text.Preludes.step q = ⟨['\n'], q.found⟩ :=
    fun q => by simp [Text.Preludes.step]
  have hlines : ∀ r ∈ [s.inlineRule, s.displayRule, s.hoverRule, s.narrowRule, s.debugRule],
      ∀ d ∈ r.declarations, '\x7b' ∉ d.1.toList ∧ '\x7b' ∉ d.2.toList := by
    intro r hr d hd
    have hall : ∀ d ∈ cssDeclarations, '\x7b' ∉ d.1.toList ∧ '\x7b' ∉ d.2.toList := by decide
    exact hall d (mem_cssDeclarations hr hd)
  have hfirst : "\n".toList.foldl Text.Preludes.step {} = ⟨['\n'], []⟩ := by simp [Text.Preludes.step]
  have hread₁ := Text.foldl_written "" (by simp) hinline (hlines s.inlineRule (by simp))
  have hread₂ := Text.foldl_written "" (by simp) hdisplay (hlines s.displayRule (by simp))
  have hread₃ := Text.foldl_written "" (by simp) hhover (hlines s.hoverRule (by simp))
  have hread₄ := Text.foldl_written "    " (Text.isPlain_of_all (by decide)) hdisplay (hlines s.narrowRule (by simp))
  have hread₅ := Text.foldl_written "" (by simp) hdebug (hlines s.debugRule (by simp))
  rw [Text.preludes, hcss]
  simp only [List.foldl_append]
  rw [hfirst, hread₁, hread₂, hread₃, Text.foldl_plain (isPlain_width s), hopen, hread₄, hclose, hread₅]
  simp [Settings.inlineRule, Settings.displayRule, Settings.hoverRule, Settings.narrowRule, Settings.debugRule]

lemma namesBehindDots_equationSelector (kind : Kind) {u : Text} (hu : ∀ c ∈ u.head?, isNameChar c = false) :
    Text.namesBehindDots ((s.equationSelector kind).toList ++ u) =
      (s.equationClass kind).toList :: Text.namesBehindDots u := by
  have hdot : (s.equationSelector kind).toList ++ u = '.' :: ((s.equationClass kind).toList ++ u) := by
    simp [Settings.equationSelector]
  rw [hdot, Text.namesBehindDots_dot (isNameChar_equationClass s kind) hu]

lemma namesBehindDots_debugSelector (kind : Kind) (u : Text) :
    Text.namesBehindDots ((s.debugSelector kind).toList ++ u) =
      s.debugClass.toList :: (s.equationClass kind).toList :: Text.namesBehindDots u := by
  have hdot : (s.debugSelector kind).toList ++ u =
      '.' :: (s.debugClass.toList ++
        (" ".toList ++ ((s.equationSelector kind).toList ++ ("::before".toList ++ u)))) := by
    simp [Settings.debugSelector]
  have hname : ∀ c ∈ s.debugClass.toList, isNameChar c = true := isNameChar_of_mem_get s .debugClass
  rw [hdot, Text.namesBehindDots_dot hname (by simp [isNameChar]),
    Text.namesBehindDots_append (by decide), namesBehindDots_equationSelector s kind (by simp [isNameChar]),
    Text.namesBehindDots_append (by decide)]

/-- The class selectors in the style rules are the three class names. -/
lemma classSelectors_css : Text.classSelectors s.css.toList =
    [s.inlineClass, s.displayClass, s.inlineClass, s.displayClass, s.displayClass, s.debugClass, s.inlineClass,
      s.debugClass, s.displayClass].map String.toList := by
  have hwidth : '.' ∉ ("\n@media (max-width: " ++ toString s.mobileBreakpoint.toNat ++ "px) ").toList := by
    simp only [String.toList_append, List.mem_append, not_or]
    refine ⟨⟨by decide, fun hmem => ?_⟩, by decide⟩
    exact absurd (isDigit_of_mem_toString _ hmem) (by decide)
  have hsingle : ∀ (kind : Kind) (front : String), '.' ∉ front.toList →
      Text.namesBehindDots (front ++ s.equationSelector kind ++ " ").toList = [(s.equationClass kind).toList] := by
    intro kind front hfront
    rw [String.toList_append, String.toList_append, List.append_assoc, Text.namesBehindDots_append hfront,
      namesBehindDots_equationSelector s kind (by simp [isNameChar])]
    rfl
  have hhover : Text.namesBehindDots
      ("\n" ++ s.equationSelector .inline ++ ":hover, " ++ s.equationSelector .display ++ ":hover ").toList =
        [s.inlineClass.toList, s.displayClass.toList] := by
    simp only [String.toList_append, List.append_assoc]
    rw [Text.namesBehindDots_append (by decide), namesBehindDots_equationSelector s .inline (by simp [isNameChar]),
      Text.namesBehindDots_append (by decide), namesBehindDots_equationSelector s .display (by simp [isNameChar])]
    rfl
  have hdebug : Text.namesBehindDots
      ("\n" ++ s.debugSelector .inline ++ ",\n" ++ s.debugSelector .display ++ " ").toList =
        [s.debugClass.toList, s.inlineClass.toList, s.debugClass.toList, s.displayClass.toList] := by
    simp only [String.toList_append, List.append_assoc]
    rw [Text.namesBehindDots_append (by decide), namesBehindDots_debugSelector,
      Text.namesBehindDots_append (by decide), namesBehindDots_debugSelector]
    rfl
  have hnarrow := Text.namesBehindDots_append (u := []) hwidth
  rw [List.append_nil] at hnarrow
  rw [Text.classSelectors, preludes_css]
  simp only [List.flatMap_cons, List.flatMap_nil, hsingle _ "\n" (by decide), hsingle _ "\n    " (by decide), hhover,
    hnarrow, hdebug]
  rfl

end Rules

/-- **Class selectors and the style element.** The class selectors in the style rules are the three class names, and
all of them are valid exactly when none of the names lacks a letter at its beginning. The style markup is always read
as one style element: no quotation mark stands in its identifier, and no tag begins in its rules. -/
theorem class_selectors_iff (s : CheckedSettings) :
    Text.classSelectors s.css.toList =
        [s.inlineClass, s.displayClass, s.inlineClass, s.displayClass, s.displayClass, s.debugClass, s.inlineClass,
          s.debugClass, s.displayClass].map String.toList ∧
      ((∀ name ∈ Text.classSelectors s.css.toList, name.IsIdentifier) ↔
        ∀ field ∈ [NameField.inlineClass, .displayClass, .debugClass], ¬ Text.LacksLetter (s.get field).toList) ∧
      '\x22' ∉ s.sheet.id.toList ∧ '<' ∉ s.sheet.css.toList ∧
      ∀ r, r ≠ Html.Reading.toggle → Html.read r s.sheet.toHtml.toList = .ok (Html.blockTokens s.sheet .html) := by
  have hname : ∀ field, Text.IsIdentifier (s.get field).toList ↔ ¬ Text.LacksLetter (s.get field).toList := by
    intro field
    have hplain := s.isPlainName_get field
    refine Text.isIdentifier_iff (fun hnil => ?_) (isNameChar_of_isPlainName hplain)
    simp [isPlainName, hnil] at hplain
  refine ⟨classSelectors_css s, ?_, fun hmem => ?_, not_mem_css s (Or.inl rfl), fun r hr => ?_⟩
  · have hall : (∀ name ∈ Text.classSelectors s.css.toList, name.IsIdentifier) ↔
        ∀ field ∈ [NameField.inlineClass, .displayClass, .debugClass], Text.IsIdentifier (s.get field).toList := by
      rw [classSelectors_css]
      simp only [List.map_cons, List.map_nil, List.forall_mem_cons, Settings.get]
      tauto
    exact hall.trans (forall₂_congr fun field _ => hname field)
  · exact absurd (isNameChar_of_mem_get s .styleId _ hmem) (by decide)
  · have hread := Html.tokens_block (u := []) s hr Html.Place.tidy_start rfl
    rw [if_pos rfl, List.append_nil] at hread
    have hend : ({} : Html.Place).tokens r [] = .ok [] := Html.Place.tokens_eq_nil_iff.2 rfl
    rw [Html.read, hread, hend]
    exact congrArg Except.ok (List.append_nil _)

/-- Settings in which the class of inline equations begins with a digit. No fault is found in them. -/
def CheckedSettings.digitFirst : CheckedSettings :=
  ⟨{ inlineClass := "1a" }, by decide⟩

/-- A name that begins with a digit passes the check and stands in a class selector, which is not valid. -/
theorem digit_first_selector :
    "1a".toList ∈ Text.classSelectors CheckedSettings.digitFirst.css.toList ∧ ¬ Text.IsIdentifier "1a".toList := by
  constructor
  · rw [classSelectors_css]
    decide
  · rw [Text.isIdentifier_iff (by decide) (List.all_eq_true.1 (by decide)), not_not]
    exact Or.inr ⟨'1', ['a'], by decide, Or.inl rfl⟩

end MarkedMath
