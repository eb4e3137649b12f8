import MarkedMath.Html.Process
import MarkedMath.Proofs.Documents
import MarkedMath.Proofs.Html.Tags

/-!
# Reading from a place

A conversion reads a document token by token, and what it writes for a token depends on the place where the
token was read. Here the outcome from a place on (`Place.outcome`) is related to the outcome behind a text
(`outcome_text`), behind tags (`outcome_startTag`, `outcome_endTag`), and behind what an element with a text of
another mode takes for text (`outcome_kept`).
-/

namespace MarkedMath.Html

/-- What a conversion without style rules makes of tokens. -/
structure Outcome where
  /-- The tokens as they are written. -/
  written : Text
  /-- The equations counted so far. -/
  counts : Counts
  /-- Whether one of the tokens begins a head. -/
  head : Bool

/-- The outcome of a text and what stands behind it. -/
def Outcome.behind (o : Outcome) (written : Text) : Outcome :=
  { o with written := written ++ o.written }

@[simp] lemma Outcome.behind_nil (o : Outcome) : o.behind [] = o := rfl

@[simp] lemma Outcome.behind_behind (o : Outcome) (s t : Text) : (o.behind t).behind s = o.behind (s ++ t) := by
  simp [behind]

section Outcomes

variable (g : Grammar) (l : Layout)

/-- The outcome of tokens, numbered on from `counts`. -/
def Outcome.ofTokens (counts : Counts) : List Token → Outcome
  | [] => ⟨[], counts, false⟩
  | .text .data content :: rest =>
    (ofTokens (g.convert l counts content).2 rest).behind (g.convert l counts content).1
  | token :: rest =>
    { (ofTokens counts rest).behind token.raw with
      head := token.beginsHead || (ofTokens counts rest).head }

/-- The outcome of reading a text from a place on. -/
def Place.outcome (p : Place) (counts : Counts) (s : Text) : Except AmbiguousTag Outcome :=
  (p.tokens .conversion s).map (Outcome.ofTokens g l counts)

end Outcomes

variable {g : Grammar} {l : Layout} {p p' : Place} {counts : Counts} {s rest w : Text} {token : Token}

lemma Outcome.ofTokens_text {mode : TextMode} (hmode : mode ≠ .data) (content : Text) (tokens : List Token) :
    ofTokens g l counts (.text mode content :: tokens) = (ofTokens g l counts tokens).behind content := by
  cases mode with
  | data => exact absurd rfl hmode
  | _ => rfl

lemma Outcome.head_ofTokens (counts : Counts) (tokens : List Token) :
    (ofTokens g l counts tokens).head = tokens.any Token.beginsHead := by
  induction tokens generalizing counts with
  | nil => rfl
  | cons token tokens ih =>
    rw [List.any_cons]
    cases token with
    | text mode content =>
      cases mode with
      | data => exact ih _
      | _ => rw [ofTokens_text (by simp)]; exact ih _
    | _ => rw [← ih counts]; rfl

/-- A conversion without style rules writes the outcome. -/
lemma writeConverted_none (search : HeadSearch) (counts : Counts) (tokens : List Token) :
    writeConverted g l none search { counts } tokens =
      ((Outcome.ofTokens g l counts tokens).written, (Outcome.ofTokens g l counts tokens).counts) := by
  induction tokens generalizing search counts with
  | nil => rfl
  | cons token tokens ih =>
    cases token with
    | text mode content =>
      rw [writeConverted, Conversion.takeAll_ofText]
      by_cases hmode : mode = .data
      · subst hmode
        simp [ih, Outcome.ofTokens, Outcome.behind]
      · simp [ih, Outcome.ofTokens_text hmode, hmode, Outcome.behind]
    | _ => simp [writeConverted, ih, Outcome.ofTokens, Outcome.behind, Token.raw]

namespace Place

lemma tokens_of_next {r : Reading} (hs : s ≠ []) (h : p.next r s = .ok (token, p', rest)) :
    p.tokens r s = (p'.tokens r rest).map (token :: ·) := by
  rw [tokens, dif_neg hs]
  split
  · next e he => simp [h] at he
  · next token' p'' rest' he =>
    obtain ⟨rfl, rfl, rfl⟩ := by simpa using h.symm.trans he
    rfl

lemma tokens_of_error {r : Reading} {e : AmbiguousTag} (hs : s ≠ []) (h : p.next r s = .error e) :
    p.tokens r s = .error e := by
  rw [tokens, dif_neg hs]
  split
  · next e' he =>
    rw [h] at he
    cases he
    rfl
  · next he => simp [h] at he

@[simp] lemma outcome_nil (p : Place) (counts : Counts) : p.outcome g l counts [] = .ok ⟨[], counts, false⟩ := by
  rw [outcome, tokens, dif_pos rfl]
  rfl

/-! ## Texts -/

/-- A text without `<` is read up to the markup behind it. -/
lemma takeUntil_beginsMarkup (hw : '<' ∉ w) (hs : s = [] ∨ beginsMarkup s = true) :
    takeUntil beginsMarkup (w ++ s) = (w, s) := by
  induction w with
  | nil =>
    rcases hs with rfl | hs
    · rfl
    · cases s with
      | nil => rfl
      | cons c s => rw [List.nil_append, takeUntil, if_pos hs]
  | cons c w ih =>
    rw [List.mem_cons, not_or] at hw
    have hc : beginsMarkup (c :: (w ++ s)) = false := by
      rw [beginsMarkup]
      intro d t h
      exact absurd (List.cons.inj h).1.symm hw.1
    rw [List.cons_append, takeUntil, if_neg (by simp [hc]), ih hw.2]

/-- A text that is read as data is converted. -/
lemma outcome_text (hmode : p.mode = .data) (hlabel : p.label = .data) (hne : w ≠ []) (hw : '<' ∉ w)
    (hs : s = [] ∨ beginsMarkup s = true) (counts : Counts) :
    p.outcome g l counts (w ++ s) =
      (p.outcome g l (g.convert l counts w).2 s).map (Outcome.behind · (g.convert l counts w).1) := by
  obtain ⟨c, w, rfl⟩ := List.exists_cons_of_ne_nil hne
  have hnext : p.next .conversion (c :: w ++ s) = .ok (.text .data (c :: w), p, s) := by
    simp only [next, hmode, takeText, takeUntil_beginsMarkup hw hs, hlabel]
  rw [outcome, tokens_of_next (by simp) hnext, outcome]
  cases p.tokens .conversion s <;> rfl

/-! ## Texts of other modes -/

/-- What stands in an element whose text is read in another mode, up to where its text may end. -/
lemma takeText_cons (hdata : p.mode ≠ .data) (hsection : p.mode ≠ .cdata) {c : Char}
    (hend : p.mode = .plain ∨ beginsEndTag p.element.toList (c :: s) = false)
    (hscript : c = '<' → s.head? ≠ some '!') :
    takeText p.mode p.element (c :: s) =
      (c :: (takeText p.mode p.element s).1, (takeText p.mode p.element s).2) := by
  have hend' : p.mode ≠ .plain → beginsEndTag p.element.toList (c :: s) = false := hend.resolve_left
  cases hmode : p.mode with
  | data => exact absurd hmode hdata
  | cdata => exact absurd hmode hsection
  | plain => rfl
  | escapable => simp [takeText, takeUntil, hend' (by simp [hmode])]
  | raw => simp [takeText, takeUntil, hend' (by simp [hmode])]
  | script =>
    -- a comment in a script begins with `<!--`
    have hstep : ScriptPart.plain.step c s = .plain := by
      rw [ScriptPart.step, if_neg]
      rw [Bool.and_eq_true, not_and]
      intro hc hbegins
      obtain ⟨rest, hrest⟩ := Option.isSome_iff_exists.1 hbegins
      rw [Text.afterToken?_eq_some_iff.1 hrest] at hscript
      exact hscript (by simpa using hc) rfl
    simp [takeText, takeScript, ScriptPart.isClosable, hend' (by simp [hmode]), hstep]

lemma tokens_of_takeText {r : Reading} (p : Place) (s : Text) :
    p.tokens r s = if (takeText p.mode p.element s).1 = [] then p.tokens r (takeText p.mode p.element s).2
      else (p.tokens r (takeText p.mode p.element s).2).map
        (.text p.label (takeText p.mode p.element s).1 :: ·) := by
  have happend := takeText_append p.mode p.element s
  cases htake : takeText p.mode p.element s with
  | mk content rest =>
    rw [htake] at happend
    cases content with
    | nil => rw [if_pos rfl, ← happend, List.nil_append]
    | cons c content =>
      have hnext : p.next r s = .ok (.text p.label (c :: content), p, rest) := by
        simp only [next, htake]
      rw [if_neg (by simp), tokens_of_next ?_ hnext]
      rw [← happend]
      simp

/-- What is taken for text is written as it is. -/
lemma outcome_kept (hdata : p.mode ≠ .data) (hlabel : p.label = p.mode) (hsection : p.mode ≠ .cdata) {c : Char}
    (hend : p.mode = .plain ∨ beginsEndTag p.element.toList (c :: s) = false)
    (hscript : c = '<' → s.head? ≠ some '!') (counts : Counts) :
    p.outcome g l counts (c :: s) = (p.outcome g l counts s).map (Outcome.behind · [c]) := by
  have hnot : p.label ≠ .data := hlabel ▸ hdata
  rw [outcome, outcome, tokens_of_takeText p (c :: s), tokens_of_takeText p s,
    takeText_cons hdata hsection hend hscript]
  cases p.tokens .conversion (takeText p.mode p.element s).2 with
  | error e => split <;> simp [Except.map]
  | ok tokens =>
    simp only [List.cons_ne_nil, if_false]
    split
    · next hnil => simp [Except.map, Outcome.ofTokens_text hnot, hnil]
    · simp [Except.map, Outcome.ofTokens_text hnot]

/-- Where a written document is read: text counts as it is read, no marked section stands there, and an
element whose end tag is looked for has a name in small letters. -/
structure Steady (p : Place) : Prop where
  /-- Text counts as it is read. -/
  label : p.label = p.mode
  /-- No tag is taken for an end tag. -/
  closing : p.closing = false
  /-- There is no marked section. -/
  mode : p.mode ≠ .cdata
  /-- The name is in small letters. -/
  letters : ∀ c ∈ p.element.toList, c.isLower = true

lemma steady_start : Steady {} :=
  ⟨rfl, rfl, by decide, by simp⟩

/-- A text without `<` ends no other text. -/
lemma outcome_kept_text (hp : p.Steady) (hdata : p.mode ≠ .data) (hw : '<' ∉ w) (counts : Counts) :
    p.outcome g l counts (w ++ s) = (p.outcome g l counts s).map (Outcome.behind · w) := by
  induction w with
  | nil => cases h : p.outcome g l counts s <;> simp [Except.map, h]
  | cons c w ih =>
    rw [List.mem_cons, not_or] at hw
    have hend : beginsEndTag p.element.toList (c :: (w ++ s)) = false := by
      rw [beginsEndTag]
      intro t h
      exact absurd (List.cons.inj h).1.symm hw.1
    rw [List.cons_append, outcome_kept hdata hp.label hp.mode (Or.inr hend) (fun hc => absurd hc.symm hw.1), ih hw.2]
    cases p.outcome g l counts s <;> simp [Except.map]

/-! ## Tags -/

variable {tag : String} {attributes : List (String × Text)}

lemma not_mem_startTag (htag : IsElementName tag) (h : ∀ a ∈ attributes, IsAttributeName a.1) :
    '<' ∉ tag.toList ++ (writtenAttributes attributes ++ ['>']) := by
  have hattributes : '<' ∉ writtenAttributes attributes := by
    intro hmem
    obtain ⟨a, ha, hmem⟩ := List.mem_flatMap.1 hmem
    have hname : '<' ∉ a.1.toList := fun hname => ((h a ha).2 _ hname).2 rfl
    have hvalue := not_mem_escapeQuoted (c := '<') (Or.inr (Or.inl rfl)) a.2
    simp [hname, hvalue] at hmem
  have hname : '<' ∉ tag.toList := fun hmem => ne_of_isLower (htag.2 _ hmem) rfl rfl
  simp [hattributes, hname]

lemma beginsMarkup_startTag (htag : IsElementName tag) (attributes : List (String × Text)) (s : Text) :
    beginsMarkup (Forest.startTag Document.markupStyle tag attributes ++ s) = true := by
  obtain ⟨c, t, hname⟩ := List.exists_cons_of_ne_nil htag.1
  have hc := isAlpha_of_isLower (htag.2 c (hname ▸ List.mem_cons_self ..))
  rw [startTag_eq, hname, List.cons_append, List.cons_append, List.cons_append, beginsMarkup, hc]
  rfl

lemma endTag_eq (tag : String) : Forest.endTag tag = '<' :: '/' :: (tag.toList ++ ['>']) := by
  simp [Forest.endTag]

lemma beginsMarkup_endTag (tag : String) (s : Text) : beginsMarkup (Forest.endTag tag ++ s) = true := by
  simp [endTag_eq, beginsMarkup]

/-- In an element whose text is read in another mode a start tag is text. -/
lemma outcome_kept_startTag (hp : p.Steady) (hdata : p.mode ≠ .data) (htag : IsElementName tag)
    (h : ∀ a ∈ attributes, IsAttributeName a.1) (counts : Counts) :
    p.outcome g l counts (Forest.startTag Document.markupStyle tag attributes ++ s) =
      (p.outcome g l counts s).map (Outcome.behind · (Forest.startTag Document.markupStyle tag attributes)) := by
  obtain ⟨c, t, hname⟩ := List.exists_cons_of_ne_nil htag.1
  have hc : c.isLower = true := htag.2 c (hname ▸ List.mem_cons_self ..)
  have hnot := not_mem_startTag htag h
  rw [startTag_eq, List.cons_append, outcome_kept hdata hp.label hp.mode, outcome_kept_text hp hdata hnot]
  · cases p.outcome g l counts s <;> simp [Except.map]
  · rw [hname]
    refine Or.inr (by_contra fun hend => ?_)
    simp only [List.cons_append, beginsEndTag] at hend
    split at hend
    · next heq =>
      have hslash : c = '/' := by simpa using (List.cons.inj (List.cons.inj heq).2).1
      exact ne_of_isLower hc (show '/'.isLower = false from rfl) hslash
    · exact hend rfl
  · rw [hname]
    intro _ hbang
    exact ne_of_isLower hc (show '!'.isLower = false from rfl) (by simpa using hbang)

lemma isSome_afterElement?_cons (a c : Char) (e x : Text) :
    (afterElement? (a :: e) (c :: x)).isSome = (Text.lowerChar c = a && (afterElement? e x).isSome) := by
  simp only [afterElement?, List.length_cons, List.drop_succ_cons, List.take_succ_cons]
  cases x.drop e.length with
  | nil => simp
  | cons d y =>
    rw [Bool.eq_iff_iff]
    simp [Text.lower, and_assoc]

/-- A name in small letters is followed by the end of its tag only if it is the name of the tag. -/
lemma isSome_afterElement? {e t : Text} (he : ∀ c ∈ e, c.isLower = true) (ht : ∀ c ∈ t, c.isLower = true) (s : Text) :
    (afterElement? e (t ++ '>' :: s)).isSome = decide (e = t) := by
  induction e generalizing t with
  | nil =>
    cases t with
    | nil => rfl
    | cons c t =>
      have hc := ht c (List.mem_cons_self ..)
      have hchar := isTagChar_of_isLower hc
      simp only [isTagChar, Bool.not_eq_true', Bool.or_eq_false_iff, decide_eq_false_iff_not] at hchar
      simp [afterElement?, hchar]
  | cons a e ih =>
    have hlower := he a (List.mem_cons_self ..)
    cases t with
    | nil =>
      have hne : Text.lowerChar '>' ≠ a := (ne_of_isLower hlower (show '>'.isLower = false from rfl)).symm
      rw [List.nil_append, isSome_afterElement?_cons]
      simp [hne]
    | cons c t =>
      rw [List.cons_append, isSome_afterElement?_cons, ih (fun d hd => he d (List.mem_cons_of_mem a hd))
        (fun d hd => ht d (List.mem_cons_of_mem c hd)), lowerChar_of_isLower (ht c (List.mem_cons_self ..)),
        Bool.eq_iff_iff]
      simp only [Bool.and_eq_true, decide_eq_true_eq, List.cons.injEq]
      exact and_congr_left' eq_comm

/-- Whether an end tag is read as one. -/
def awaits (p : Place) (tag : String) : Bool :=
  p.mode = .data || (p.mode ≠ .plain && p.element = tag)

/-- An end tag that is not waited for is text. -/
lemma outcome_kept_endTag (hp : p.Steady) (htag : IsElementName tag) (hawaits : p.awaits tag = false)
    (counts : Counts) :
    p.outcome g l counts (Forest.endTag tag ++ s) =
      (p.outcome g l counts s).map (Outcome.behind · (Forest.endTag tag)) := by
  simp only [awaits, Bool.or_eq_false_iff, decide_eq_false_iff_not, Bool.and_eq_false_iff, not_not] at hawaits
  obtain ⟨hdata, hother⟩ := hawaits
  have hnot : '<' ∉ '/' :: (tag.toList ++ ['>']) := by
    have hname : '<' ∉ tag.toList := fun hmem => ne_of_isLower (htag.2 _ hmem) rfl rfl
    simp [hname]
  rw [endTag_eq, List.cons_append, outcome_kept hdata hp.label hp.mode, outcome_kept_text hp hdata hnot]
  · cases p.outcome g l counts s <;> simp [Except.map]
  · refine hother.imp_right fun hne => ?_
    have hend := isSome_afterElement? hp.letters htag.2 s
    simp only [String.toList_inj, hne, decide_false] at hend
    simpa [beginsEndTag] using hend
  · simp

/-- No text stands in front of an end tag that is read as one. -/
lemma takeText_endTag (hp : p.Steady) (htag : IsElementName tag) (hawaits : p.awaits tag = true) (s : Text) :
    takeText p.mode p.element (Forest.endTag tag ++ s) = ([], Forest.endTag tag ++ s) := by
  have hdata : takeText .data p.element (Forest.endTag tag ++ s) = ([], Forest.endTag tag ++ s) :=
    takeUntil_beginsMarkup (w := []) (by simp) (Or.inr (beginsMarkup_endTag tag s))
  have hend : p.element = tag → beginsEndTag p.element.toList (Forest.endTag tag ++ s) = true := by
    rintro rfl
    have hself := isSome_afterElement? htag.2 htag.2 s
    simpa [endTag_eq, beginsEndTag] using hself
  simp only [awaits, Bool.or_eq_true, decide_eq_true_eq, Bool.and_eq_true] at hawaits
  rcases hawaits with hmode | ⟨hplain, helement⟩
  · rw [hmode, hdata]
  · have hstop := hend helement
    rw [endTag_eq, List.cons_append] at hstop hdata ⊢
    cases hmode : p.mode with
    | data => exact hdata
    | cdata => exact absurd hmode hp.mode
    | plain => exact absurd hmode hplain
    | _ => simp only [takeText, takeUntil, takeScript, ScriptPart.isClosable, hstop, Bool.true_and, if_true]

/-- The place behind a start tag, if it is read as one. -/
def behindStart (p : Place) (tag : String) (attributes : List (String × Text)) : Except AmbiguousTag Place :=
  if p.mode = .data then
    (p.opening .conversion (Forest.startTag Document.markupStyle tag attributes) (.ofWritten tag attributes)).map
      Prod.snd
  else .ok p

/-- The place behind an end tag, if it is read as one. -/
def behindStop (p : Place) (tag : String) : Place :=
  if p.awaits tag then (p.close .conversion (Forest.endTag tag) (.ofWritten tag [])).2 else p

/-- The outcome behind a start tag. -/
lemma outcome_startTag (hp : p.Steady) (htag : IsElementName tag) (hhead : tag ≠ "head")
    (h : ∀ a ∈ attributes, IsAttributeName a.1) (counts : Counts) :
    p.outcome g l counts (Forest.startTag Document.markupStyle tag attributes ++ s) =
      (p.behindStart tag attributes).bind fun p' => (p'.outcome g l counts s).map
        (Outcome.behind · (Forest.startTag Document.markupStyle tag attributes)) := by
  by_cases hdata : p.mode = .data
  · have hread := readMarkup_startTag htag h (p.context.vocabulary ≠ .html) s
    obtain ⟨raw, hraw⟩ : ∃ raw, raw = Forest.startTag Document.markupStyle tag attributes := ⟨_, rfl⟩
    have hchars : raw ++ s = '<' :: (tag.toList ++ (writtenAttributes attributes ++ '>' :: s)) := by
      rw [hraw, startTag_eq]
      simp
    have htake : takeText .data p.element (raw ++ s) = ([], raw ++ s) :=
      takeUntil_beginsMarkup (w := []) (by simp) (Or.inr (hraw ▸ beginsMarkup_startTag htag attributes s))
    have hnext : p.next .conversion (raw ++ s) = (p.opening .conversion raw (.ofWritten tag attributes)).map
        fun x => (x.1, x.2, s) := by
      have hdrop : (raw ++ s).drop 1 = tag.toList ++ (writtenAttributes attributes ++ '>' :: s) := by
        rw [hchars]
        rfl
      simp only [next, hdata, htake, hdrop, hread, swallowed?, spelling_append_right, pass, hp.closing]
      rfl
    have hne : raw ++ s ≠ [] := by simp [hchars]
    rw [behindStart, if_pos hdata, ← hraw]
    cases hopening : p.opening .conversion raw (.ofWritten tag attributes) with
    | error e =>
      rw [hopening] at hnext
      rw [outcome, tokens_of_error hne hnext]
      rfl
    | ok x =>
      obtain ⟨token, p'⟩ := x
      rw [hopening] at hnext
      rw [outcome, tokens_of_next hne hnext]
      obtain ⟨vocabulary, weighed, rfl⟩ : ∃ vocabulary weighed,
          token = .start (.ofWritten tag attributes) raw vocabulary weighed := by
        rw [opening] at hopening
        obtain ⟨context, -, hcontext⟩ := exists_of_map_eq_ok hopening
        exact ⟨_, _, (congrArg Prod.fst hcontext).symm⟩
      have hnoHead : (Tag.ofWritten tag attributes).isHead = false := by
        simp [Tag.isHead, Tag.element_ofWritten htag, hhead]
      show _ = (p'.outcome g l counts s).map _
      rw [outcome]
      cases p'.tokens .conversion s with
      | error e => rfl
      | ok tokens => simp [Except.map, Outcome.ofTokens, Token.raw, Token.beginsHead, hnoHead, Outcome.behind]
  · rw [behindStart, if_neg hdata]
    exact outcome_kept_startTag hp hdata htag h counts

/-- The outcome behind an end tag. -/
lemma outcome_endTag (hp : p.Steady) (htag : IsElementName tag) (counts : Counts) :
    p.outcome g l counts (Forest.endTag tag ++ s) =
      ((p.behindStop tag).outcome g l counts s).map (Outcome.behind · (Forest.endTag tag)) := by
  rw [behindStop]
  split
  · next hawaits =>
    have hread := readMarkup_endTag htag (p.context.vocabulary ≠ .html) s
    obtain ⟨raw, hraw⟩ : ∃ raw, raw = Forest.endTag tag := ⟨_, rfl⟩
    have hchars : raw ++ s = '<' :: '/' :: (tag.toList ++ '>' :: s) := by
      rw [hraw, endTag_eq]
      simp
    have htake : takeText p.mode p.element (raw ++ s) = ([], raw ++ s) :=
      hraw ▸ takeText_endTag hp htag hawaits s
    have hnext : p.next .conversion (raw ++ s) =
        .ok ((p.close .conversion raw (.ofWritten tag [])).1, (p.close .conversion raw (.ofWritten tag [])).2, s) := by
      have hdrop : (raw ++ s).drop 1 = '/' :: (tag.toList ++ '>' :: s) := by
        rw [hchars]
        rfl
      simp only [next, hp.mode, htake, hdrop, hread, swallowed?, spelling_append_right, pass]
      rfl
    rw [← hraw, outcome, tokens_of_next (by simp [hchars]) hnext, outcome]
    cases ((p.close .conversion raw (.ofWritten tag [])).2).tokens .conversion s with
    | error e => rfl
    | ok tokens => simp [Except.map, close, Outcome.ofTokens, Token.raw, Token.beginsHead, Outcome.behind]
  · next hawaits => exact outcome_kept_endTag hp htag (by simpa using hawaits) counts

lemma ofElement_ne_cdata (element : String) : TextMode.ofElement element ≠ .cdata := by
  rw [TextMode.ofElement]
  cases hmode : TextMode.special.lookup element with
  | none => decide
  | some mode =>
    obtain ⟨before, after, hspecial, -⟩ := List.lookup_eq_some_iff.1 hmode
    have hnone : ∀ x ∈ TextMode.special, x.2 ≠ .cdata := by decide
    exact hnone (element, mode) (by simp [hspecial])

lemma Steady.behindStart (hp : p.Steady) (htag : IsElementName tag)
    (h : p.behindStart tag attributes = .ok p') : p'.Steady := by
  rw [Place.behindStart] at h
  split at h
  · obtain ⟨⟨token, p''⟩, hopening, rfl⟩ := exists_of_map_eq_ok h
    obtain ⟨context, -, hcontext⟩ := exists_of_map_eq_ok hopening
    obtain ⟨-, rfl⟩ := Prod.mk.inj hcontext
    refine ⟨?_, rfl, ?_, ?_⟩
    · simp [Reading.modeBehind, Tag.lacksValue_ofWritten]
    · simp only [Reading.modeBehind, Tag.lacksValue_ofWritten, Bool.false_and, Bool.false_eq_true, if_false]
      rw [Context.textMode]
      split
      · exact ofElement_ne_cdata _
      · decide
    · rw [Tag.element_ofWritten htag]
      exact htag.2
  · obtain rfl := Except.ok.inj h
    exact hp

lemma Steady.behindStop (hp : p.Steady) (tag : String) : (p.behindStop tag).Steady := by
  rw [Place.behindStop]
  split
  · exact ⟨rfl, by simp [close, Reading.meetsNames], by simp [close], hp.letters⟩
  · exact hp

end Place

end MarkedMath.Html
