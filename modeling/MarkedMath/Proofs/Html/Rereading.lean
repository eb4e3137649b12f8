import MarkedMath.Proofs.Html.Portions
import MarkedMath.Proofs.Html.Steps
import MarkedMath.Proofs.Serialized
import MarkedMath.Proofs.Stylesheet

/-!
# Reading a converted document

In a converted document the tokens of an orderly document are read again. In the place of a text with markers
stand its pieces of text and, for each equation, a start tag, a text and an end tag (`Segment.tokens`); in front
of the tag that closes the head stand the tokens of the style block, provided that a style element may stand there
(`tokens_rewritten`).
-/

namespace MarkedMath.Html

/-! ## Texts that are read as data -/

section Texts

variable {w v y rest u : Text}

/-- What follows an opening bracket and another character does not matter, unless it is nothing. -/
lemma beginsMarkup_congr {b : Text} (hb : b ≠ []) (hv : v = [] ∨ v.head? = some '<') (hy : y = [] → v = [])
    (h : beginsMarkup (b ++ y) = false) : beginsMarkup (b ++ v) = false := by
  obtain ⟨c, b, rfl⟩ := List.exists_cons_of_ne_nil hb
  by_cases hc : c = '<'
  · subst hc
    cases b with
    | nil =>
      cases v with
      | nil => rfl
      | cons d v =>
        obtain rfl : d = '<' := by simpa using hv
        simp [beginsMarkup]
    | cons d b =>
      have hempty : (b ++ v).isEmpty = false → (b ++ y).isEmpty = false := by
        simp only [List.isEmpty_eq_false_iff, ne_eq, List.append_eq_nil_iff, not_and]
        exact fun hne hnil hynil => hne hnil (hy hynil)
      simp only [List.cons_append, beginsMarkup, Bool.or_eq_false_iff, Bool.and_eq_false_iff, Bool.not_eq_false'] at h ⊢
      refine ⟨h.1, h.2.imp_right fun hyempty => ?_⟩
      by_contra hnot
      rw [hempty (by simpa using hnot)] at hyempty
      cases hyempty
  · rw [List.cons_append, beginsMarkup]
    intro d t heq
    exact hc (List.cons.inj heq).1

/-- A text in which no markup begins. -/
def Unbroken (w rest : Text) : Prop :=
  ∀ b, b ≠ [] → b <:+ w → beginsMarkup (b ++ rest) = false

lemma unbroken_of_takeText {element : String} {s : Text} (h : takeText .data element s = (w, rest)) :
    Unbroken w rest ∧ (rest = [] ∨ beginsMarkup rest = true) := by
  have hwhole := takeText_append .data element s
  rw [h] at hwhole
  rw [← hwhole] at h
  exact takeUntil_eq_iff.1 h

/-- In a part of a text no markup begins, whatever markup stands behind it. -/
lemma Unbroken.part {a b t : Text} (h : Unbroken (a ++ t ++ b) rest) (hv : v = [] ∨ beginsMarkup v = true)
    (hnil : b ++ rest = [] → v = []) : Unbroken t v := by
  intro x hx hsuffix
  refine beginsMarkup_congr hx (hv.imp_right fun hbegins => ?_) hnil ?_
  · obtain ⟨v', rfl⟩ := Place.exists_of_beginsMarkup hbegins
    rfl
  · obtain ⟨t', rfl⟩ := hsuffix
    rw [← List.append_assoc]
    exact h (x ++ b) (by simp [hx]) ⟨a ++ t', by simp⟩

/-- A part of a text is read as data up to markup that stands behind it. -/
lemma Unbroken.takeText {a b t : Text} (h : Unbroken (a ++ t ++ b) rest) (hv : v = [] ∨ beginsMarkup v = true)
    (hnil : b ++ rest = [] → v = []) (element : String) : takeText .data element (t ++ v) = (t, v) :=
  takeUntil_eq_iff.2 ⟨h.part hv hnil, hv⟩

end Texts

/-! ## Equations as they are read -/

/-- The attributes of an equation's element as they are read. -/
def attributesOf (l : Layout) (e : Equation) : List (String × Text) :=
  (l.attributes e).map fun a => (a.1, a.2.toList)

/-- The tokens of an equation's element. -/
def equationTokens (l : Layout) (e : Equation) : List Token :=
  [.start (.ofWritten e.kind.tag (attributesOf l e))
      (Forest.startTag Document.markupStyle e.kind.tag (attributesOf l e)) .html false,
    .text .data e.content, .stop (.ofWritten e.kind.tag []) (Forest.endTag e.kind.tag) false]

/-- The tokens of a segment. -/
def segmentTokens (l : Layout) : Segment → List Token
  | .text t => [.text .data t]
  | .equation e => equationTokens l e

section Equations

variable {g : Grammar} {l : Layout} {r : Reading} {p p' : Place} {s rest u : Text}

lemma toHtml_eq (hl : ∀ kind, isPlainName (l.className kind) = true) (e : Equation) :
    l.toHtml e = Forest.startTag Document.markupStyle e.kind.tag (attributesOf l e) ++
      (e.content ++ Forest.endTag e.kind.tag) := by
  have hclass := Text.plain_of_isNameChar (isNameChar_of_isPlainName (hl e.kind))
  have hname := Text.plain_of_isNameChar (isNameChar_of_mem_name e.kind)
  have hid := Text.plain_of_isNameChar (isNameChar_of_mem_id e)
  rw [Text.Plain] at hclass hname hid
  have hchar : Document.markupStyle.attributeChar = escapeQuoted := rfl
  simp [Forest.startTag, Forest.endTag, attributesOf, hchar, hclass, hname, hid, Layout.toHtml, Layout.attributes,
    Layout.writtenAttribute]

lemma isElementName_tag (kind : Kind) : IsElementName kind.tag := by
  cases kind <;> decide

lemma name_mem_attributesOf {l : Layout} {e : Equation} {a : String × Text} (h : a ∈ attributesOf l e) :
    a.1 ∈ ["class", "data-equation-kind", "data-equation-id"] := by
  obtain ⟨b, hb, rfl⟩ := List.mem_map.1 h
  simp only [Layout.attributes, List.mem_cons, List.not_mem_nil, or_false] at hb
  rcases hb with rfl | rfl | rfl <;> simp

lemma isAttributeName_attributesOf (l : Layout) (e : Equation) : ∀ a ∈ attributesOf l e, IsAttributeName a.1 := by
  have hnames : ∀ name ∈ ["class", "data-equation-kind", "data-equation-id"], IsAttributeName name := by decide
  exact fun a ha => hnames a.1 (name_mem_attributesOf ha)

namespace Place

/-- A start tag that is written is read where text is data, unless it is ambiguous there. -/
lemma next_startTag (hr : r ≠ .toggle) (hp : p.Tidy) (hmode : p.mode = .data) {tag : String}
    {attributes : List (String × Text)} (htag : IsElementName tag) (h : ∀ a ∈ attributes, IsAttributeName a.1)
    (u : Text) :
    p.next r (Forest.startTag Document.markupStyle tag attributes ++ u) =
      (p.context.enter (.ofWritten tag attributes)).map fun context =>
        (.start (.ofWritten tag attributes) (Forest.startTag Document.markupStyle tag attributes) context.vocabulary
          (p.context.weighsStart tag),
          { mode := p.context.textMode (.ofWritten tag attributes),
            label := p.context.textMode (.ofWritten tag attributes), element := tag, context }, u) := by
  obtain ⟨raw, hraw⟩ : ∃ raw, raw = Forest.startTag Document.markupStyle tag attributes := ⟨_, rfl⟩
  have hchars : (raw ++ u).drop 1 = tag.toList ++ (writtenAttributes attributes ++ '>' :: u) := by
    simp [hraw, startTag_eq]
  have htake : takeText .data p.element (raw ++ u) = ([], raw ++ u) :=
    takeUntil_beginsMarkup (w := []) (by simp) (Or.inr (hraw ▸ beginsMarkup_startTag htag attributes u))
  rw [← hraw]
  simp only [next, hmode, htake, hchars, readMarkup_startTag htag h, swallowed?_eq_none hr, spelling_append_right, pass,
    hp.closing, opening, Tag.element_ofWritten htag, Reading.modeBehind, Tag.lacksValue_ofWritten]
  cases p.context.enter (.ofWritten tag attributes) <;> simp [Except.map]

lemma reads_startTag (hr : r ≠ .toggle) (hp : p.Tidy) (hmode : p.mode = .data) {tag : String}
    {attributes : List (String × Text)} (htag : IsElementName tag) (h : ∀ a ∈ attributes, IsAttributeName a.1)
    {context : Context} (hcontext : p.context.enter (.ofWritten tag attributes) = .ok context) (u : Text) :
    p.Reads r (Forest.startTag Document.markupStyle tag attributes ++ u)
      (.start (.ofWritten tag attributes) (Forest.startTag Document.markupStyle tag attributes) context.vocabulary
        (p.context.weighsStart tag))
      { mode := p.context.textMode (.ofWritten tag attributes), label := p.context.textMode (.ofWritten tag attributes),
        element := tag, context } u := by
  rw [← next_iff hr, next_startTag hr hp hmode htag h, hcontext]
  rfl

/-- An end tag that is written is read where it is waited for. -/
lemma reads_endTag (hp : p.Steady) {tag : String} (htag : IsElementName tag) (hawaits : p.awaits tag = true)
    (u : Text) :
    p.Reads r (Forest.endTag tag ++ u)
      (.stop (.ofWritten tag []) (Forest.endTag tag) (p.context.weighsStop tag))
      { p with mode := .data, label := .data, context := p.context.leave (.ofWritten tag []),
               closing := p.context.weighsStop tag && r.meetsNames } u := by
  have hchars : Forest.endTag tag ++ u = '<' :: '/' :: (tag.toList ++ '>' :: u) := by
    simp [endTag_eq]
  refine .markup (m := .stop (.ofWritten tag [])) (takeText_endTag hp htag hawaits u) hp.mode ?_ ?_
  · rw [hchars]
    exact readMarkup_endTag htag _ u
  · rw [spelling_append_right, pass, close, Tag.element_ofWritten htag]

/-- Behind an element that leaves the context as it is the place is the one in front of it. -/
lemma forget_behind (hp : p.Tidy) (hmode : p.mode = .data) (element : String) :
    (Place.mk .data .data element p.context false).forget = p.forget := by
  rw [forget, forget, if_pos (Or.inl rfl), if_pos (Or.inl hmode)]
  simp only [Place.mk.injEq, true_and]
  exact ⟨hmode.symm, (hp.label.trans hmode).symm, hp.closing.symm⟩

/-- **An element that is written** where text is data is read as its start tag, its text and its end tag, if it leaves
the context as it is. The place behind it is the one in front of it. -/
lemma tokens_element (hr : r ≠ .toggle) (hp : p.Tidy) (hdata : p.mode = .data) {tag : String}
    {attributes : List (String × Text)} {mode : TextMode} {content : Text} (htag : IsElementName tag)
    (hattributes : ∀ a ∈ attributes, IsAttributeName a.1)
    (henter : p.context.enter (.ofWritten tag attributes) = .ok p.context)
    (hleave : p.context.leave (.ofWritten tag []) = p.context)
    (hstart : p.context.weighsStart tag = false) (hstop : p.context.weighsStop tag = false)
    (htext : p.context.textMode (.ofWritten tag attributes) = mode) (hcdata : mode ≠ .cdata) (hplain : mode ≠ .plain)
    (hne : content ≠ [])
    (htake : takeText mode tag (content ++ (Forest.endTag tag ++ u)) = (content, Forest.endTag tag ++ u)) :
    p.tokens r (Forest.startTag Document.markupStyle tag attributes ++ (content ++ (Forest.endTag tag ++ u))) =
      (p.tokens r u).map
        ([.start (.ofWritten tag attributes) (Forest.startTag Document.markupStyle tag attributes) p.context.vocabulary
            false, .text mode content, .stop (.ofWritten tag []) (Forest.endTag tag) false] ++ ·) := by
  obtain ⟨inside, hinside⟩ : ∃ inside : Place, inside =
      { mode, label := mode, element := tag, context := p.context } := ⟨_, rfl⟩
  have hsteady : inside.Steady := hinside ▸ ⟨rfl, rfl, hcdata, htag.2⟩
  have hawaits : inside.awaits tag = true := by simp [awaits, hinside, hplain]
  have hcontext : inside.context = p.context := by rw [hinside]
  have hfirst := reads_startTag hr hp hdata htag hattributes henter (content ++ (Forest.endTag tag ++ u))
  rw [htext, hstart, ← hinside] at hfirst
  have hsecond : inside.Reads r (content ++ (Forest.endTag tag ++ u)) (.text mode content) inside
      (Forest.endTag tag ++ u) := by
    rw [hinside]
    exact .text htake hne
  have hthird := reads_endTag (r := r) hsteady htag hawaits u
  rw [hcontext, hstop, hleave, Bool.false_and] at hthird
  rw [tokens_of_reads hr (by simp [startTag_eq]) hfirst, tokens_of_reads hr (by simp [hne]) hsecond,
    tokens_of_reads hr (by simp [endTag_eq]) hthird, tokens_congr hr (forget_behind hp hdata _)]
  cases p.tokens r u <;> rfl

/-! ### Equations -/

/-- The elements of equations mean nothing special in any context of HTML. -/
lemma enter_equation {c : Context} (hc : c.vocabulary = .html) {tag : Tag} {kind : Kind}
    (htag : tag.element = kind.tag) :
    c.enter tag = .ok c ∧ c.leave tag = c ∧ c.textMode tag = .data ∧ c.weighsStart kind.tag = false ∧
      c.weighsStop kind.tag = false := by
  obtain ⟨doubt, vocabulary, outer⟩ := c
  obtain rfl : vocabulary = .html := hc
  have hdoubt : doubt.enter kind.tag = .ok doubt ∧ doubt.leave kind.tag = doubt := by
    cases kind <;> cases doubt <;> constructor <;> rfl
  have hnumber : hasNumber kind.tag = true := by cases kind <;> decide
  have hroot : kind.tag ≠ "svg" ∧ kind.tag ≠ "math" := by cases kind <;> decide
  have hmode : TextMode.ofElement kind.tag = .data := by cases kind <;> rfl
  have hembedding : ∀ vocabulary : Vocabulary, vocabulary.embedding.contains kind.tag = false := by
    intro vocabulary
    cases kind <;> cases vocabulary <;> decide
  have hannotation : kind.tag ≠ "annotation-xml" := by cases kind <;> decide
  refine ⟨?_, ?_, ?_, ?_, ?_⟩
  · rw [Context.enter, htag, hdoubt.1]
    simp [Except.map, Context.enterVocabulary, htag, hroot]
  · rw [Context.leave, htag, hdoubt.2, Context.leaveVocabulary]
    refine if_neg ?_
    simp only
    split <;> simp_all
  · rw [Context.textMode, if_pos rfl, htag, hmode]
  · simp [Context.weighsStart]
  · simp [Context.weighsStop, hnumber]

/-- The element of an equation is read as its tokens, and the place behind it is the one in front of it. -/
lemma tokens_toHtml (hr : r ≠ .toggle) (hp : p.Tidy) (hmode : p.mode = .data) (hc : p.context.vocabulary = .html)
    (hl : ∀ kind, isPlainName (l.className kind) = true) {e : Equation} (hne : e.content ≠ [])
    (htake : takeText .data "" (e.content ++ (Forest.endTag e.kind.tag ++ u)) =
      (e.content, Forest.endTag e.kind.tag ++ u)) :
    p.tokens r (l.toHtml e ++ u) = (p.tokens r u).map (equationTokens l e ++ ·) := by
  have htag := isElementName_tag e.kind
  obtain ⟨henter, -, htext, hstart, hstop⟩ := enter_equation hc (Tag.element_ofWritten htag (attributesOf l e))
  obtain ⟨-, hleave, -⟩ := enter_equation hc (Tag.element_ofWritten htag [])
  have htokens := tokens_element hr hp hmode htag (isAttributeName_attributesOf l e) henter hleave hstart hstop htext
    (by decide) (by decide) hne htake
  rw [toHtml_eq hl, List.append_assoc, List.append_assoc, htokens, hc]
  rfl

/-- Behind a piece of text stands the start tag of an equation or what stands behind all segments. -/
lemma render_behind_text (hl : ∀ kind, isPlainName (l.className kind) = true) {t : Text} {segments : List Segment}
    (happart : Piece.Apart ((.text t :: segments).map Segment.piece)) (hu : u = [] ∨ beginsMarkup u = true)
    (hnil : rest = [] → u = []) :
    (l.render segments ++ u = [] ∨ beginsMarkup (l.render segments ++ u) = true) ∧
      (segments.flatMap g.writtenSegment ++ rest = [] → l.render segments ++ u = []) := by
  cases segments with
  | nil => exact ⟨hu, hnil⟩
  | cons y segments =>
    have hmarker : y.piece.isMarker = true :=
      (List.isChain_cons_cons.1 happart).1.resolve_left (by simp [Segment.piece, Piece.isMarker])
    cases y with
    | text t' => cases hmarker
    | equation e =>
      have hchars : l.render (.equation e :: segments) ++ u =
          Forest.startTag Document.markupStyle e.kind.tag (attributesOf l e) ++
            (e.content ++ (Forest.endTag e.kind.tag ++ (l.render segments ++ u))) := by
        simp [Layout.render, Layout.renderSegment, toHtml_eq hl]
      refine ⟨Or.inr ?_, fun hempty => ?_⟩
      · rw [hchars]
        exact beginsMarkup_startTag (isElementName_tag e.kind) _ _
      · simp [Grammar.writtenSegment, Rule.written, g.start_ne_nil] at hempty

/-- The segments of a text are read as their tokens. -/
lemma tokens_render (hr : r ≠ .toggle) (hp : p.Tidy) (hmode : p.mode = .data)
    (hl : ∀ kind, isPlainName (l.className kind) = true) {segments : List Segment}
    (hc : segments.any (fun x => x.piece.isMarker) = true → p.context.vocabulary = .html)
    (happart : Piece.Apart (segments.map Segment.piece)) (hne : ∀ x ∈ segments, x.piece.content ≠ [])
    (hunbroken : Unbroken (segments.flatMap g.writtenSegment) rest) (hnil : rest = [] → u = [])
    (hu : u = [] ∨ beginsMarkup u = true) :
    p.tokens r (l.render segments ++ u) = (p.tokens r u).map (segments.flatMap (segmentTokens l) ++ ·) := by
  induction segments with
  | nil =>
    show p.tokens r u = _
    cases p.tokens r u <;> rfl
  | cons x segments ih =>
    have hrest : Unbroken (segments.flatMap g.writtenSegment) rest := fun b hb hsuffix =>
      hunbroken b hb (hsuffix.trans (List.suffix_append _ _))
    have hlater := ih (fun h => hc (by simp [h])) happart.of_cons (fun y hy => hne y (List.mem_cons_of_mem x hy)) hrest
    have hrender : l.render (x :: segments) ++ u = l.renderSegment x ++ (l.render segments ++ u) := by
      simp [Layout.render]
    have hcontent := hne x (List.mem_cons_self ..)
    cases x with
    | text t =>
      have hv := render_behind_text (g := g) hl happart hu hnil
      have htake := Unbroken.takeText (a := []) (t := t) hunbroken hv.1 hv.2 p.element
      have hreads : p.Reads r (t ++ (l.render segments ++ u)) (.text p.label t) p (l.render segments ++ u) :=
        .text (by rw [hmode]; exact htake) hcontent
      rw [hp.label, hmode] at hreads
      have hhere : t ++ (l.render segments ++ u) ≠ [] := by
        have ht : t ≠ [] := hcontent
        simp [ht]
      rw [hrender]
      show p.tokens r (t ++ (l.render segments ++ u)) = _
      rw [tokens_of_reads hr hhere hreads, hlater]
      cases p.tokens r u <;> rfl
    | equation e =>
      have htake := Unbroken.takeText (a := (g.rule e.kind).start) (t := e.content)
        (b := (g.rule e.kind).stop ++ segments.flatMap g.writtenSegment)
        (v := Forest.endTag e.kind.tag ++ (l.render segments ++ u))
        (by simpa [Grammar.writtenSegment, Rule.written] using hunbroken) (Or.inr (beginsMarkup_endTag _ _))
        (by simp [g.stop_ne_nil]) ""
      rw [hrender]
      show p.tokens r (l.toHtml e ++ (l.render segments ++ u)) = _
      rw [tokens_toHtml hr hp hmode (hc (by simp [Segment.piece, Piece.isMarker])) hl hcontent htake, hlater]
      cases p.tokens r u <;> simp [Except.map, segmentTokens]

end Place

end Equations

/-! ## The style block as it is read -/

/-- The attributes of the style element as they are read. -/
def blockAttributes (sheet : Sheet) : List (String × Text) :=
  [("id", sheet.id.toList)]

/-- The tokens of the style block, where elements are taken from a vocabulary. -/
def blockTokens (sheet : Sheet) (vocabulary : Vocabulary) : List Token :=
  [.start (.ofWritten "style" (blockAttributes sheet))
      (Forest.startTag Document.markupStyle "style" (blockAttributes sheet)) vocabulary false,
    .text (if vocabulary = .html then .raw else .data) sheet.css.toList,
    .stop (.ofWritten "style" []) (Forest.endTag "style") false]

section Block

variable {g : Grammar} {l : Layout} {r : Reading} {p p' : Place} {u : Text} (s : CheckedSettings)

lemma css_ne_nil : s.sheet.css.toList ≠ [] := by
  simp [Settings.sheet, Settings.css]

lemma sheet_toHtml_eq : s.sheet.toHtml.toList =
    Forest.startTag Document.markupStyle "style" (blockAttributes s.sheet) ++
      (s.sheet.css.toList ++ Forest.endTag "style") := by
  have hid : Text.Plain s.sheet.id.toList := Text.plain_of_isNameChar (isNameChar_of_mem_get s .styleId)
  rw [Text.Plain] at hid
  have hchar : Document.markupStyle.attributeChar = escapeQuoted := rfl
  simp [Sheet.toHtml, Forest.startTag, Forest.endTag, blockAttributes, hchar, hid]

lemma isAttributeName_blockAttributes (sheet : Sheet) : ∀ a ∈ blockAttributes sheet, IsAttributeName a.1 := by
  intro a ha
  obtain rfl := List.mem_singleton.1 ha
  show IsAttributeName "id"
  decide

/-- A style element may stand where special elements are never ignored. -/
lemma enter_style (c : Context) {tag : Tag} (htag : tag.element = "style") :
    c.enter tag = (if c.doubt = .none then .ok c else .error ⟨"style"⟩) ∧
      (c.doubt = .none → c.leave tag = c) ∧ c.textMode tag = (if c.vocabulary = .html then .raw else .data) ∧
      c.weighsStart "style" = false ∧ c.weighsStop "style" = false := by
  obtain ⟨doubt, vocabulary, outer⟩ := c
  have hnumber : hasNumber "style" = true := by decide
  refine ⟨?_, ?_, ?_, ?_, ?_⟩
  · rw [Context.enter, htag]
    cases doubt with
    | none =>
      cases vocabulary <;>
        simp [Doubt.enter, Except.map, Context.enterVocabulary, htag, Vocabulary.embedding, breakoutElements]
    | choices => rfl
    | template depth => rfl
    | frames => rfl
  · rintro rfl
    rw [Context.leave, htag, Context.leaveVocabulary]
    refine if_neg ?_
    simp only
    split <;> simp [Vocabulary.embedding]
  · rw [Context.textMode, htag]
    rfl
  · cases vocabulary <;> simp [Context.weighsStart, hnumber, Vocabulary.embedding]
  · simp [Context.weighsStop, hnumber]

/-- The text of the style element is read up to its end tag. -/
lemma takeText_css (vocabulary : Vocabulary) (u : Text) :
    takeText (if vocabulary = .html then .raw else .data) "style" (s.sheet.css.toList ++ (Forest.endTag "style" ++ u)) =
      (s.sheet.css.toList, Forest.endTag "style" ++ u) := by
  have hcss := not_mem_css s (c := '<') (Or.inl rfl)
  split
  · refine takeUntil_eq_iff.2 ⟨fun b hb hsuffix => ?_, Or.inr ?_⟩
    · obtain ⟨c, b, rfl⟩ := List.exists_cons_of_ne_nil hb
      have hc : c ≠ '<' := by
        rintro rfl
        exact hcss (hsuffix.subset (List.mem_cons_self ..))
      rw [List.cons_append, beginsEndTag]
      intro t heq
      exact hc (List.cons.inj heq).1
    · have htag : IsElementName "style" := by decide
      have hself := Place.isSome_afterElement? htag.2 htag.2 u
      rw [Place.endTag_eq]
      simpa [beginsEndTag] using hself
  · exact Place.takeUntil_beginsMarkup hcss (Or.inr (Place.beginsMarkup_endTag "style" u))

/-- The style block is read as its tokens, unless a style element may be ignored there, and the place behind it is
the one in front of it. -/
lemma tokens_block (hr : r ≠ .toggle) (hp : p.Tidy) (hmode : p.mode = .data) :
    p.tokens r (s.sheet.toHtml.toList ++ u) =
      if p.context.doubt = .none then (p.tokens r u).map (blockTokens s.sheet p.context.vocabulary ++ ·)
      else .error ⟨"style"⟩ := by
  have htag : IsElementName "style" := by decide
  obtain ⟨henter, -, htext, hstart, hstop⟩ :=
    enter_style p.context (Tag.element_ofWritten htag (blockAttributes s.sheet))
  obtain ⟨-, hleave, -⟩ := enter_style p.context (Tag.element_ofWritten htag [])
  have hchars : s.sheet.toHtml.toList ++ u = Forest.startTag Document.markupStyle "style" (blockAttributes s.sheet) ++
      (s.sheet.css.toList ++ (Forest.endTag "style" ++ u)) := by
    rw [sheet_toHtml_eq, List.append_assoc, List.append_assoc]
  have hne : Forest.startTag Document.markupStyle "style" (blockAttributes s.sheet) ++
      (s.sheet.css.toList ++ (Forest.endTag "style" ++ u)) ≠ [] := by
    simp [startTag_eq]
  rw [hchars]
  split
  · next hdoubt =>
    rw [if_pos hdoubt] at henter
    refine Place.tokens_element hr hp hmode htag (isAttributeName_blockAttributes s.sheet) henter (hleave hdoubt) hstart
      hstop htext ?_ ?_ (css_ne_nil s) (takeText_css s p.context.vocabulary u)
    · split <;> simp
    · split <;> simp
  · next hdoubt =>
    rw [if_neg hdoubt] at henter
    refine Place.tokens_of_error hne ?_
    rw [Place.next_startTag hr hp hmode htag (isAttributeName_blockAttributes s.sheet), henter]
    rfl

end Block

/-! ## Converted documents as they are read -/

/-- The text of a token that counts as data. -/
def Token.data? : Token → Option Text
  | .text .data content => some content
  | _ => none

lemma Token.eq_of_data? {token : Token} {content : Text} (h : token.data? = some content) :
    token = .text .data content := by
  cases token with
  | text mode content' =>
    cases mode with
    | data => exact congrArg (Token.text .data) (Option.some_inj.1 h)
    | _ => cases h
  | _ => cases h

/-- The tokens that a token is read as when its markers were converted. -/
def Token.rewritten (g : Grammar) (l : Layout) (counts : Counts) (token : Token) : List Token :=
  match token with
  | .text .data content => ((Token.text .data content).segments g counts).1.flatMap (segmentTokens l)
  | token => [token]

/-- The tokens that tokens are read as when their markers were converted and more was added in front of the tag that
closes the head. -/
def rewritten (g : Grammar) (l : Layout) (added : List Token) (search : HeadSearch) (counts : Counts) :
    List Token → List Token
  | [] => []
  | token :: rest =>
    (if (search.step token).1 then added else []) ++ token.rewritten g l counts ++
      rewritten g l added (search.step token).2 (token.segments g counts).2 rest

section Rewritten

variable {g : Grammar} {l : Layout} {r : Reading} {p p' : Place} {s rest u : Text} {token : Token} {tokens : List Token}
  {counts : Counts} {search : HeadSearch}

lemma Token.segments_of_not_data (h : token.data? = none) : token.segments g counts = ([.text token.raw], counts) := by
  cases token with
  | text mode content =>
    cases mode with
    | data => cases h
    | _ => rfl
  | _ => rfl

lemma Token.rewritten_of_not_data (h : token.data? = none) : token.rewritten g l counts = [token] := by
  cases token with
  | text mode content =>
    cases mode with
    | data => cases h
    | _ => rfl
  | _ => rfl

/-- The segments of a text: pieces of text stand apart, none is empty, and there is an equation only if there is a
marker. -/
lemma segments_text (counts : Counts) (content : Text) (hne : content ≠ []) :
    let segments := ((Token.text .data content).segments g counts).1
    Piece.Apart (segments.map Segment.piece) ∧ (∀ x ∈ segments, x.piece.content ≠ []) ∧
      (segments.any (fun x => x.piece.isMarker) = true → (g.pieces content).any Piece.isMarker = true) := by
  cases found : g.segment? counts content with
  | none =>
    simp only [Token.segments, found, Option.getD_none]
    refine ⟨List.IsChain.singleton _, ?_, ?_⟩
    · intro x hx
      obtain rfl := List.mem_singleton.1 hx
      exact hne
    · simp [Segment.piece, Piece.isMarker]
  | some x =>
    obtain ⟨segments, after⟩ := x
    simp only [Token.segments, found, Option.getD_some]
    obtain ⟨hholds, hnumber⟩ := g.segment?_eq_some_iff.1 found
    have hpieces := Segment.map_piece_of_number hnumber
    refine ⟨hpieces ▸ g.apart_pieces content, fun x hx => ?_, fun _ => g.any_marker_iff.2 hholds⟩
    exact g.content_ne_nil_of_mem_pieces (hpieces ▸ List.mem_map_of_mem hx)

lemma takeText_of_reads (hp : p.Tidy) {mode : TextMode} {content : Text}
    (h : p.Reads r s (.text mode content) p' rest) :
    takeText p.mode p.element s = (content, rest) ∧ content ≠ [] ∧ mode = p.mode ∧ p = p' := by
  cases h with
  | text htake hne => exact ⟨htake, hne, hp.label, rfl⟩
  | markup _ _ _ hpass => cases Place.passes_of_pass hp.closing hpass

lemma raw_ne_nil (hr : r ≠ .toggle) (hs : s ≠ []) (h : p.Reads r s token p' rest) : token.raw ≠ [] := by
  intro hnil
  have hraw := h.raw_append
  rw [hnil, List.nil_append] at hraw
  exact absurd (Place.length_of_next hs ((Place.next_iff hr).2 h)) (by simp [hraw])

/-- **A token is read as its tokens** when its markers were converted, and what stands behind it ends it as before. -/
lemma tokens_written (counts : Counts) (hr : r ≠ .toggle) (hl : ∀ kind, isPlainName (l.className kind) = true)
    (hp : p.Tidy) (hs : s ≠ []) (h : p.Reads r s token p' rest) (ht : token.Orderly g p.context)
    (hu : p'.Carries rest u) :
    p.tokens r (l.render (token.segments g counts).1 ++ u) = (p'.tokens r u).map (token.rewritten g l counts ++ ·) ∧
      p.Carries s (l.render (token.segments g counts).1 ++ u) := by
  cases hdata : token.data? with
  | some content =>
    obtain rfl := Token.eq_of_data? hdata
    obtain ⟨htake, hne, hmode, rfl⟩ := takeText_of_reads hp h
    have hdata : p.mode = .data := hmode.symm
    rw [hdata] at htake
    obtain ⟨hunbroken, hends⟩ := unbroken_of_takeText htake
    obtain ⟨happart, hnonempty, hmarker⟩ := segments_text (g := g) counts content hne
    have hwritten : ((Token.text .data content).segments g counts).1.flatMap g.writtenSegment = content :=
      Token.flatMap_written_segments (g := g) counts (.text .data content)
    have hbehind : u = [] ∨ beginsMarkup u = true := hends.imp hu.nil (hu.markup hdata)
    refine ⟨Place.tokens_render hr hp hdata hl (fun h => ht rfl (hmarker h)) happart hnonempty
      (hwritten.symm ▸ hunbroken) hu.nil hbehind, fun hnil => absurd hnil hs, fun _ hbegins => ?_,
      fun hnot => absurd hdata hnot⟩
    -- a text that is data does not begin as markup does
    obtain ⟨c, content, rfl⟩ := List.exists_cons_of_ne_nil hne
    have hnot := hunbroken (c :: content) (by simp) (List.suffix_refl _)
    have hraw : c :: content ++ rest = s := h.raw_append
    rw [hraw, hbegins] at hnot
    cases hnot
  | none =>
    have hkept : ∀ content, token ≠ .text .data content := by
      rintro content rfl
      cases hdata
    obtain ⟨hreads, hcarries, -⟩ := h.kept hp.letters hs (fun hdata => hp.label.trans hdata ▸ hkept) hu
    have hrender : l.render (token.segments g counts).1 = token.raw := by
      rw [Token.segments_of_not_data hdata]
      simp [Layout.render, Layout.renderSegment]
    rw [Token.rewritten_of_not_data hdata, hrender]
    exact ⟨Place.tokens_of_reads hr (List.append_ne_nil_of_left_ne_nil (raw_ne_nil hr hs h) u) hreads, hcarries⟩

/-! ### The place of the block -/

/-- The context in front of the tag that closes the first head, where tokens are read from a context on. -/
def HeadSearch.place? (search : HeadSearch) (c : Context) (tokens : List Token) : Option Context :=
  (search.split? tokens).map fun (before, _) => before.foldl (fun c token => token.behind c) c

lemma HeadSearch.place?_cons (search : HeadSearch) (c : Context) (token : Token) (tokens : List Token) :
    search.place? c (token :: tokens) =
      if (search.step token).1 then some c else (search.step token).2.place? (token.behind c) tokens := by
  rw [place?, split?]
  split
  · rfl
  · rw [place?]
    cases (search.step token).2.split? tokens <;> rfl

/-- An element whose text is not data is the innermost open one, and it is no head. -/
def Place.Fits (p : Place) (search : HeadSearch) : Prop :=
  p.mode ≠ .data → p.mode ≠ .cdata → ∃ around, search.opened = ⟨p.element, false⟩ :: around

/-- The name in front of the end of a tag is the name that was looked for. -/
lemma lower_takeWhile_of_afterElement? {element t : Text} (h : ∀ c ∈ element, isTagChar c = true)
    (hend : (afterElement? element t).isSome = true) : Text.lower (t.takeWhile isTagChar) = element := by
  induction element generalizing t with
  | nil =>
    cases t with
    | nil => rfl
    | cons c t =>
      have hc : isTagChar c = false := by
        rw [isTagChar, Bool.not_eq_false']
        simpa [afterElement?, Text.lower] using hend
      rw [List.takeWhile_cons_of_neg (by simp [hc])]
      rfl
  | cons a element ih =>
    cases t with
    | nil => simp [afterElement?] at hend
    | cons c t =>
      rw [Place.isSome_afterElement?_cons, Bool.and_eq_true, decide_eq_true_eq] at hend
      obtain ⟨rfl, hend⟩ := hend
      have hc : isTagChar c = true := by
        rw [← Place.isTagChar_lowerChar]
        exact h _ (List.mem_cons_self ..)
      rw [List.takeWhile_cons_of_pos hc]
      exact congrArg (_ :: ·) (ih (fun d hd => h d (List.mem_cons_of_mem _ hd)) hend)

/-- A special element of HTML has content, which is HTML. -/
lemma vocabulary_of_special {c context : Context} {tag : Tag} (hmode : c.textMode tag ≠ .data)
    (hcontext : c.enter tag = .ok context) :
    context.vocabulary = .html ∧ tag.opens .html = true ∧ tag.isHead = false := by
  rw [Context.textMode] at hmode
  split at hmode
  · next hhtml =>
    have hspecial : tag.element ∈ TextMode.special.map Prod.fst := by
      rw [TextMode.ofElement] at hmode
      cases hlookup : TextMode.special.lookup tag.element with
      | none =>
        rw [hlookup] at hmode
        exact absurd rfl hmode
      | some mode =>
        obtain ⟨before, after, hsplit, -⟩ := List.lookup_eq_some_iff.1 hlookup
        exact List.mem_map.2 ⟨(tag.element, mode), by simp [hsplit], rfl⟩
    have hplain : ∀ element ∈ TextMode.special.map Prod.fst, element ≠ "svg" ∧ element ≠ "math" ∧
        voidElements.contains element = false ∧ element ≠ "head" := by decide
    obtain ⟨hsvg, hmath, hvoid, hhead⟩ := hplain _ hspecial
    rw [Context.enter] at hcontext
    obtain ⟨doubt, -, rfl⟩ := exists_of_map_eq_ok hcontext
    refine ⟨?_, ?_, ?_⟩
    · simp [Context.enterVocabulary, hsvg, hmath, hhtml]
    · simp only [Tag.opens, if_true, hvoid, Bool.not_false]
    · simp [Tag.isHead, hhead]
  · exact absurd rfl hmode

lemma closeElement_innermost (element : String) (awaited : Bool) (around : List OpenElement) :
    closeElement element (⟨element, awaited⟩ :: around) = ([⟨element, awaited⟩], around) := by
  simp [closeElement, List.span, List.span.loop]

/-- The tag that closes the head stands where text is data. -/
lemma Place.Reads.fits (hp : p.Tidy) (hfits : p.Fits search) (hs : s ≠ []) (h : p.Reads r s token p' rest)
    (ht : token.Orderly g p.context) :
    p'.Fits (search.step token).2 ∧ ((search.step token).1 = true → p.mode = .data) := by
  cases h with
  | text => exact ⟨hfits, fun h => by cases h⟩
  | sectionEnd => exact ⟨fun hdata => absurd rfl hdata, fun h => by cases h⟩
  | markup htake hmode hread hpass =>
    cases passes_of_pass hp.closing hpass with
    | @start tag context hcontext =>
      refine ⟨fun hdata _ => ?_, fun h => by cases h⟩
      have hsame : r.modeBehind tag (p.context.textMode tag) = p.context.textMode tag := modeBehind_of_orderly ht
      rw [hsame] at hdata
      obtain ⟨hvocabulary, hopens, hhead⟩ := vocabulary_of_special hdata hcontext
      exact ⟨search.opened, by simp [HeadSearch.step, hvocabulary, hopens, hhead]⟩
    | stop tag =>
      refine ⟨fun hdata => absurd rfl hdata, fun hcloses => ?_⟩
      by_contra hdata
      obtain ⟨t, rfl, hend⟩ := exists_of_beginsEndTag ((exists_of_takeText_nil hs hmode htake).2.2 hdata)
      obtain ⟨t', ht', hname⟩ := read?_of_readMarkup_stop hread
      obtain rfl : t = t' := (List.cons.inj ht').2
      have helement : tag.element = p.element := by
        rw [Tag.element, name_of_read? hname, lower_takeWhile_of_afterElement? hp.letters hend, String.ofList_toList]
      obtain ⟨around, hopened⟩ := hfits hdata hmode
      rw [HeadSearch.step, helement, hopened, closeElement_innermost] at hcloses
      cases hcloses
    | sectionStart => exact ⟨fun _ hcdata => absurd rfl hcdata, fun h => by cases h⟩
    | other => exact ⟨hfits, fun h => by cases h⟩

lemma rewritten_of_not_closed (h : search.split? tokens = none) (added added' : List Token) :
    rewritten g l added search counts tokens = rewritten g l added' search counts tokens := by
  induction tokens generalizing search counts with
  | nil => rfl
  | cons token tokens ih =>
    rw [HeadSearch.split?] at h
    split at h
    · cases h
    · next hcloses => rw [rewritten, rewritten, if_neg hcloses, if_neg hcloses, ih (Option.map_eq_none_iff.1 h)]

/-- The tokens that are added in front of the tag that closes the head, if there is one, as far as a style element
may stand there. -/
def addedTokens (sheet : Sheet) : Option Context → Except AmbiguousTag (List Token)
  | none => .ok []
  | some c => if c.doubt = .none then .ok (blockTokens sheet c.vocabulary) else .error ⟨"style"⟩

end Rewritten

/-- **A converted document is read as its tokens**, unless a style element may be ignored where the block
stands.

The induction is on the tokens, each read from the place that the one before it left. Of the place it is kept that
it is tidy and that a special element is the innermost open one (`Place.Fits`), so that the tag that closes the head
stands where text is data; of the search, that one element waits at most; and of what is written, that it may stand
in the stead of the document behind the place. -/
lemma tokens_rewritten (S : CheckedSettings) {r : Reading} (hr : r ≠ .toggle) {p : Place} {s : Text}
    {tokens : List Token} {search : HeadSearch} (block : Bool) (counts : Counts) (hp : p.Tidy) (hfits : p.Fits search)
    (hsearch : search.Single) (h : p.tokens r s = .ok tokens) (hg : Orderly S.grammar p.context tokens) :
    let written := (writeConverted S.grammar S.layout (if block then some S.sheet.toHtml.toList else none) search
      { counts } tokens).1
    p.Carries s written ∧
      p.tokens r written = (addedTokens S.sheet (if block then search.place? p.context tokens else none)).map
        fun added => rewritten S.grammar S.layout added search counts tokens := by
  induction tokens generalizing p s search counts with
  | nil =>
    obtain rfl := Place.tokens_eq_nil_iff.1 h
    refine ⟨.refl p [], ?_⟩
    show p.tokens r [] = _
    rw [Place.tokens_eq_nil_iff.2 rfl]
    cases block <;> rfl
  | cons token tokens ih =>
    obtain ⟨hs, p', rest, hreads, hlater⟩ := (Place.tokens_eq_cons_iff hr).1 h
    obtain ⟨htoken, hg⟩ := hg
    obtain ⟨hp', hcontext⟩ := hreads.tidy hp htoken
    obtain ⟨hfits', hdata⟩ := hreads.fits hp hfits hs htoken
    obtain ⟨hcarries, hrest⟩ := ih (token.segments S.grammar counts).2 hp' hfits' (hsearch.step token) hlater
      (hcontext ▸ hg)
    obtain ⟨hwritten, hcarries'⟩ := tokens_written counts hr S.isPlainName_className hp hs hreads htoken
      hcarries
    rw [hrest] at hwritten
    rw [writeConverted_cons, HeadSearch.place?_cons]
    cases hcloses : (search.step token).1 with
    | false =>
      simp only [Bool.false_eq_true, if_false, List.nil_append, ← hcontext]
      refine ⟨hcarries', hwritten.trans ?_⟩
      cases addedTokens S.sheet (if block then (search.step token).2.place? p'.context tokens else none) with
      | error e => rfl
      | ok added => simp [Except.map, rewritten, hcloses]
    | true =>
      -- the block comes here, so it does not come behind
      obtain ⟨hmet, hspent⟩ := HeadSearch.spent_step hsearch hcloses
      have hsplit : (search.step token).2.split? tokens = none := HeadSearch.split?_of_spent hmet hspent
      have hnone : (if block then (search.step token).2.place? p'.context tokens else none) = none := by
        rw [HeadSearch.place?, hsplit]
        cases block <;> rfl
      rw [hnone] at hwritten
      cases block with
      | false =>
        refine ⟨hcarries', hwritten.trans ?_⟩
        simp [addedTokens, Except.map, rewritten, hcloses]
      | true =>
        simp only [if_true, Option.getD_some, List.append_assoc]
        refine ⟨⟨fun hnil => absurd hnil hs, fun _ _ => ?_, fun hnot => absurd (hdata hcloses) hnot⟩, ?_⟩
        · rw [sheet_toHtml_eq, List.append_assoc]
          exact Place.beginsMarkup_startTag (by decide) _ _
        · simp only [if_true] at hwritten
          rw [tokens_block S hr hp (hdata hcloses), hwritten]
          by_cases hdoubt : p.context.doubt = .none
          · simp only [if_pos hdoubt, addedTokens, Except.map, rewritten, hcloses, if_true, List.append_assoc,
              rewritten_of_not_closed hsplit [] (blockTokens S.sheet p.context.vocabulary)]
          · simp only [if_neg hdoubt, addedTokens, Except.map]

end MarkedMath.Html
