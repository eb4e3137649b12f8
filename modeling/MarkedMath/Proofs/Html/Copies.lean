import MarkedMath.Proofs.Html.Rereading

/-!
# Copies of the style block

Copies of a text are counted by the places where they begin. In the style block brackets of tags stand at its two
ends and around its rules only, so a copy that reaches from one part of a document into the next begins or ends with
a tag of a style element. Equations have no such tags, and no text that is data has any, so the conversion of a
document makes no copy and breaks none, as long as no marker is in the rules (`copies_converted`).
-/

namespace MarkedMath

/-- How many copies of a text stand in another one, told by the places where they begin. -/
def Text.copies (b : Text) : Text → Nat
  | [] => 0
  | c :: t => (if b <+: c :: t then 1 else 0) + Text.copies b t

section Copies

variable {b u v : Text}

/-- Where a copy begins in the front part only if it ends there, the copies of both parts add up. -/
lemma Text.copies_append (h : ∀ x, x ≠ [] → x <:+ u → b <+: x ++ v → b <+: x) :
    copies b (u ++ v) = copies b u + copies b v := by
  induction u with
  | nil => simp [copies]
  | cons c u ih =>
    have hhere : b <+: c :: (u ++ v) ↔ b <+: c :: u :=
      ⟨h (c :: u) (by simp) (List.suffix_refl _), fun hstart => hstart.trans (List.prefix_append (c :: u) v)⟩
    have hlater := ih fun x hx hsuffix => h x hx (hsuffix.trans (List.suffix_cons c u))
    rw [List.cons_append, copies, copies, if_congr hhere rfl rfl, hlater, Nat.add_assoc]

/-- Where no copy begins in the front part, only those of the rest count. -/
lemma Text.copies_append_of_none (h : ∀ x, x ≠ [] → x <:+ u → ¬ b <+: x ++ v) : copies b (u ++ v) = copies b v := by
  have hnone : ∀ w, w <:+ u → copies b w = 0 := by
    intro w
    induction w with
    | nil => exact fun _ => rfl
    | cons c w ih =>
      intro hw
      rw [copies, ih ((List.suffix_cons c w).trans hw), if_neg]
      exact fun hstart => h (c :: w) (by simp) hw (hstart.trans (List.prefix_append _ _))
  rw [copies_append fun x hx hsuffix hstart => absurd hstart (h x hx hsuffix), hnone u (List.suffix_refl u),
    Nat.zero_add]

/-- Parts of a text around a character that stands in it once are determined. -/
lemma eq_of_append_cons {c : Char} {m r p q : Text} (hm : c ∉ m) (hr : c ∉ r) (h : p ++ c :: q = m ++ c :: r) :
    p = m ∧ q = r := by
  rcases List.append_eq_append_iff.1 h with ⟨a, rfl, hq⟩ | ⟨a, rfl, hq⟩
  · cases a with
    | nil => exact ⟨by simp, (List.cons.inj hq).2⟩
    | cons d a =>
      obtain ⟨rfl, -⟩ := List.cons.inj hq
      simp at hm
  · cases a with
    | nil => exact ⟨by simp, (List.cons.inj hq).2.symm⟩
    | cons d a =>
      obtain ⟨rfl, rfl⟩ := List.cons.inj hq
      simp at hr

end Copies

namespace Html

/-! ## Tags of style elements -/

/-- A tag of a style element, or of one with a longer name, begins here. -/
def BeginsStyle (s : Text) : Prop :=
  ∃ t, s = '<' :: 's' :: 't' :: t ∨ s = '<' :: '/' :: 's' :: 't' :: t

/-- No tag of a style element begins in a text that stands in front of another one. -/
def Unstyled (w rest : Text) : Prop :=
  ∀ x, x ≠ [] → x <:+ w → ¬ BeginsStyle (x ++ rest)

section Styles

variable {l : Layout} {g : Grammar} {u v w rest : Text}

lemma beginsMarkup_of_beginsStyle (h : BeginsStyle w) : beginsMarkup w = true := by
  obtain ⟨t, rfl | rfl⟩ := h <;> rfl

lemma Unbroken.unstyled (h : Unbroken w rest) : Unstyled w rest := fun x hx hsuffix hbegins => by
  have hnot := h x hx hsuffix
  rw [beginsMarkup_of_beginsStyle hbegins] at hnot
  cases hnot

lemma Unstyled.append (hu : Unstyled u (v ++ rest)) (hv : Unstyled v rest) : Unstyled (u ++ v) rest := by
  intro x hx hsuffix
  rcases List.suffix_or_suffix_of_suffix hsuffix (List.suffix_append u v) with hin | ⟨y, rfl⟩
  · exact hv x hx hin
  · by_cases hy : y = []
    · subst hy
      exact hv _ hx (List.suffix_refl _)
    · rw [List.append_assoc]
      obtain ⟨z, hz⟩ := hsuffix
      exact hu y hy ⟨z, List.append_cancel_right ((List.append_assoc z y v).trans hz)⟩

/-- A tag with no bracket but the one in front. -/
lemma unstyled_tag (hw : '<' ∉ w) (h : ¬ BeginsStyle ('<' :: (w ++ rest))) : Unstyled ('<' :: w) rest := by
  intro x hx hsuffix hbegins
  rcases List.suffix_cons_iff.1 hsuffix with rfl | hsuffix
  · exact h hbegins
  · obtain ⟨c, x, rfl⟩ := List.exists_cons_of_ne_nil hx
    have hc : c = '<' := by
      obtain ⟨t, heq | heq⟩ := hbegins <;> exact (List.cons.inj heq).1
    exact hw (hc ▸ hsuffix.subset (List.mem_cons_self ..))

lemma not_beginsStyle_tag (kind : Kind) (u : Text) :
    ¬ BeginsStyle ('<' :: (kind.tag.toList ++ u)) ∧ ¬ BeginsStyle ('<' :: '/' :: (kind.tag.toList ++ u)) := by
  have hspan : Kind.inline.tag.toList = ['s', 'p', 'a', 'n'] := by decide
  have hdiv : Kind.display.tag.toList = ['d', 'i', 'v'] := by decide
  constructor <;> rintro ⟨t, heq | heq⟩ <;> cases kind <;> simp [hspan, hdiv] at heq

variable (hl : ∀ kind, isPlainName (l.className kind) = true)
include hl

/-- No tag of a style element begins in an equation. -/
lemma unstyled_toHtml {e : Equation} (hcontent : Unstyled e.content (Forest.endTag e.kind.tag ++ rest)) :
    Unstyled (l.toHtml e) rest := by
  have htag := isElementName_tag e.kind
  have hend : Unstyled (Forest.endTag e.kind.tag) rest := by
    have hbrackets : ∀ kind : Kind, '<' ∉ '/' :: (kind.tag.toList ++ ['>']) := by
      intro kind
      cases kind <;> decide
    rw [Place.endTag_eq]
    refine unstyled_tag (hbrackets e.kind) ?_
    rw [List.cons_append, List.append_assoc]
    exact (not_beginsStyle_tag e.kind _).2
  have hstart : ∀ rest, Unstyled (Forest.startTag Document.markupStyle e.kind.tag (attributesOf l e)) rest := by
    intro rest
    rw [startTag_eq]
    refine unstyled_tag (Place.not_mem_startTag htag (isAttributeName_attributesOf l e)) ?_
    rw [List.append_assoc]
    exact (not_beginsStyle_tag e.kind _).1
  rw [toHtml_eq hl]
  exact (hstart _).append (hcontent.append hend)

/-- No tag of a style element begins in the segments of a text that is data. -/
lemma unstyled_render {segments : List Segment} (happart : Piece.Apart (segments.map Segment.piece))
    (hunbroken : Unbroken (segments.flatMap g.writtenSegment) rest) (hrest : rest = [] ∨ beginsMarkup rest = true) :
    Unstyled (l.render segments) rest := by
  induction segments with
  | nil => exact fun x hx hsuffix => absurd (List.suffix_nil.1 hsuffix) hx
  | cons x segments ih =>
    have hlater := ih happart.of_cons fun b hb hsuffix => hunbroken b hb (hsuffix.trans (List.suffix_append _ _))
    show Unstyled (l.renderSegment x ++ l.render segments) rest
    refine Unstyled.append ?_ hlater
    cases x with
    | text t =>
      obtain ⟨hv, hnil⟩ := Place.render_behind_text (g := g) hl happart hrest id
      have hpart := Unbroken.part (a := []) (t := t) hunbroken hv hnil
      exact hpart.unstyled
    | equation e =>
      have hpart := Unbroken.part (a := (g.rule e.kind).start) (t := e.content)
        (b := (g.rule e.kind).stop ++ segments.flatMap g.writtenSegment)
        (v := Forest.endTag e.kind.tag ++ (l.render segments ++ rest))
        (by simpa [Grammar.writtenSegment, Rule.written] using hunbroken) (Or.inr (Place.beginsMarkup_endTag _ _))
        (by simp [g.stop_ne_nil])
      exact unstyled_toHtml hl hpart.unstyled

end Styles

/-! ## The block -/

section Block

variable (S : CheckedSettings) {u v w rest x y : Text}

/-- Where brackets stand in the block. -/
lemma exists_block_eq : ∃ name : Text, '<' ∉ name ∧ '>' ∉ name ∧
    S.sheet.toHtml.toList = '<' :: 's' :: 't' :: (name ++ '>' :: (S.sheet.css.toList ++ "</style>".toList)) := by
  have hid : ∀ c, isNameChar c = false → c ∉ S.sheet.id.toList := fun c hc hmem => by
    rw [isNameChar_of_mem_get S .styleId c hmem] at hc
    cases hc
  refine ⟨"yle id=\"".toList ++ S.sheet.id.toList ++ "\"".toList, ?_, ?_, ?_⟩
  · simp [hid '<' (by decide)]
  · simp [hid '>' (by decide)]
  · simp [Sheet.toHtml]

lemma beginsStyle_of_block (h : S.sheet.toHtml.toList <+: w) : BeginsStyle w := by
  obtain ⟨name, -, -, hblock⟩ := exists_block_eq S
  obtain ⟨t, rfl⟩ := h
  exact ⟨_, Or.inl (by rw [hblock]; rfl)⟩

lemma beginsStyle_of_endTag (h : "</style>".toList <+: w) : BeginsStyle w := by
  obtain ⟨t, rfl⟩ := h
  exact ⟨_, Or.inr rfl⟩

/-- Behind a closing bracket in the block stand the rules and its end tag. -/
lemma block_behind_bracket (h : S.sheet.toHtml.toList = x ++ y) (hx : ['>'] <:+ x) (hy : y ≠ []) :
    y = S.sheet.css.toList ++ "</style>".toList := by
  obtain ⟨name, -, hname, hblock⟩ := exists_block_eq S
  obtain ⟨x, rfl⟩ := hx
  obtain ⟨y, c, rfl⟩ := (List.eq_nil_or_concat' y).resolve_left hy
  have hend : "</style>".toList = "</style".toList ++ ['>'] := by decide
  have hsplit : '<' :: 's' :: 't' :: (name ++ '>' :: (S.sheet.css.toList ++ "</style".toList)) ++ ['>'] =
      x ++ '>' :: y ++ [c] := by
    rw [hblock, hend] at h
    simpa using h
  obtain ⟨hfront, hlast⟩ := List.append_inj' hsplit rfl
  have hcss := not_mem_css S (c := '>') (Or.inr rfl)
  obtain ⟨-, rfl⟩ := eq_of_append_cons (c := '>') (p := x) (q := y) (m := '<' :: 's' :: 't' :: name)
    (by simp [hname]) (by simp [hcss]) hfront.symm
  rw [← hlast, hend, List.append_assoc]

/-- A bracket in the block that is not its first character begins its end tag. -/
lemma block_from_bracket (h : S.sheet.toHtml.toList = x ++ '<' :: y) (hx : x ≠ []) : '<' :: y = "</style>".toList := by
  obtain ⟨name, hname, -, hblock⟩ := exists_block_eq S
  obtain ⟨c, x, rfl⟩ := List.exists_cons_of_ne_nil hx
  have hend : "</style>".toList = '<' :: "/style>".toList := by decide
  have hcss := not_mem_css S (c := '<') (Or.inl rfl)
  rw [hblock, hend, List.cons_append] at h
  obtain ⟨-, rfl⟩ := eq_of_append_cons (c := '<') (p := x) (q := y)
    (m := 's' :: 't' :: (name ++ '>' :: S.sheet.css.toList)) (r := "/style>".toList) (by simp [hname, hcss])
    (by decide) (by simpa using (List.cons.inj h).2.symm)
  exact hend.symm

/-- A copy that begins in the front part and reaches into the rest is cut in two. -/
lemma exists_of_block_cut (h : S.sheet.toHtml.toList <+: x ++ v) :
    S.sheet.toHtml.toList <+: x ∨ ∃ y, y ≠ [] ∧ S.sheet.toHtml.toList = x ++ y ∧ y <+: v := by
  rcases List.prefix_or_prefix_of_prefix h (List.prefix_append x v) with hstart | ⟨y, hy⟩
  · exact Or.inl hstart
  · by_cases hne : y = []
    · rw [← hy, hne, List.append_nil]
      exact Or.inl (List.prefix_refl x)
    · rw [← hy, List.prefix_append_right_inj] at h
      exact Or.inr ⟨y, hne, hy.symm, h⟩

/-- Behind a closing bracket the copies add up, unless the rules and the end tag of the block stand there. -/
lemma copies_behind_closed (hu : u = [] ∨ ['>'] <:+ u) (hv : ¬ S.sheet.css.toList ++ "</style>".toList <+: v) :
    Text.copies S.sheet.toHtml.toList (u ++ v) =
      Text.copies S.sheet.toHtml.toList u + Text.copies S.sheet.toHtml.toList v := by
  refine Text.copies_append fun x hx hsuffix hstart => (exists_of_block_cut S hstart).resolve_right ?_
  rintro ⟨y, hne, hblock, hy⟩
  have hclosed : ['>'] <:+ x := by
    rcases hu with rfl | hu
    · exact absurd (List.suffix_nil.1 hsuffix) hx
    · rcases List.suffix_or_suffix_of_suffix hu hsuffix with h | h
      · exact h
      · rcases List.suffix_cons_iff.1 h with rfl | h
        · exact List.suffix_refl _
        · exact absurd (List.suffix_nil.1 h) hx
  exact hv (block_behind_bracket S hblock hclosed hne ▸ hy)

/-- Between a closing bracket and markup a text without tags of style elements, but the rules themselves, is in no
copy. -/
lemma copies_between (hu : u = [] ∨ ['>'] <:+ u) (hv : Unstyled v rest) (hne : v ≠ S.sheet.css.toList)
    (hrest : rest = [] ∨ beginsMarkup rest = true) :
    Text.copies S.sheet.toHtml.toList (u ++ (v ++ rest)) =
      Text.copies S.sheet.toHtml.toList u + Text.copies S.sheet.toHtml.toList rest := by
  have hrules : ¬ S.sheet.css.toList ++ "</style>".toList <+: v ++ rest := by
    intro hstart
    have hcss := (List.prefix_append S.sheet.css.toList _).trans hstart
    rcases List.prefix_or_prefix_of_prefix hcss (List.prefix_append v rest) with ⟨x, rfl⟩ | ⟨z, hz⟩
    · -- behind the rules the text goes on, and not with an end tag
      rw [List.append_assoc, List.prefix_append_right_inj] at hstart
      have hx : x ≠ [] := by
        rintro rfl
        exact hne (List.append_nil _)
      exact hv x hx (List.suffix_append _ _) (beginsStyle_of_endTag hstart)
    · -- the text ends within the rules, where no markup stands
      rw [← hz, List.append_assoc, List.prefix_append_right_inj] at hstart
      cases z with
      | nil => exact hne (by simpa using hz)
      | cons c z =>
        obtain ⟨t, rfl⟩ := hstart
        obtain ⟨t', ht'⟩ := Place.exists_of_beginsMarkup (hrest.resolve_left (by simp))
        obtain rfl : c = '<' := (List.cons.inj ht').1
        exact not_mem_css S (c := '<') (Or.inl rfl) (by rw [← hz]; simp)
  rw [copies_behind_closed S hu hrules, Text.copies_append_of_none fun x hx hsuffix hstart =>
    hv x hx hsuffix (beginsStyle_of_block S hstart)]

/-- A copy does not begin inside of another one. -/
lemma not_block_inside (h : S.sheet.toHtml.toList = x ++ y) (hx : x ≠ []) (hy : y ≠ []) :
    ¬ S.sheet.toHtml.toList <+: y ++ v ∧ ¬ y <+: S.sheet.toHtml.toList := by
  obtain ⟨name, -, -, hblock⟩ := exists_block_eq S
  obtain ⟨c, y, rfl⟩ := List.exists_cons_of_ne_nil hy
  have hend : "</style>".toList = '<' :: '/' :: "style>".toList := by decide
  -- a bracket inside of the block begins its end tag, which is not how the block begins
  constructor
  · rw [hblock]
    rintro ⟨t, ht⟩
    obtain rfl : '<' = c := (List.cons.inj ht).1
    rw [block_from_bracket S h hx, hend] at ht
    simp at ht
  · rw [hblock]
    rintro ⟨t, ht⟩
    obtain rfl : c = '<' := (List.cons.inj ht).1
    rw [block_from_bracket S h hx, hend] at ht
    simp at ht

/-- **One more copy** of the block is in a text where the block was put in front of a tag that is no end tag of a style
element. -/
lemma copies_inserted (hv : beginsMarkup v = true) (hend : ¬ "</style>".toList <+: v) :
    Text.copies S.sheet.toHtml.toList (u ++ (S.sheet.toHtml.toList ++ v)) =
      Text.copies S.sheet.toHtml.toList (u ++ v) + 1 := by
  obtain ⟨c, block, hchars⟩ := List.exists_cons_of_ne_nil (toHtml_ne_nil S.sheet)
  have hfront : Text.copies S.sheet.toHtml.toList (u ++ (S.sheet.toHtml.toList ++ v)) =
      Text.copies S.sheet.toHtml.toList u + Text.copies S.sheet.toHtml.toList (S.sheet.toHtml.toList ++ v) := by
    refine Text.copies_append fun x hx _ hstart => (exists_of_block_cut S hstart).resolve_right ?_
    rintro ⟨y, hne, hblock, hy⟩
    refine (not_block_inside (v := v) S hblock hx hne).2 ?_
    have hlength := congrArg List.length hblock
    rw [List.length_append] at hlength
    exact List.prefix_of_prefix_length_le hy (List.prefix_append _ v) (by omega)
  have hblock : Text.copies S.sheet.toHtml.toList (S.sheet.toHtml.toList ++ v) =
      1 + Text.copies S.sheet.toHtml.toList v := by
    have hinside : Text.copies S.sheet.toHtml.toList (block ++ v) = Text.copies S.sheet.toHtml.toList v := by
      refine Text.copies_append_of_none fun x hx hsuffix => ?_
      obtain ⟨z, rfl⟩ := hsuffix
      exact (not_block_inside (x := c :: z) S hchars (by simp) hx).1
    rw [← hinside]
    conv_lhs => rw [hchars]
    rw [List.cons_append, Text.copies, ← hchars, ← List.cons_append, ← hchars, if_pos]
    exact List.prefix_append _ _
  have hplain : Text.copies S.sheet.toHtml.toList (u ++ v) =
      Text.copies S.sheet.toHtml.toList u + Text.copies S.sheet.toHtml.toList v := by
    refine Text.copies_append fun x hx _ hstart => (exists_of_block_cut S hstart).resolve_right ?_
    rintro ⟨y, hne, hblock, hy⟩
    obtain ⟨t, rfl⟩ := Place.exists_of_beginsMarkup hv
    obtain ⟨d, y, rfl⟩ := List.exists_cons_of_ne_nil hne
    obtain rfl : d = '<' := (List.cons_prefix_cons.1 hy).1
    exact hend (block_from_bracket S hblock hx ▸ hy)
  rw [hfront, hblock, hplain]
  omega

end Block

/-! ## Conversions -/

section Conversions

variable (S : CheckedSettings) (hcss : ∀ kind, ¬ (S.grammar.rule kind).Holds S.sheet.css.toList) {counts : Counts}
  {r : Reading} {p : Place} {u s rest content : Text} {tokens : List Token}

lemma mem_render {segments : List Segment} (h : segments.any (fun x => x.piece.isMarker) = true) :
    '<' ∈ S.layout.render segments := by
  obtain ⟨x, hx, hmarker⟩ := List.any_eq_true.1 h
  refine List.mem_flatMap.2 ⟨x, hx, ?_⟩
  cases x with
  | text t => cases hmarker
  | equation e =>
    show '<' ∈ S.layout.toHtml e
    rw [toHtml_eq S.isPlainName_className, startTag_eq]
    simp

include hcss

/-- The conversion of a text behind a closing bracket makes no copy of the block and breaks none. -/
lemma copies_text (hu : u = [] ∨ ['>'] <:+ u) (hne : content ≠ []) (hunbroken : Unbroken content rest)
    (hrest : rest = [] ∨ beginsMarkup rest = true) (counts : Counts) :
    Text.copies S.sheet.toHtml.toList (u ++ (content ++ rest)) =
      Text.copies S.sheet.toHtml.toList
        (u ++ (S.layout.render ((Token.text .data content).segments S.grammar counts).1 ++ rest)) := by
  obtain ⟨happart, -, -⟩ := segments_text (g := S.grammar) counts content hne
  have hwritten : ((Token.text .data content).segments S.grammar counts).1.flatMap S.grammar.writtenSegment = content :=
    Token.flatMap_written_segments (g := S.grammar) counts (.text .data content)
  have hrender := unstyled_render S.isPlainName_className happart (hwritten.symm ▸ hunbroken) hrest
  cases found : S.grammar.segment? counts content with
  | none => simp [Token.segments, found, Layout.render, Layout.renderSegment]
  | some x =>
    obtain ⟨segments, after⟩ := x
    obtain ⟨⟨kind, hholds⟩, hnumber⟩ := S.grammar.segment?_eq_some_iff.1 found
    have hmarker : segments.any (fun x => x.piece.isMarker) = true := by
      have hpieces := S.grammar.any_marker_iff.2 ⟨kind, hholds⟩
      rw [← Segment.map_piece_of_number hnumber, List.any_map] at hpieces
      exact hpieces
    have hsegments : ((Token.text .data content).segments S.grammar counts).1 = segments := by
      simp [Token.segments, found]
    rw [hsegments] at hrender ⊢
    rw [copies_between S hu hunbroken.unstyled (fun heq => hcss kind (heq ▸ hholds)) hrest,
      copies_between S hu hrender (fun heq => not_mem_css S (c := '<') (Or.inl rfl) (heq ▸ mem_render S hmarker)) hrest]

/-- **A conversion keeps the number of copies** of the style block, as long as no marker is in the rules.

The induction is on the tokens, and moves one token after the other into the front part `u`. Wherever a text may
come next, the front part ends in a closing bracket, so that no copy reaches from it into the text unless the text
is the rules. -/
lemma copies_converted (hr : r ≠ .toggle) (hp : p.Tidy)
    (hu : p.mode = .data → (s = [] ∨ beginsMarkup s = true) ∨ u = [] ∨ ['>'] <:+ u) (h : p.tokens r s = .ok tokens)
    (hg : Orderly S.grammar p.context tokens) (counts : Counts) :
    Text.copies S.sheet.toHtml.toList (u ++ s) =
      Text.copies S.sheet.toHtml.toList (u ++ S.layout.render (segments S.grammar counts tokens).1) := by
  induction tokens generalizing p s u counts with
  | nil =>
    obtain rfl := Place.tokens_eq_nil_iff.1 h
    rfl
  | cons token tokens ih =>
    obtain ⟨hs, p', rest, hreads, hlater⟩ := (Place.tokens_eq_cons_iff hr).1 h
    obtain ⟨htoken, hg⟩ := hg
    obtain ⟨hp', hcontext⟩ := hreads.tidy hp htoken
    have hrest : ∀ {u}, (p'.mode = .data → (rest = [] ∨ beginsMarkup rest = true) ∨ u = [] ∨ ['>'] <:+ u) → _ :=
      fun {u} hu => ih (u := u) hp' hu hlater (hcontext ▸ hg) (token.segments S.grammar counts).2
    have hrender : S.layout.render (segments S.grammar counts (token :: tokens)).1 =
        S.layout.render (token.segments S.grammar counts).1 ++
          S.layout.render (segments S.grammar (token.segments S.grammar counts).2 tokens).1 :=
      List.flatMap_append
    have hraw := hreads.raw_append
    rw [hrender, ← hraw]
    cases hdata : token.data? with
    | some content =>
      obtain rfl := Token.eq_of_data? hdata
      obtain ⟨htake, hne, hmode, rfl⟩ := takeText_of_reads hp hreads
      have hhere : p.mode = .data := hmode.symm
      rw [hhere] at htake
      obtain ⟨hunbroken, hends⟩ := unbroken_of_takeText htake
      have hclosed : u = [] ∨ ['>'] <:+ u := by
        refine (hu hhere).resolve_left ?_
        rintro (hnil | hbegins)
        · exact hs hnil
        · have hnot := hunbroken content hne (List.suffix_refl _)
          rw [show content ++ rest = s from hraw, hbegins] at hnot
          cases hnot
      show Text.copies _ (u ++ (content ++ rest)) = _
      rw [copies_text S hcss hclosed hne hunbroken hends counts, ← List.append_assoc, ← List.append_assoc]
      exact hrest fun _ => Or.inl hends
    | none =>
      have hkept : S.layout.render (token.segments S.grammar counts).1 = token.raw := by
        rw [Token.segments_of_not_data hdata]
        simp [Layout.render, Layout.renderSegment]
      rw [hkept, ← List.append_assoc, ← List.append_assoc]
      refine hrest fun hmode => ?_
      have hmarkup : ∀ mode content, token ≠ .text mode content := by
        rintro mode content rfl
        obtain ⟨-, -, rfl, rfl⟩ := takeText_of_reads hp hreads
        rw [hmode] at hdata
        cases hdata
      exact (hreads.closed hs hmode hmarkup).imp Or.inl fun hend => Or.inr (hend.trans (List.suffix_append _ _))

end Conversions

end Html

end MarkedMath
