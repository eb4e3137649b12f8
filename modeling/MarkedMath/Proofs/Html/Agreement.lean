import MarkedMath.Proofs.Html.Fragments

/-!
# The same document as text and as a tree

The markers of a document can be converted in its markup or in its tree. Markup is read by a reader that tells
from the tags whether a text is data; in a tree the texts in skipped elements are left alone. Both give the
same markup and count the same equations exactly when every text with a marker is read as data where it is
shown, and only there (`Session.process_agrees_iff`). Where one of them converts a text and the other does not,
what they write parts at the first such text, whatever stands behind it.
-/

namespace MarkedMath

/-- Two texts that differ where neither of them has ended. -/
def Text.Parted (s t : Text) : Prop :=
  ∃ u a v b w, s = u ++ a :: v ∧ t = u ++ b :: w ∧ a ≠ b

namespace Text.Parted

variable {s t : Text}

lemma ne (h : s.Parted t) : s ≠ t := by
  obtain ⟨u, a, v, b, w, rfl, rfl, hab⟩ := h
  intro heq
  exact hab (List.cons.inj (List.append_cancel_left heq)).1

lemma symm (h : s.Parted t) : t.Parted s := by
  obtain ⟨u, a, v, b, w, hs, ht, hab⟩ := h
  exact ⟨u, b, w, a, v, ht, hs, hab.symm⟩

lemma append_left (h : s.Parted t) (x : Text) : Parted (x ++ s) (x ++ t) := by
  obtain ⟨u, a, v, b, w, rfl, rfl, hab⟩ := h
  exact ⟨x ++ u, a, v, b, w, by simp, by simp, hab⟩

lemma append_right (h : s.Parted t) (x y : Text) : Parted (s ++ x) (t ++ y) := by
  obtain ⟨u, a, v, b, w, rfl, rfl, hab⟩ := h
  exact ⟨u, a, v ++ x, b, w ++ y, by simp, by simp, hab⟩

end Text.Parted

namespace Grammar

variable {g : Grammar} {l : Layout}

lemma convert_of_not_holds {s : Text} (h : ∀ kind, ¬ (g.rule kind).Holds s) (counts : Counts) :
    g.convert l counts s = (s, counts) := by
  rw [convert, g.segment?_eq_none_iff.2 h]

/-- An equation begins with a bracket, and its marker with a token. -/
lemma parted_render (hg : g.Inert) {segments : List Segment}
    (h : (segments.map Segment.piece).any Piece.isMarker = true) :
    Text.Parted (segments.flatMap g.writtenSegment) (l.render segments) := by
  induction segments with
  | nil => simp at h
  | cons segment segments ih =>
    rw [List.flatMap_cons, Layout.render, List.flatMap_cons]
    cases segment with
    | text t => exact (ih (by simpa [Segment.piece, Piece.isMarker] using h)).append_left t
    | equation e =>
      obtain ⟨a, v, hstart⟩ := List.exists_cons_of_ne_nil (g.start_ne_nil e.kind)
      have ha : isInert a = true := (hg e.kind).start a (hstart ▸ List.mem_cons_self ..)
      have hne : a ≠ '<' := by
        rintro rfl
        cases ha
      obtain ⟨v', hwritten⟩ : ∃ v', g.writtenSegment (.equation e) = a :: v' := by
        rw [writtenSegment, Rule.written, hstart]
        exact ⟨_, rfl⟩
      obtain ⟨w, hrendered⟩ : ∃ w, l.renderSegment (.equation e) = '<' :: w := by
        rw [Layout.renderSegment, Layout.toHtml, String.toList_append]
        exact ⟨_, rfl⟩
      exact Text.Parted.append_right ⟨[], a, v', '<', w, hwritten, hrendered, hne⟩ _ _

/-- A text with a marker parts from what becomes of it. -/
lemma parted_convert (hg : g.Inert) {s : Text} (h : ∃ kind, (g.rule kind).Holds s) (counts : Counts) :
    Text.Parted s (g.convert l counts s).1 := by
  obtain ⟨segments, after, hnumber⟩ : ∃ segments after, Segment.number counts (g.pieces s) = (segments, after) :=
    ⟨_, _, rfl⟩
  have hpieces := Segment.map_piece_of_number hnumber
  have hwritten : segments.flatMap g.writtenSegment = s := by
    rw [← g.flatMap_written_pieces s, ← hpieces, List.flatMap_map]
    simp only [writtenPiece_piece]
  have hmarker : (segments.map Segment.piece).any Piece.isMarker = true := by
    rwa [hpieces, g.any_marker_iff]
  have hparted := parted_render (l := l) hg hmarker
  rw [hwritten] at hparted
  rwa [convert, g.segment?_eq_some_iff.2 ⟨h, hnumber⟩]

end Grammar

namespace Html

/-- Whether a fragment comes out alike: it is read as data exactly where it is shown, or holds no marker. -/
def Fragment.Alike (g : Grammar) (x : Fragment) : Prop :=
  x.asData = x.shown ∨ ∀ kind, ¬ (g.rule kind).Holds x.written

variable {g : Grammar} {l : Layout}

/-- What becomes of fragments is the same, or parts. -/
lemma Fragment.eq_or_parted (hg : g.Inert) (counts : Counts) (xs : List Fragment) :
    ((∀ x ∈ xs, x.Alike g) ∧ convertAll g l asData counts xs = convertAll g l shown counts xs) ∨
      ((∃ x ∈ xs, ¬ x.Alike g) ∧
        Text.Parted (convertAll g l asData counts xs).1 (convertAll g l shown counts xs).1) := by
  induction xs generalizing counts with
  | nil => exact Or.inl ⟨by simp, rfl⟩
  | cons x xs ih =>
    by_cases hx : x.Alike g
    · -- both sides make the same of the fragment
      obtain ⟨r, hdata, hshown⟩ : ∃ r,
          (if x.asData then g.convert l counts x.written else (x.written, counts)) = r ∧
          (if x.shown then g.convert l counts x.written else (x.written, counts)) = r := by
        rcases hx with hsame | hnone
        · exact ⟨_, rfl, by rw [hsame]⟩
        · refine ⟨(x.written, counts), ?_, ?_⟩ <;> simp [g.convert_of_not_holds hnone]
      simp only [convertAll, hdata, hshown, List.forall_mem_cons, List.exists_mem_cons_iff, hx, true_and, not_true,
        false_or]
      rcases ih r.2 with ⟨halike, heq⟩ | ⟨hnot, hparted⟩
      · exact Or.inl ⟨halike, by rw [heq]⟩
      · exact Or.inr ⟨hnot, hparted.append_left r.1⟩
    · refine Or.inr ⟨⟨x, List.mem_cons_self .., hx⟩, ?_⟩
      obtain ⟨hne, hholds⟩ := not_or.1 hx
      have hparted := g.parted_convert (l := l) hg (by simpa using hholds) counts
      simp only [convertAll]
      cases hdata : x.asData <;> cases hshown : x.shown
      · exact absurd (hdata.trans hshown.symm) hne
      · exact hparted.append_right _ _
      · exact hparted.symm.append_right _ _
      · exact absurd (hdata.trans hshown.symm) hne

lemma Fragment.convertAll_eq_iff (hg : g.Inert) (counts : Counts) (xs : List Fragment) :
    convertAll g l asData counts xs = convertAll g l shown counts xs ↔ ∀ x ∈ xs, x.Alike g := by
  rcases eq_or_parted (l := l) hg counts xs with ⟨halike, heq⟩ | ⟨⟨x, hx, hnot⟩, hparted⟩
  · exact iff_of_true heq halike
  · exact iff_of_false (fun heq => hparted.ne (congrArg Prod.fst heq)) fun halike => hnot (halike x hx)

/-- A written document that can be processed comes out with what is read as data converted. -/
lemma process_of_readable {settings : CheckedSettings} {f : Forest} (hf : Readable false f) (hproper : f.Proper)
    (hnormal : f.Normal) {out : Converted}
    (hout : process settings (f.write Document.markupStyle false) = .ok out) :
    ∃ xs p, fragments {} true false f = .ok (xs, p) ∧
      (out.html, out.counts) = Fragment.convertAll settings.grammar settings.layout Fragment.asData {} xs := by
  obtain ⟨tags, -, hout⟩ := exists_of_bind_eq_ok hout
  obtain ⟨tokens, htokens, hout⟩ := exists_of_bind_eq_ok hout
  have hread := outcome_write (g := settings.grammar) (l := settings.layout) Place.steady_start hf hproper hnormal
    (Or.inl rfl) true {}
  have hfirst : ({} : Place).tokens .conversion (f.write Document.markupStyle false) = .ok tokens := htokens
  rw [List.append_nil, Place.outcome, hfirst] at hread
  cases hfragments : fragments {} true false f with
  | error e =>
    rw [hfragments] at hread
    cases hread
  | ok x =>
    obtain ⟨xs, p⟩ := x
    refine ⟨xs, p, rfl, ?_⟩
    rw [hfragments] at hread
    simp only [Except.bind, Place.outcome_nil] at hread
    have houtcome : Outcome.ofTokens settings.grammar settings.layout {} tokens =
        ⟨(Fragment.convertAll settings.grammar settings.layout Fragment.asData {} xs).1,
          (Fragment.convertAll settings.grammar settings.layout Fragment.asData {} xs).2, false⟩ := by
      simpa [Except.map, Outcome.behind] using hread
    -- no head is begun, so there is no place for the style rules
    have hnoHead : tokens.any Token.beginsHead = false := by
      rw [← Outcome.head_ofTokens (g := settings.grammar) (l := settings.layout) {}, houtcome]
    have hplain : injection settings.sheet tags tokens ≠ .inserted := by
      rw [injection, hnoHead, Bool.and_false]
      split <;> simp
    have hconverted : writeConverted settings.grammar settings.layout none {} {} tokens =
        Fragment.convertAll settings.grammar settings.layout Fragment.asData {} xs :=
      (writeConverted_none {} {} tokens).trans (by rw [houtcome])
    simp only [if_neg hplain, hconverted] at hout
    obtain rfl := Except.ok.inj hout
    rfl

lemma not_head_of_readable {f : Forest} {raw : Bool} (hf : Readable raw f) (hproper : f.Proper) {id : NodeId}
    {attributes : List (String × Text)} : (id, .element "head" attributes) ∉ f.entries := by
  induction f generalizing raw with
  | nil => simp [Forest.entries]
  | node i data children next ihc ihn =>
    cases data with
    | comment t => exact hf.1.elim
    | text t =>
      obtain rfl := (Forest.Has.here next).eq_nil_of_text hproper
      simpa [Forest.entries] using ihn hf.2 hproper.2.2
    | element tag attributes' =>
      obtain ⟨⟨⟨-, hhead, -⟩, hchildren⟩, hnext⟩ := hf
      simp only [Forest.entries, List.mem_cons, List.mem_append, not_or, Prod.mk.injEq, NodeData.element.injEq]
      exact ⟨fun h => hhead h.2.1.symm, ihc hchildren hproper.2.1, ihn hnext hproper.2.2⟩

/-! ## Ordinary documents -/

/-- Forests without drawings and formulas in which the only elements with a text of another mode are skipped
ones, with nothing but texts in them. -/
def Ordinary : Forest → Prop
  | .nil => True
  | .node _ (.element tag _) children next =>
    tag ∉ foreignRoots ∧
      (if tag ∈ skippedTags then ∀ x ∈ children.entries, x.2.text?.isSome = true
        else isSpecial tag = false ∧ Ordinary children) ∧
      Ordinary next
  | .node _ _ _ next => Ordinary next

/-- A place outside drawings and formulas. -/
def Place.IsHtml (p : Place) : Prop :=
  p.context.vocabulary = .html ∧ p.context.outer = []

variable {p p' : Place} {f : Forest} {shown raw : Bool} {xs : List Fragment} {tag : String}
  {attributes : List (String × Text)}

lemma Place.IsHtml.behindStart (hp : p.IsHtml) (hdata : p.mode = .data) (htag : IsElementName tag)
    (hforeign : tag ∉ foreignRoots) (h : p.behindStart tag attributes = .ok p') :
    p'.IsHtml ∧ p'.mode = TextMode.ofElement tag ∧ p'.element = tag := by
  rw [Place.behindStart, if_pos hdata] at h
  obtain ⟨⟨token, p''⟩, hopening, rfl⟩ := exists_of_map_eq_ok h
  obtain ⟨context, hcontext, heq⟩ := exists_of_map_eq_ok hopening
  obtain ⟨-, rfl⟩ := Prod.mk.inj heq
  obtain ⟨doubt, -, rfl⟩ := exists_of_map_eq_ok hcontext
  have hsvg : tag ≠ "svg" := fun h => hforeign (h ▸ by decide)
  have hmath : tag ≠ "math" := fun h => hforeign (h ▸ by decide)
  have hkept : Context.enterVocabulary { p.context with doubt } (.ofWritten tag attributes) =
      { p.context with doubt } := by
    simp [Context.enterVocabulary, Tag.element_ofWritten htag, hsvg, hmath, hp.1]
  refine ⟨?_, ?_, Tag.element_ofWritten htag attributes⟩
  · simp only [hkept]
    exact hp
  · simp [Reading.modeBehind, Tag.lacksValue_ofWritten, Context.textMode, hp.1, Tag.element_ofWritten htag]

lemma Place.IsHtml.behindStop (hp : p.IsHtml) (hawaits : p.awaits tag = true) :
    (p.behindStop tag).IsHtml ∧ (p.behindStop tag).mode = .data := by
  rw [Place.behindStop, if_pos hawaits]
  refine ⟨?_, rfl⟩
  simp [IsHtml, close, Context.leave, Context.leaveVocabulary, hp.1, hp.2]

/-- Texts do not change the place. -/
lemma fragments_of_texts (hf : ∀ x ∈ f.entries, x.2.text?.isSome = true)
    (h : fragments p shown raw f = .ok (xs, p')) :
    p' = p ∧ ∀ x ∈ xs, x.asData = decide (p.mode = .data) ∧ x.shown = shown := by
  induction f generalizing xs with
  | nil =>
    obtain ⟨rfl, rfl⟩ := Prod.mk.inj (Except.ok.inj h)
    simp
  | node id data children next _ ihn =>
    cases data with
    | comment t => cases hf (id, .comment t) (by simp [Forest.entries])
    | element tag attributes => cases hf (id, .element tag attributes) (by simp [Forest.entries])
    | text t =>
      obtain ⟨⟨others, p''⟩, hothers, heq⟩ := exists_of_map_eq_ok h
      obtain ⟨rfl, rfl⟩ := Prod.mk.inj heq
      obtain ⟨hsame, halike⟩ := ihn (fun x hx => hf x (by simp [Forest.entries, hx])) hothers
      exact ⟨hsame, List.forall_mem_cons.2 ⟨⟨rfl, rfl⟩, halike⟩⟩

lemma ofElement_of_skipped : ∀ tag ∈ skippedTags,
    TextMode.ofElement tag ≠ .data ∧ TextMode.ofElement tag ≠ .plain := by
  decide

/-- In an ordinary forest exactly the texts outside skipped elements are read as data. -/
lemma asData_eq_shown (hf : Readable raw f) (hordinary : Ordinary f) (hp : p.IsHtml) (hdata : p.mode = .data)
    (h : fragments p true raw f = .ok (xs, p')) :
    (p'.IsHtml ∧ p'.mode = .data) ∧ ∀ x ∈ xs, x.asData = x.shown := by
  induction f generalizing p p' raw xs with
  | nil =>
    obtain ⟨rfl, rfl⟩ := Prod.mk.inj (Except.ok.inj h)
    exact ⟨⟨hp, hdata⟩, by simp⟩
  | node id data children next ihc ihn =>
    cases data with
    | comment t => exact hf.1.elim
    | text t =>
      obtain ⟨⟨others, p''⟩, hothers, heq⟩ := exists_of_map_eq_ok h
      obtain ⟨rfl, rfl⟩ := Prod.mk.inj heq
      obtain ⟨hplace, halike⟩ := ihn hf.2 hordinary hp hdata hothers
      exact ⟨hplace, List.forall_mem_cons.2 ⟨decide_eq_true hdata, halike⟩⟩
    | element tag attributes =>
      obtain ⟨⟨⟨htag, -⟩, hchildren⟩, hnext⟩ := hf
      obtain ⟨hforeign, hinside, hordinary⟩ := hordinary
      obtain ⟨inside, inner, behind, others, hstart, hinner, hothers, rfl⟩ := exists_of_fragments_element h
      obtain ⟨hhtml, hmode, helement⟩ := hp.behindStart hdata htag hforeign hstart
      -- either way the end tag is read as one, and the texts inside are alike
      obtain ⟨hbehind, hawaits, halike⟩ : behind.IsHtml ∧ behind.awaits tag = true ∧
          ∀ x ∈ inner, x.asData = x.shown := by
        split at hinside
        · next hskipped =>
          obtain ⟨hother, hplain⟩ := ofElement_of_skipped tag hskipped
          obtain ⟨rfl, hinner⟩ := fragments_of_texts hinside hinner
          have hcontains : skippedTags.contains tag = true := List.contains_iff_mem.2 hskipped
          refine ⟨hhtml, ?_, fun x hx => ?_⟩
          · simp [Place.awaits, hmode, hplain, helement]
          · rw [(hinner x hx).1, (hinner x hx).2, hmode, decide_eq_false hother, hcontains]
            rfl
        · next hskipped =>
          have hnone : TextMode.special.lookup tag = none := by simpa [isSpecial] using hinside.1
          rw [TextMode.ofElement, hnone] at hmode
          have hcontains : skippedTags.contains tag = false := by simpa using hskipped
          rw [hcontains] at hinner
          obtain ⟨⟨hbehind, hdata⟩, halike⟩ := ihc hchildren hinside.2 hhtml hmode hinner
          exact ⟨hbehind, by simp [Place.awaits, hdata], halike⟩
      obtain ⟨hbehind, hdata⟩ := hbehind.behindStop hawaits
      obtain ⟨hplace, hothers⟩ := ihn hnext hordinary hbehind hdata hothers
      refine ⟨hplace, ?_⟩
      simp only [List.cons_append, List.forall_mem_cons, List.forall_mem_append]
      exact ⟨trivial, halike, trivial, hothers⟩

end Html

namespace Session

variable {s : Session} {e : Engine}

/-- Processing the markup of the body, and a pass, from any well-formed document. -/
lemma process_innerMarkup_iff (index : Nat) (hr : e.refusals = {}) (htokens : e.settings.tokens = {})
    (h : s.document.WellFormed) (hnormal : (s.document.forest.childrenOf Document.body).Normal)
    (hreadable : Html.Readable false (s.document.forest.childrenOf Document.body)) {out : Html.Converted}
    (hout : Html.process e.settings (s.document.innerMarkup Document.body) = .ok out) :
    ∃ xs p, Html.fragments {} true false (s.document.forest.childrenOf Document.body) = .ok (xs, p) ∧
      (out.html = (s.pass index e).2.document.innerMarkup Document.body ∧
          out.counts = (s.pass index e).1.counts ↔
        ∀ x ∈ xs, x.Alike e.settings.grammar) := by
  obtain ⟨attributes, children, hbody⟩ := h.exists_has_body
  rw [hbody.childrenOf h.nodup] at hnormal hreadable ⊢
  have hproper := (hbody.proper h.proper).2
  -- no head stands below the body, so the style rules do not either
  have hstyled : s.document.styledBody e.settings.sheet = children := by
    obtain ⟨headAttributes, headChildren, hhead⟩ := h.exists_has_head
    have hnot : Document.head ∉ children.ids := fun hin =>
      Html.not_head_of_readable hreadable hproper ((Document.head_mem_ids_iff h hhead.mem_entries hbody).1 hin)
    rw [Document.styledBody, hbody.childrenOf h.nodup, Forest.appendTo_of_not_mem hnot]
    exact ite_self _
  have hpass := pass_writeConverted index hr htokens h (by rwa [hbody.childrenOf h.nodup])
  have hmarkup : s.document.innerMarkup Document.body = children.write Document.markupStyle false := by
    rw [Document.innerMarkup, Forest.innerMarkup, hbody.find? h.nodup]
    rfl
  rw [hmarkup] at hout
  obtain ⟨xs, p, hxs, hwritten⟩ := Html.process_of_readable hreadable hproper hnormal hout
  refine ⟨xs, p, hxs, ?_⟩
  rw [← Html.Fragment.convertAll_eq_iff (e.settings.grammar.inert_of_tokens htokens), ← hwritten,
    ← Html.writeConverted_eq hreadable hxs, ← hstyled, ← hpass, Prod.mk.injEq]

/-- On an ordinary body both sides agree. -/
theorem process_agrees_of_ordinary (loading : Bool) (commands : List Command) (index : Nat) (e : Engine)
    (hr : e.refusals = {}) (htokens : e.settings.tokens = {})
    (hnormal : ((run loading commands).document.forest.childrenOf Document.body).Normal)
    (hreadable : Html.Readable false ((run loading commands).document.forest.childrenOf Document.body))
    (hordinary : Html.Ordinary ((run loading commands).document.forest.childrenOf Document.body))
    (out : Html.Converted)
    (hout : Html.process e.settings ((run loading commands).document.innerMarkup Document.body) = .ok out) :
    let s := run loading commands
    out.html = (s.pass index e).2.document.innerMarkup Document.body ∧
      out.counts = (s.pass index e).1.counts := by
  obtain ⟨xs, p, hxs, hiff⟩ :=
    process_innerMarkup_iff index hr htokens (sound_run loading commands).wellFormed hnormal hreadable hout
  exact hiff.2 fun x hx => Or.inl ((Html.asData_eq_shown hreadable hordinary ⟨rfl, rfl⟩ rfl hxs).2 x hx)

/-- **The same document as text and as a tree.** After any run, let an engine with the standard tokens be
refused nothing, and let the body be normal and its markup be read back as it is. When the markup of the body
can be processed, the outcome is the markup of the body after a pass, with the same equations counted, exactly
when each of its texts that holds a marker is read as data if, and only if, it stands outside skipped
elements.

`Readable` asks for more than that names of elements are plain, none of them is void, and raw texts and comments
are left out. It shuts out elements named `head`, since the markup gets the style rules at the end of one while the
tree gets them in its own head, and names of attributes that are empty or hold a blank, `/`, `>`, `=` or `<`, since
they are not read back as they are. With either of them the two sides may part although every text is alike. -/
theorem process_agrees_iff (loading : Bool) (commands : List Command) (index : Nat) (e : Engine)
    (hr : e.refusals = {}) (htokens : e.settings.tokens = {})
    (hnormal : ((run loading commands).document.forest.childrenOf Document.body).Normal)
    (hreadable : Html.Readable false ((run loading commands).document.forest.childrenOf Document.body))
    (out : Html.Converted)
    (hout : Html.process e.settings ((run loading commands).document.innerMarkup Document.body) = .ok out) :
    let s := run loading commands
    ∃ xs p, Html.fragments {} true false (s.document.forest.childrenOf Document.body) = .ok (xs, p) ∧
      (out.html = (s.pass index e).2.document.innerMarkup Document.body ∧
          out.counts = (s.pass index e).1.counts ↔
        ∀ x ∈ xs, x.Alike e.settings.grammar) :=
  process_innerMarkup_iff index hr htokens (sound_run loading commands).wellFormed hnormal hreadable hout

/-- An engine with the standard settings as it is built. -/
def standardEngine : Engine where
  settings := .standard
  refusals := {}
  typesetters := []

/-- A body with a marker in a paragraph and one in a title. -/
def titledBody : List Command :=
  [.build .standard {} [], .appendElement Document.body "p", .appendText 3 singleMarker,
    .appendElement Document.body "title", .appendText 5 singleMarker]

/-- The marker in the paragraph is converted on both sides, the one in the title on neither. -/
theorem process_agrees_titledBody :
    let s := run false titledBody
    s.engine? 0 = some standardEngine ∧ standardEngine.refusals = {} ∧ standardEngine.settings.tokens = {} ∧
      (s.document.forest.childrenOf Document.body).Normal ∧
      Html.Readable false (s.document.forest.childrenOf Document.body) ∧
      ∃ out, Html.process standardEngine.settings (s.document.innerMarkup Document.body) = .ok out ∧
        out.html = (s.pass 0 standardEngine).2.document.innerMarkup Document.body ∧
        out.counts = (s.pass 0 standardEngine).1.counts := by
  intro s
  have hnormal : (s.document.forest.childrenOf Document.body).Normal :=
    ⟨⟨rfl, by decide, trivial⟩, ⟨rfl, by decide, trivial⟩, trivial⟩
  have hreadable : Html.Readable false (s.document.forest.childrenOf Document.body) := by decide +kernel
  refine ⟨rfl, rfl, rfl, hnormal, hreadable, ?_⟩
  have hprocessed : (Html.process standardEngine.settings (s.document.innerMarkup Document.body)).toOption.isSome =
    true := by decide +kernel
  have hshown : ((Html.fragments {} true false (s.document.forest.childrenOf Document.body)).toOption.all fun r =>
    r.1.all fun x => x.asData = x.shown) = true := by decide +kernel
  cases hout : Html.process standardEngine.settings (s.document.innerMarkup Document.body) with
  | error _ => simp [hout, Except.toOption] at hprocessed
  | ok out =>
    obtain ⟨xs, p, hxs, hiff⟩ := process_agrees_iff false titledBody 0 standardEngine rfl rfl hnormal hreadable out hout
    refine ⟨out, rfl, hiff.2 fun x hx => Or.inl ?_⟩
    rw [show Html.fragments {} true false (s.document.forest.childrenOf Document.body) = .ok (xs, p) from hxs] at hshown
    simpa using List.all_eq_true.1 hshown x hx

/-- A drawing with a title that holds a marker. -/
def titledDrawing : List Command :=
  [.build .standard {} [], .appendElement Document.body "svg", .appendElement 3 "title", .appendText 4 singleMarker]

/-- In a drawing the text of a title is read as data, so its marker is converted in the markup, but not in the
tree. -/
theorem process_converts_titledDrawing :
    let s := run false titledDrawing
    s.engine? 0 = some standardEngine ∧ standardEngine.refusals = {} ∧ standardEngine.settings.tokens = {} ∧
      (s.document.forest.childrenOf Document.body).Normal ∧
      Html.Readable false (s.document.forest.childrenOf Document.body) ∧
      ∃ out, Html.process standardEngine.settings (s.document.innerMarkup Document.body) = .ok out ∧
        out.html ≠ (s.pass 0 standardEngine).2.document.innerMarkup Document.body := by
  intro s
  have hdiffers : ((Html.process standardEngine.settings (s.document.innerMarkup Document.body)).toOption.any fun out =>
      out.html ≠ (s.pass 0 standardEngine).2.document.innerMarkup Document.body) = true := by decide +kernel
  refine ⟨rfl, rfl, rfl, ⟨⟨⟨rfl, by decide, trivial⟩, trivial⟩, trivial⟩, by decide +kernel, ?_⟩
  cases hout : Html.process standardEngine.settings (s.document.innerMarkup Document.body) with
  | error _ => simp [hout, Except.toOption] at hdiffers
  | ok out =>
    refine ⟨out, rfl, ?_⟩
    simpa [hout, Except.toOption] using hdiffers

end Session

end MarkedMath
