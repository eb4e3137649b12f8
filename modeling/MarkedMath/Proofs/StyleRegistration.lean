import MarkedMath.Proofs.Normalizing
import MarkedMath.Proofs.SecondPass

/-!
# Registering the style rules

Style rules are looked for in the `html` element and below it, and are put into the head. After a pass or a
registration that added them they are found by the next pass exactly when the head stands below the `html`
element; when they were found they still are (`Session.styles_last_iff`). Nothing that a pass does to texts
touches the nodes that decide this, whatever texts are locked: `Document.Retains` says so of a class of nodes,
for one step and by induction for a conversion.
-/

namespace MarkedMath

namespace Document

/-- The nodes of a class are the same, in the whole document and below any node that is no text. -/
structure Retains (q : NodeId → NodeData → Prop) (d d' : Document) : Prop where
  /-- The document is well-formed. -/
  wellFormed : d'.WellFormed
  /-- Numbers of nodes go on. -/
  fresh_le : d.fresh ≤ d'.fresh
  /-- Below any node that is no text, they are the same. -/
  keeps : d.Keeps q d'
  /-- In the whole document, they are the same. -/
  mem_iff : ∀ i e, q i e → ((i, e) ∈ d'.forest.entries ↔ (i, e) ∈ d.forest.entries)

variable {q : NodeId → NodeData → Prop} {d d' d'' : Document} {l : Layout} {id base : NodeId} {t : Text}

lemma Retains.trans (h : d.Retains q d') (h' : d'.Retains q d'') : d.Retains q d'' where
  wellFormed := h'.wellFormed
  fresh_le := h.fresh_le.trans h'.fresh_le
  keeps := h.keeps.trans h'.keeps
  mem_iff i e he := (h'.mem_iff i e he).trans (h.mem_iff i e he)

lemma retains_normalize (h : d.WellFormed) (hq : ∀ i t, ¬ q i (.text t)) : d.Retains q d.normalize where
  wellFormed := (follows_normalize h).wellFormed
  fresh_le := Nat.le_refl _
  keeps := keeps_normalize h hq
  mem_iff i e he := by
    refine mem_entries_normalize_iff h ?_
    cases e with
    | text t => exact absurd he (hq i t)
    | _ => rfl

/-- Segments in the place of a text are texts and equations, so they add nothing to a class without these. -/
lemma retains_replaceText (h : d.WellFormed) (hq : l.Spares q base) (hbase : base ≤ d.fresh)
    (hid : (id, .text t) ∈ d.forest.entries) {segments : List Segment}
    (hok : d.replaceText id (segments.map l.nodeSpec) = .ok d') : d.Retains q d' := by
  obtain ⟨hforest, hfresh, -, hperm⟩ := forest_of_replaceText h hok
  obtain ⟨n, -, hnext, -⟩ := NodeSpec.buildAll_spec d.fresh (segments.map l.nodeSpec)
  have hnew : ∀ i e, (i, e) ∈ (NodeSpec.buildAll d.fresh (segments.map l.nodeSpec)).1.entries → ¬ q i e := by
    intro i e he
    rcases entries_buildAll segments he with ⟨u, rfl⟩ | ⟨equation, rfl, hi⟩
    · exact hq.text i u
    · exact hq.equation i equation (hbase.trans hi)
  constructor
  · exact (follows_replaceText h hok).wellFormed
  · rw [hfresh, hnext]
    exact Nat.le_add_right _ _
  · exact keeps_splice h hq.text hid hnew hforest
  · intro i e he
    rw [hperm.mem_iff, List.mem_append]
    exact or_iff_left fun hmem => hnew i e hmem he

end Document

namespace Session

variable {refusals : Refusals} {g : Grammar} {l : Layout} {s : Session} {q : NodeId → NodeData → Prop}

/-- A text that holds a marker is the text of a text node. -/
lemma mem_entries_of_segment? (h : s.document.WellFormed) {n : NodeId} {counts after : Counts}
    {segments : List Segment} (hsegment : g.segment? counts (s.document.textOf n) = some (segments, after)) :
    (n, .text (s.document.textOf n)) ∈ s.document.forest.entries := by
  obtain ⟨⟨kind, hholds⟩, -⟩ := g.segment?_eq_some_iff.1 hsegment
  cases hdata : (s.document.data? n).bind NodeData.text? with
  | none =>
    have hempty : s.document.textOf n = [] := by rw [Document.textOf, hdata, Option.getD_none]
    rw [hempty] at hholds
    exact absurd hholds (Rule.find?_eq_none_iff.1 rfl)
  | some t =>
    have htext : s.document.textOf n = t := by rw [Document.textOf, hdata, Option.getD_some]
    obtain ⟨data, hn, hdata⟩ := Option.bind_eq_some_iff.1 hdata
    obtain rfl := NodeData.text?_eq_some_iff.1 hdata
    rw [htext]
    exact (Forest.data?_eq_some_iff h.nodup).1 hn

/-- A conversion retains the nodes of a class without texts and equations, whatever texts are locked. -/
lemma convertDocument_retains (refusals : Refusals) (g : Grammar) (h : s.document.WellFormed)
    (hq : l.Spares q s.document.fresh) :
    s.document.Retains q (convertDocument (host refusals) g l s).2.document := by
  refine convertNodes_keeps_of (P := fun s' : Session => s.document.Retains q s'.document) ?_
    (fun _ _ h => h) {} _ (Document.retains_normalize h hq.text)
  intro n counts segments after s' hs' hsegment
  have hid := mem_entries_of_segment? hs'.wellFormed hsegment
  simp only [host]
  split
  · exact hs'
  · cases hok : s'.document.replaceText n (segments.map l.nodeSpec) with
    | error e => exact hs'
    | ok d => exact hs'.trans (Document.retains_replaceText hs'.wellFormed hq hs'.fresh_le hid hok)

/-! ## What a registration does -/

/-- What registering style rules can do. -/
lemma ensure_cases (sheet : Sheet) (refusals : Refusals) (h : s.document.WellFormed) :
    s.document.hasStyle sheet.id = true ∧ sheet.ensure (host refusals) s = (.alreadyPresent, s) ∨
      s.document.hasStyle sheet.id = false ∧
        ((sheet.ensure (host refusals) s).1 = .refused ∧
            (sheet.ensure (host refusals) s).2.document = s.document ∨
          (sheet.ensure (host refusals) s).1 = .inserted ∧
            (sheet.ensure (host refusals) s).2.document.forest = s.document.forest.appendTo Document.head
              (Document.styleTree s.document.fresh sheet.id sheet.css)) := by
  rw [Sheet.ensure]
  cases hstyle : s.document.hasStyle sheet.id with
  | true => exact Or.inl ⟨rfl, if_pos hstyle⟩
  | false =>
    refine Or.inr ⟨rfl, ?_⟩
    have hmissing : ¬ (host refusals).hasStyle sheet.id s = true := by
      show ¬ s.document.hasStyle sheet.id = true
      simp [hstyle]
    rw [if_neg hmissing]
    simp only [host]
    cases refusals.style with
    | some e => exact Or.inl ⟨rfl, rfl⟩
    | none =>
      obtain ⟨d, hok, hforest, -⟩ := Document.insertStyle_eq_ok h sheet.id sheet.css
      simp only [hok]
      exact Or.inr ⟨rfl, hforest⟩

/-- After a registration that was not refused the rules are found when they were found by it or the head stands
below the `html` element. -/
lemma hasStyle_ensure (sheet : Sheet) (refusals : Refusals) (h : s.document.WellFormed)
    (hdone : (sheet.ensure (host refusals) s).1 ≠ .refused) :
    (sheet.ensure (host refusals) s).2.document.hasStyle sheet.id = true ↔
      (sheet.ensure (host refusals) s).1 = .alreadyPresent ∨
        s.document.forest.isWithin Document.head Document.html = true := by
  rcases ensure_cases sheet refusals h with ⟨hfound, heq⟩ | ⟨hmissing, ⟨hrefused, -⟩ | ⟨hinserted, hforest⟩⟩
  · rw [heq]
    exact iff_of_true hfound (Or.inl rfl)
  · exact absurd hrefused hdone
  · have hwell := (ensure_keeps (host_keeps refusals s) sheet (Follows.refl h)).document.wellFormed
    rw [Document.hasStyle_appendTo h hwell hforest, hmissing, hinserted]
    simp

/-! ## The next pass -/

/-- The nodes that decide what registering style rules does, and all style elements. -/
def StyleNodes (id : String) (i : NodeId) (data : NodeData) : Prop :=
  Document.StyleRelevant id i data ∨ data.tag? = some "style"

lemma spares_styleNodes (l : Layout) (id : String) {fresh : NodeId} (hfresh : Document.head < fresh) :
    l.Spares (StyleNodes id) fresh where
  text i t := by
    rintro (h | h)
    · exact (Document.spares_styleRelevant l id hfresh).text i t h
    · cases h
  equation i e hi := by
    rintro (h | h)
    · exact (Document.spares_styleRelevant l id hfresh).equation i e hi h
    · cases hkind : e.kind <;> rw [Layout.equationData, NodeData.tag?, hkind] at h <;> revert h <;> decide

/-- A conversion leaves the rules where they are found, the head where it stands, and all style elements as they
are. -/
lemma convertDocument_retains_styles (refusals : Refusals) (g : Grammar) (l : Layout) (id : String)
    (h : s.document.WellFormed) :
    s.document.Retains (StyleNodes id) (convertDocument (host refusals) g l s).2.document ∧
      (convertDocument (host refusals) g l s).2.document.hasStyle id = s.document.hasStyle id ∧
      (convertDocument (host refusals) g l s).2.document.forest.isWithin Document.head Document.html =
        s.document.forest.isWithin Document.head Document.html := by
  obtain ⟨attributes, children, hhead⟩ := h.exists_has_head
  obtain ⟨htmlAttributes, htmlChildren, hhtml⟩ := h.exists_has_html
  have hretains := convertDocument_retains refusals g h
    (spares_styleNodes l id (h.lt_fresh _ hhead.mem_ids))
  have hkept : s.document.Keeps (Document.StyleRelevant id)
      (convertDocument (host refusals) g l s).2.document := hretains.keeps.mono fun _ _ => Or.inl
  exact ⟨hretains, Document.hasStyle_of_keeps h hretains.wellFormed hkept,
    Document.isWithin_head_of_keeps h hretains.wellFormed hkept rfl hhtml⟩

/-- A pass of the engine finds the style rules, and leaves the style elements of the document as they are. -/
def StylesLast (s : Session) (index : Nat) (e : Engine) : Prop :=
  (s.pass index e).1.styles = .alreadyPresent ∧
    ∀ i attributes, (s.pass index e).2.document.data? i = some (.element "style" attributes) ↔
      s.document.data? i = some (.element "style" attributes)

lemma stylesLast_iff (h : s.document.WellFormed) (index : Nat) (e : Engine) :
    s.StylesLast index e ↔ s.document.hasStyle e.settings.styleId = true := by
  obtain ⟨hretains, hstyle, -⟩ :=
    convertDocument_retains_styles e.refusals e.settings.grammar e.settings.layout e.settings.styleId h
  have hforest := pass_forest index e s
  have hwell := (follows_pass h index e).document.wellFormed
  constructor
  · rintro ⟨hfound, -⟩
    rw [← hstyle]
    rcases ensure_cases e.settings.sheet e.refusals hretains.wellFormed with
      ⟨hthere, -⟩ | ⟨-, ⟨hrefused, -⟩ | ⟨hinserted, -⟩⟩
    · exact hthere
    · exact absurd (hrefused.symm.trans hfound) (by decide)
    · exact absurd (hinserted.symm.trans hfound) (by decide)
  · intro hthere
    rw [← hstyle] at hthere
    rcases ensure_cases e.settings.sheet e.refusals hretains.wellFormed with ⟨-, heq⟩ | ⟨hmissing, -⟩
    · refine ⟨congrArg Prod.fst heq, fun i attributes => ?_⟩
      rw [heq] at hforest
      rw [Document.data?, Document.data?, Forest.data?_eq_some_iff hwell.nodup,
        Forest.data?_eq_some_iff h.nodup, hforest]
      exact hretains.mem_iff i _ (Or.inr rfl)
    · exact absurd (hthere.symm.trans hmissing) (by decide)

/-- **Style rules are registered once.** After any run, let a pass of an engine or a registration of its style
rules report that the rules were added or were there. Then the next pass of any engine with the same identifier
finds them and leaves the style elements of the document as they are exactly when they were there already, or
the head stands below the `html` element. Whatever is refused to the two engines, and whatever texts are
locked. -/
theorem styles_last_iff (loading : Bool) (commands : List Command) (index index' : Nat) (e e' : Engine)
    (hid : e'.settings.styleId = e.settings.styleId) :
    let s := run loading commands
    let passed := s.pass index e
    let ensured := e.settings.sheet.ensure (host e.refusals) s
    (passed.1.styles ≠ .refused → (passed.2.StylesLast index' e' ↔
        passed.1.styles = .alreadyPresent ∨ s.document.forest.isWithin Document.head Document.html = true)) ∧
      (ensured.1 ≠ .refused → (ensured.2.StylesLast index' e' ↔
        ensured.1 = .alreadyPresent ∨ s.document.forest.isWithin Document.head Document.html = true)) := by
  intro s passed ensured
  have h : s.document.WellFormed := (sound_run loading commands).wellFormed
  constructor
  · intro hdone
    obtain ⟨hretains, -, hhead⟩ :=
      convertDocument_retains_styles e.refusals e.settings.grammar e.settings.layout e.settings.styleId h
    rw [stylesLast_iff (follows_pass h index e).document.wellFormed, hid,
      Document.hasStyle_congr (pass_forest index e s), ← hhead]
    exact hasStyle_ensure e.settings.sheet e.refusals hretains.wellFormed hdone
  · intro hdone
    have hwell := (ensure_keeps (host_keeps e.refusals s) e.settings.sheet (Follows.refl h)).document.wellFormed
    rw [stylesLast_iff hwell, hid]
    exact hasStyle_ensure e.settings.sheet e.refusals h hdone

/-- A head that was moved below the body is found. -/
theorem styles_last_of_moved_head :
    let s := run false [.build .standard {} [], .append Document.body Document.head]
    ∃ e, s.engine? 0 = some e ∧ (s.pass 0 e).1.styles = .inserted ∧ (s.pass 0 e).2.StylesLast 0 e := by
  obtain ⟨e, he, hstyles⟩ : ∃ e,
      (run false [.build .standard {} [], .append Document.body Document.head]).engine? 0 = some e ∧
      ((run false [.build .standard {} [], .append Document.body Document.head]).pass 0 e).1.styles =
        .inserted := ⟨_, rfl, by decide +kernel⟩
  have hdone := (styles_last_iff false [.build .standard {} [], .append Document.body Document.head] 0 0 e e
    rfl).1 (by rw [hstyles]; decide)
  exact ⟨e, he, hstyles, hdone.2 (Or.inr (by decide))⟩

/-- A head that was taken out of the document takes the rules once more in every pass. -/
theorem styles_added_twice :
    let s := run false [.build .standard {} [], .remove Document.head]
    ∃ e, s.engine? 0 = some e ∧ e.refusals = {} ∧ (s.pass 0 e).1.styles = .inserted ∧
      ∃ e', (s.pass 0 e).2.engine? 0 = some e' ∧ e'.settings = e.settings ∧
        ((s.pass 0 e).2.pass 0 e').1.styles = .inserted :=
  ⟨_, rfl, rfl, by decide +kernel, _, rfl, rfl, by decide +kernel⟩

end Session

end MarkedMath
