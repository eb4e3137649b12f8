import MarkedMath.Proofs.Conversion
import MarkedMath.Proofs.Runs
import MarkedMath.Proofs.Tree.Written

/-!
# The second pass

A pass looks at all texts outside skipped elements, those of the equations that an earlier pass made among
them. So a pass right after another one converts nothing exactly when no payload holds a marker, of either
kind. It leaves the markup of the body as it is unless it adds the style rules once more, below the body:
this happens when the head was moved there and the body stands outside the `html` element, where the rules
are looked for (`Session.second_pass_iff`).
-/

namespace MarkedMath

/-- The settings that are set when nothing else is. -/
def CheckedSettings.standard : CheckedSettings :=
  ⟨{}, by decide⟩

/-! ## Looking for the style rules -/

lemma Forest.first?_isSome_iff {p : NodeData → Bool} {f : Forest} :
    (f.first? p).isSome = true ↔ ∃ e ∈ f.entries, p e.2 = true := by
  induction f with
  | nil => simp [first?, entries]
  | node i d c n ihc ihn =>
    rw [first?]
    split
    · next hp => simp [entries, hp]
    · next hp =>
      rw [Option.isSome_or, Bool.or_eq_true, ihc, ihn]
      simp [entries, hp, or_and_right, exists_or]

/-- No payload of a marker in the text holds a marker of either kind. -/
def Grammar.NestsNothing (g : Grammar) (t : Text) : Prop :=
  ∀ kind payload, .marker kind payload ∈ g.pieces t → ∀ kind', ¬ (g.rule kind').Holds payload

namespace Document

variable {d d' : Document} {data : NodeData} {children : Forest} {id : String}

/-- An element with the identifier. -/
def IsNamed (id : String) (data : NodeData) : Prop :=
  data.attribute? "id" = some id.toList

/-- The style rules are looked for in the `html` element and below it. -/
lemma hasStyle_iff (h : d.WellFormed) (hhtml : Forest.Has html data children d.forest) :
    d.hasStyle id = true ↔ IsNamed id data ∨ ∃ e ∈ children.entries, IsNamed id e.2 := by
  rw [hasStyle, elementById?, hhtml.tree h.nodup, Forest.first?_isSome_iff]
  simp [Forest.entries, IsNamed]

/-- The nodes that decide where style rules go: those with the identifier, and the head. -/
def StyleRelevant (id : String) (i : NodeId) (data : NodeData) : Prop :=
  IsNamed id data ∨ i = head ∧ data.isElement = true

lemma spares_styleRelevant (l : Layout) (id : String) {fresh : NodeId} (hfresh : head < fresh) :
    l.Spares (StyleRelevant id) fresh where
  text i t := by
    rintro (h | ⟨-, h⟩)
    · simp [IsNamed, NodeData.attribute?, NodeData.attributes] at h
    · simp [NodeData.isElement, NodeData.tag?] at h
  equation i e hi := by
    rintro (h | ⟨rfl, -⟩)
    · simp [IsNamed, NodeData.attribute?, NodeData.attributes, Layout.equationData,
        Layout.attributes, NodeData.setAttribute] at h
    · exact absurd hfresh (Nat.not_lt.2 hi)

lemma WellFormed.exists_has_html (h : d.WellFormed) : ∃ attributes children,
    Forest.Has html (.element "html" attributes) children d.forest :=
  h.exists_has_frame (by simp)

/-- The head stands below a node when the element does. -/
lemma head_mem_ids_iff (h : d.WellFormed) {b : NodeId} {attributes : List (String × Text)}
    (hhead : (head, .element "head" attributes) ∈ d.forest.entries)
    (hhas : Forest.Has b data children d.forest) :
    head ∈ children.ids ↔ (head, .element "head" attributes) ∈ children.entries := by
  refine ⟨fun hin => ?_, Forest.mem_ids_of_mem_entries⟩
  obtain ⟨data', hdata'⟩ := Forest.exists_mem_entries hin
  rwa [Forest.entry_unique h.nodup hhead (hhas.entries_subset hdata')]

lemma isWithin_head_of_keeps (h : d.WellFormed) (h' : d'.WellFormed)
    (hkept : d.Keeps (StyleRelevant id) d') {b : NodeId} (hdata : data.text? = none)
    (hhas : Forest.Has b data children d.forest) :
    d'.forest.isWithin head b = d.forest.isWithin head b := by
  obtain ⟨attributes, headChildren, hhead⟩ := h.exists_has_head
  obtain ⟨children', hhas', hmem⟩ := hkept b data children hdata hhas
  obtain ⟨headChildren', hhead', -⟩ := hkept head _ headChildren rfl hhead
  rw [Bool.eq_iff_iff, hhas'.isWithin_iff h'.nodup, hhas.isWithin_iff h.nodup,
    head_mem_ids_iff h' hhead'.mem_entries hhas', head_mem_ids_iff h hhead.mem_entries hhas,
    hmem head _ (Or.inr ⟨rfl, rfl⟩)]

lemma hasStyle_of_keeps (h : d.WellFormed) (h' : d'.WellFormed)
    (hkept : d.Keeps (StyleRelevant id) d') : d'.hasStyle id = d.hasStyle id := by
  obtain ⟨attributes, children, hhtml⟩ := h.exists_has_html
  obtain ⟨children', hhtml', hmem⟩ := hkept html _ children rfl hhtml
  rw [Bool.eq_iff_iff, hasStyle_iff h' hhtml', hasStyle_iff h hhtml]
  refine or_congr_right ⟨?_, ?_⟩
  · rintro ⟨⟨i, e⟩, hin, he⟩
    exact ⟨(i, e), (hmem i e (Or.inl he)).1 hin, he⟩
  · rintro ⟨⟨i, e⟩, hin, he⟩
    exact ⟨(i, e), (hmem i e (Or.inl he)).2 hin, he⟩

lemma hasStyle_congr (hforest : d'.forest = d.forest) : d'.hasStyle id = d.hasStyle id := by
  rw [hasStyle, hasStyle, elementById?, elementById?, hforest]

section StyleAdded

variable {fresh : NodeId} {css : String} (h : d.WellFormed) (h' : d'.WellFormed)
  (hforest : d'.forest = d.forest.appendTo head (styleTree fresh id css))
include h h' hforest

lemma isWithin_head_appendTo {b : NodeId} (hne : b ≠ head)
    (hhas : Forest.Has b data children d.forest) :
    d'.forest.isWithin head b = d.forest.isWithin head b := by
  have hhas' := hhas.appendTo h.nodup hne (styleTree fresh id css)
  rw [← hforest] at hhas'
  rw [Bool.eq_iff_iff, hhas'.isWithin_iff h'.nodup, hhas.isWithin_iff h.nodup]
  refine or_congr_right ?_
  by_cases hin : head ∈ children.ids
  · obtain ⟨data', headChildren, hhead⟩ := Forest.exists_has_of_mem_ids hin
    have hperm := hhead.perm_appendTo (hhas.nodup h.nodup).2 (styleTree fresh id css)
    exact iff_of_true (Forest.mem_ids_of_mem_entries
      (hperm.symm.subset (List.mem_append_left _ hhead.mem_entries))) hin
  · rw [Forest.appendTo_of_not_mem hin]

/-- The style element is found when the head stands below the `html` element. -/
lemma hasStyle_appendTo :
    d'.hasStyle id = true ↔ d.hasStyle id = true ∨ d.forest.isWithin head html = true := by
  obtain ⟨attributes, children, hhtml⟩ := h.exists_has_html
  have hne : html ≠ head := by decide
  have hhtml' := hhtml.appendTo h.nodup hne (styleTree fresh id css)
  rw [← hforest] at hhtml'
  rw [hasStyle_iff h' hhtml', hasStyle_iff h hhtml, hhtml.isWithin_iff h.nodup, or_assoc]
  refine or_congr_right ?_
  by_cases hin : head ∈ children.ids
  · obtain ⟨data', headChildren, hhead⟩ := Forest.exists_has_of_mem_ids hin
    have hperm := hhead.perm_appendTo (hhtml.nodup h.nodup).2 (styleTree fresh id css)
    refine iff_of_true ⟨_, hperm.symm.subset (List.mem_append_right _ (List.mem_cons_self ..)), ?_⟩
      (Or.inr (Or.inr hin))
    rfl
  · rw [Forest.appendTo_of_not_mem hin]
    simp [hin, hne.symm]

end StyleAdded

end Document

/-! ## The second pass -/

namespace Session

variable {s : Session} {e : Engine}

/-- The style rules are found after a pass when they were there before it or the head stands below the
`html` element. Passes do not move the head. -/
lemma styles_after_pass (index : Nat) (hr : e.refusals = {}) (h : s.document.WellFormed) :
    ((s.pass index e).2.document.hasStyle e.settings.styleId = true ↔
      s.document.hasStyle e.settings.styleId = true ∨
        s.document.forest.isWithin Document.head Document.html = true) ∧
    (s.pass index e).2.document.forest.isWithin Document.head Document.body =
      s.document.forest.isWithin Document.head Document.body := by
  have hlocked : e.refusals.locked = none := by rw [hr]
  have hstyle : e.refusals.style = none := by rw [hr]
  obtain ⟨headAttributes, headChildren, hhead⟩ := h.exists_has_head
  obtain ⟨attributes, children, hbody⟩ := h.exists_has_body
  obtain ⟨htmlAttributes, htmlChildren, hhtml⟩ := h.exists_has_html
  have hspares := Document.spares_styleRelevant e.settings.layout e.settings.styleId
    (h.lt_fresh _ hhead.mem_ids)
  -- the conversion keeps the head and all identifiers; only then the rules may be added
  obtain ⟨converted, hconverted⟩ : ∃ converted,
    converted = convertDocument (host e.refusals) e.settings.grammar e.settings.layout s := ⟨_, rfl⟩
  obtain ⟨-, -, -, -, -, hkept⟩ := convertDocument_spec (g := e.settings.grammar) hlocked hspares
    (Layout.shows_isSkipped _ _) h hbody
  rw [← hconverted] at hkept
  have hwell : converted.2.document.WellFormed := by
    rw [hconverted]
    exact (convertDocument_keeps (host_keeps e.refusals s) _ _ (Follows.refl h)).document.wellFormed
  have hwell' := (follows_pass h index e).document.wellFormed
  have hsame := Document.hasStyle_of_keeps h hwell hkept
  have hinHtml := Document.isWithin_head_of_keeps h hwell hkept rfl hhtml
  have hinBody := Document.isWithin_head_of_keeps h hwell hkept rfl hbody
  have hforest := pass_forest index e s
  rw [← hconverted, ensure_forest _ hstyle hwell] at hforest
  obtain ⟨convertedBody, hbody', -⟩ := hkept Document.body _ children rfl hbody
  split at hforest
  · next hthere =>
    rw [Document.hasStyle_congr hforest, ← hsame, hforest, ← hinBody]
    exact ⟨iff_of_true hthere (Or.inl hthere), rfl⟩
  · rw [← hsame, ← hinHtml, ← hinBody]
    exact ⟨Document.hasStyle_appendTo hwell hwell' hforest,
      Document.isWithin_head_appendTo hwell hwell' hforest (by decide) hbody'⟩

/-- A pass on a normal body counts nothing exactly when no text holds a marker. -/
lemma counts_pass_eq_zero_iff (index : Nat) (hr : e.refusals = {}) (h : s.document.WellFormed) {data : NodeData}
    {children : Forest} (hbody : Forest.Has Document.body data children s.document.forest)
    (hnormal : children.Normal) :
    (s.pass index e).1.counts = {} ↔
      ∀ t ∈ s.document.texts, ∀ kind, ¬ (e.settings.grammar.rule kind).Holds t := by
  have hlocked : e.refusals.locked = none := by rw [hr]
  rw [pass_counts]
  constructor
  · intro hzero t ht
    obtain ⟨-, -, -, -, htotal, -⟩ := convertDocument_spec (g := e.settings.grammar) hlocked
      (Layout.spares_false e.settings.layout _) (Layout.shows_isSkipped _ _) h hbody
    rw [hzero, Document.normalize_of_normal h hbody hnormal] at htotal
    have hcount := List.countP_eq_zero.1 htotal.symm
    refine not_exists.1 (mt e.settings.grammar.any_marker_iff.2 fun hany => ?_)
    obtain ⟨p, hp, hmarker⟩ := List.any_eq_true.1 hany
    exact hcount p (List.mem_flatMap.2 ⟨t, ht, hp⟩) hmarker
  · intro hnone
    rw [convertDocument_of_not_holds h hbody hnormal hnone]

/-- A pass that finds no marker leaves the markup of the body as it is exactly when it adds no style rules
below the body. -/
lemma innerMarkup_pass_iff (index : Nat) (hr : e.refusals = {}) (h : s.document.WellFormed) {data : NodeData}
    {children : Forest} (hbody : Forest.Has Document.body data children s.document.forest)
    (hnormal : children.Normal)
    (hnone : ∀ t ∈ s.document.texts, ∀ kind, ¬ (e.settings.grammar.rule kind).Holds t) :
    (s.pass index e).2.document.innerMarkup Document.body =
        s.document.innerMarkup Document.body ↔
      (s.document.forest.isWithin Document.head Document.body = true →
        s.document.hasStyle e.settings.styleId = true) := by
  have hforest := pass_forest index e s
  rw [convertDocument_of_not_holds h hbody hnormal hnone, ensure_forest _ (by rw [hr]) h] at hforest
  have hne : Document.head ≠ Document.body := by decide
  rw [Document.innerMarkup, Document.innerMarkup, hforest]
  split
  · next hthere => exact iff_of_true rfl fun _ => hthere
  · next hmissing =>
    have hbody' := hbody.appendTo h.nodup hne.symm
      (Document.styleTree s.document.fresh e.settings.sheet.id e.settings.sheet.css)
    obtain ⟨new, hnew⟩ : ∃ new, new =
      Document.styleTree s.document.fresh e.settings.sheet.id e.settings.sheet.css := ⟨_, rfl⟩
    rw [← hnew] at hbody' hforest ⊢
    have hnodup' : (s.document.forest.appendTo Document.head new).ids.Nodup := by
      have := (follows_pass h index e).document.wellFormed.nodup
      rwa [hforest, if_neg hmissing] at this
    rw [Forest.innerMarkup, Forest.innerMarkup, hbody'.find? hnodup', hbody.find? h.nodup,
      hbody.isWithin_iff h.nodup]
    by_cases hin : Document.head ∈ children.ids
    · obtain ⟨attributes, headChildren, hhead⟩ := h.exists_has_head
      have hhead' := hbody.restrict h.nodup hhead hin
      -- the rules come to stand below the body, so its markup grows
      refine iff_of_false (fun heq => ?_) fun hfound => hmissing (hfound (Or.inr hin))
      have hlonger : ∀ raw, (children.write Document.markupStyle raw).length <
          ((children.appendTo Document.head new).write Document.markupStyle raw).length := by
        intro raw
        refine hhead'.length_write_appendTo rfl (hbody.proper h.proper).2
          (hbody.nodup h.nodup).2 (by decide) fun raw => ?_
        rw [hnew]
        exact Forest.length_write_element_pos _ _ _ _ _
      have := hlonger ((data.tag?.map Document.markupStyle.rawTags.contains).getD false)
      exact absurd (congrArg List.length heq) (Nat.ne_of_gt this)
    · rw [Forest.appendTo_of_not_mem hin]
      exact iff_of_true rfl fun hwithin => absurd (hwithin.resolve_left hne) hin

/-- After a pass the texts are the pieces of the texts before it. -/
lemma texts_after_pass (index : Nat) (hr : e.refusals = {}) (h : s.document.WellFormed) :
    ∃ data children, Forest.Has Document.body data children (s.pass index e).2.document.forest ∧
      children.Normal ∧ (s.pass index e).2.document.texts =
        s.document.normalize.texts.flatMap fun t =>
          (e.settings.grammar.pieces t).map Piece.content := by
  obtain ⟨attributes, children, hbody⟩ := h.exists_has_body
  obtain ⟨children', hbody', hnormal, htexts⟩ :=
    pass_spec index hr (Layout.shows_isSkipped _ _) h hbody
  refine ⟨_, children', hbody', hnormal, ?_⟩
  rw [Document.texts_eq (follows_pass h index e).document.wellFormed hbody', htexts]
  congr 1
  funext t
  rw [List.map_eq_flatMap]
  congr 1
  funext p
  cases p <;> rfl

/-- No text holds a marker after a pass exactly when no payload did before it: the pieces of text hold
none. -/
lemma not_holds_after_pass_iff (index : Nat) (hr : e.refusals = {}) (h : s.document.WellFormed) :
    (∀ t ∈ (s.pass index e).2.document.texts, ∀ kind,
        ¬ (e.settings.grammar.rule kind).Holds t) ↔
      ∀ n ∈ s.document.normalize.textNodes,
        e.settings.grammar.NestsNothing (s.document.normalize.textOf n) := by
  obtain ⟨-, -, -, -, htexts⟩ := texts_after_pass index hr h
  rw [htexts]
  constructor
  · intro hnone n hn kind payload hmem
    refine hnone payload (List.mem_flatMap.2 ⟨_, List.mem_map_of_mem hn, ?_⟩)
    exact List.mem_map.2 ⟨_, hmem, rfl⟩
  · intro hnests t ht
    obtain ⟨u, hu, ht⟩ := List.mem_flatMap.1 ht
    obtain ⟨n, hn, rfl⟩ := List.mem_map.1 hu
    obtain ⟨p, hp, rfl⟩ := List.mem_map.1 ht
    cases p with
    | text t => exact (e.settings.grammar.text_of_mem_pieces hp).2
    | marker kind payload => exact hnests n hn kind payload hp

/-- The second pass from any well-formed document. -/
lemma pass_pass_iff (index : Nat) (hr : e.refusals = {}) (h : s.document.WellFormed) {e' : Engine}
    (hsettings : e'.settings = e.settings) (hr' : e'.refusals = {}) :
    (((s.pass index e).2.pass index e').1.counts = {} ∧
        ((s.pass index e).2.pass index e').2.document.innerMarkup Document.body =
          (s.pass index e).2.document.innerMarkup Document.body) ↔
      (∀ n ∈ s.document.normalize.textNodes,
          e.settings.grammar.NestsNothing (s.document.normalize.textOf n)) ∧
        (s.document.forest.isWithin Document.head Document.body = true →
          s.document.hasStyle e.settings.styleId = true ∨
            s.document.forest.isWithin Document.head Document.html = true) := by
  have hwell := (follows_pass h index e).document.wellFormed
  obtain ⟨data, children, hbody, hnormal, -⟩ := texts_after_pass index hr h
  obtain ⟨hstyles, hhead⟩ := styles_after_pass index hr h
  have hcounts := counts_pass_eq_zero_iff index hr' hwell hbody hnormal
  have hmarkup := innerMarkup_pass_iff index hr' hwell hbody hnormal
  rw [hsettings] at hcounts hmarkup
  -- the markup can only be compared where nothing was converted
  rw [← not_holds_after_pass_iff index hr h, ← hcounts, ← hstyles, ← hhead]
  exact and_congr_right fun hzero => hmarkup (hcounts.1 hzero)

/-- **The second pass.** After any run, a pass of an engine that is refused nothing, made right after
another one, counts no equation and leaves the markup of the body as it is exactly when no payload of a
marker held a marker, and the head was not below the body, or below the `html` element as well, or the
style rules were there already. -/
theorem second_pass_iff (loading : Bool) (commands : List Command) (index : Nat) (e : Engine)
    (he : (run loading commands).engine? index = some e) (hr : e.refusals = {}) :
    let s := run loading commands
    let first := s.pass index e
    ∃ e', first.2.engine? index = some e' ∧
      let second := first.2.pass index e'
      (second.1.counts = {} ∧
          second.2.document.innerMarkup Document.body =
            first.2.document.innerMarkup Document.body ↔
        (∀ n ∈ s.document.normalize.textNodes,
            e.settings.grammar.NestsNothing (s.document.normalize.textOf n)) ∧
          (s.document.forest.isWithin Document.head Document.body = true →
            s.document.hasStyle e.settings.styleId = true ∨
              s.document.forest.isWithin Document.head Document.html = true)) :=
  ⟨_, engine?_pass he, pass_pass_iff index hr (sound_run loading commands).wellFormed rfl hr⟩

/-- A text that is one inline marker. -/
def singleMarker : Text :=
  "MATHSTARTINLINE\\(x\\)MATHENDINLINE".toList

lemma pieces_singleMarker : CheckedSettings.standard.grammar.pieces singleMarker =
    [.marker .inline "\\(x\\)".toList] := by
  have hfind : (CheckedSettings.standard.grammar.rule .inline).find? singleMarker =
      some ⟨[], "\\(x\\)".toList, []⟩ := by decide
  rw [Grammar.pieces, Rule.pieces_of_some hfind, Rule.pieces_of_none rfl]
  rfl

lemma nestsNothing_singleMarker : CheckedSettings.standard.grammar.NestsNothing singleMarker := by
  intro kind payload hmem kind'
  rw [pieces_singleMarker, List.mem_singleton, Piece.marker.injEq] at hmem
  obtain ⟨-, rfl⟩ := hmem
  refine Rule.find?_eq_none_iff.1 ?_
  cases kind' <;> decide

/-- The second pass on a document with one marker does nothing. -/
theorem second_pass_of_single_marker :
    let s := run false [.build .standard {} [], .appendText Document.body singleMarker]
    ∃ e, s.engine? 0 = some e ∧ e.refusals = {} ∧
      ∃ e', (s.pass 0 e).2.engine? 0 = some e' ∧
        ((s.pass 0 e).2.pass 0 e').1.counts = {} ∧
        ((s.pass 0 e).2.pass 0 e').2.document.innerMarkup Document.body =
          (s.pass 0 e).2.document.innerMarkup Document.body := by
  obtain ⟨e', he', hiff⟩ := second_pass_iff false
    [.build .standard {} [], .appendText Document.body singleMarker] 0 _ rfl rfl
  have hnodes : (run false [.build .standard {} [],
      .appendText Document.body singleMarker]).document.normalize.textNodes = [3] := rfl
  refine ⟨_, rfl, rfl, e', he', hiff.2 ⟨fun n hn => ?_, fun hwithin => ?_⟩⟩
  · rw [hnodes, List.mem_singleton] at hn
    subst hn
    exact nestsNothing_singleMarker
  · exact absurd hwithin (by decide)

/-- An inline marker with a display marker in its payload. -/
def nestedMarkers : Text :=
  "MATHSTARTINLINE\\(MATHSTARTDISPLAY\\[x\\]MATHENDDISPLAY\\)MATHENDINLINE".toList

lemma pieces_nestedMarkers : .marker .inline
      "\\(MATHSTARTDISPLAY\\[x\\]MATHENDDISPLAY\\)".toList ∈
    CheckedSettings.standard.grammar.pieces nestedMarkers := by
  have hfind : (CheckedSettings.standard.grammar.rule .inline).find? nestedMarkers =
      some ⟨[], "\\(MATHSTARTDISPLAY\\[x\\]MATHENDDISPLAY\\)".toList, []⟩ := by decide
  refine List.mem_flatMap.2 ⟨.marker .inline _, ?_, List.mem_singleton.2 rfl⟩
  rw [Rule.pieces_of_some hfind]
  exact List.mem_append_right _ (List.mem_cons_self ..)

/-- The second pass converts the display marker in the payload of the inline one. -/
theorem second_pass_of_nested_markers :
    let s := run false [.build .standard {} [], .appendText Document.body nestedMarkers]
    ∃ e e', s.engine? 0 = some e ∧ e.refusals = {} ∧ (s.pass 0 e).2.engine? 0 = some e' ∧
      ((s.pass 0 e).2.pass 0 e').1.counts ≠ {} := by
  intro s
  have h : s.document.WellFormed := (sound_run _ _).wellFormed
  obtain ⟨e, he, hr, hsettings⟩ : ∃ e, s.engine? 0 = some e ∧ e.refusals = {} ∧
      e.settings = .standard := ⟨_, rfl, rfl, rfl⟩
  obtain ⟨e', he', hr', hsettings'⟩ : ∃ e', (s.pass 0 e).2.engine? 0 = some e' ∧
      e'.refusals = {} ∧ e'.settings = e.settings := ⟨_, engine?_pass he, hr, rfl⟩
  refine ⟨e, e', he, hr, he', fun hzero => ?_⟩
  obtain ⟨data, children, hbody, hnormal, -⟩ := texts_after_pass 0 hr h
  have hwell := (follows_pass h 0 e).document.wellFormed
  rw [counts_pass_eq_zero_iff 0 hr' hwell hbody hnormal, hsettings'] at hzero
  have hnests := (not_holds_after_pass_iff 0 hr h).1 hzero 3 (by decide)
  rw [hsettings] at hnests
  -- the payload of the inline marker holds a display marker
  refine hnests .inline _ pieces_nestedMarkers .display ⟨"MATHSTARTDISPLAY\\[x\\]MATHENDDISPLAY".toList,
    ⟨['\\'], ['x'], ['\\'], Or.inr rfl, Or.inr rfl, by decide, rfl⟩, ?_⟩
  exact ⟨['\\', '('], ['\\', ')'], rfl⟩

end Session

end MarkedMath
