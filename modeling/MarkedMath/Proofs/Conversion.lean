import MarkedMath.Proofs.Kept
import MarkedMath.Proofs.Passes

/-!
# Converting the markers of a document

On a document that refuses nothing, a pass puts the pieces of every text outside skipped elements in the
place of the text: a piece of text as a text node, a marker as an element with the payload in it. So the
texts after the pass are the pieces of the texts before it, in order (`convertDocument_spec`). The texts
can be read with the payloads or without them, which is what `Layout.Shows` is about.

The pieces of a text stand apart, so the body stays normal, and normalizing it again changes nothing.
-/

namespace MarkedMath

/-! ## Pieces as nodes -/

/-- The element of an equation, without the payload in it. -/
def Layout.equationData (l : Layout) (e : Equation) : NodeData :=
  .element (lowerName e.kind.tag)
    (((l.attributes e).map fun (name, value) => (name, value.toList)).foldl
      (fun set (n, v) => NodeData.setAttribute n v set) [])

/-- The texts that a piece leaves in the document, with payloads or without them. -/
def Piece.shown (payloads : Bool) : Piece → List Text
  | text t => [t]
  | marker _ payload => if payloads then [payload] else []

/-- Nodes numbered below `fresh` are hidden when they are skipped elements, and the elements of equations
from `fresh` on are hidden unless payloads are shown. -/
structure Layout.Shows (l : Layout) (hidden : NodeId → NodeData → Bool) (fresh : NodeId)
    (payloads : Bool) : Prop where
  /-- Text nodes are not hidden. -/
  text : ∀ id t, hidden id (.text t) = false
  /-- Nodes that were there are hidden when they are skipped. -/
  old : ∀ id data, id < fresh → hidden id data = Forest.isSkipped id data
  /-- Skipped elements are hidden, new ones too. -/
  skipped : ∀ id data, Forest.isSkipped id data = true → hidden id data = true
  /-- Elements of equations are hidden unless payloads are shown. -/
  equation : ∀ id e, fresh ≤ id → hidden id (l.equationData e) = !payloads

lemma Layout.shows_isSkipped (l : Layout) (fresh : NodeId) : l.Shows Forest.isSkipped fresh true where
  text _ _ := rfl
  old _ _ _ := rfl
  skipped _ _ h := h
  equation id e _ := by
    cases h : e.kind <;> simp [Layout.equationData, h, Forest.isSkipped, NodeData.tag?] <;> decide

/-- Neither text nodes nor the elements of equations numbered from `fresh` on are of the class. -/
structure Layout.Spares (l : Layout) (q : NodeId → NodeData → Prop) (fresh : NodeId) : Prop where
  /-- No text node is of the class. -/
  text : ∀ id t, ¬ q id (.text t)
  /-- No element of an equation is of the class. -/
  equation : ∀ id e, fresh ≤ id → ¬ q id (l.equationData e)

lemma Layout.spares_false (l : Layout) (fresh : NodeId) : l.Spares (fun _ _ => False) fresh :=
  ⟨fun _ _ h => h, fun _ _ _ h => h⟩

section Build

variable {l : Layout} {fresh : NodeId}

lemma buildAll_text (t : Text) (specs : List NodeSpec) :
    (NodeSpec.buildAll fresh (.text t :: specs)).1 =
      .node fresh (.text t) .nil (NodeSpec.buildAll (fresh + 1) specs).1 := rfl

lemma buildAll_equation (e : Equation) (specs : List NodeSpec) :
    (NodeSpec.buildAll fresh (l.nodeSpec (.equation e) :: specs)).1 =
      .node fresh (l.equationData e) (.leaf (fresh + 1) (.text e.content))
        (NodeSpec.buildAll (fresh + 2) specs).1 := rfl

/-- The new nodes show the pieces. -/
lemma texts_buildAll {hidden : NodeId → NodeData → Bool} {base : NodeId} {payloads : Bool}
    (hshows : l.Shows hidden base payloads) (hbase : base ≤ fresh) (segments : List Segment) :
    ((NodeSpec.buildAll fresh (segments.map l.nodeSpec)).1.textsOutside hidden).map Prod.snd =
      (segments.map Segment.piece).flatMap (Piece.shown payloads) := by
  induction segments generalizing fresh with
  | nil => rfl
  | cons segment segments ih =>
    rw [List.map_cons, List.map_cons, List.flatMap_cons]
    cases segment with
    | text t =>
      rw [← ih (Nat.le_succ_of_le hbase), Layout.nodeSpec, buildAll_text, Forest.textsOutside,
        hshows.text]
      rfl
    | equation e =>
      rw [← ih (Nat.le_add_right_of_le hbase), buildAll_equation, Forest.textsOutside,
        hshows.equation fresh e hbase]
      cases payloads
      · rfl
      · simp [Forest.leaf, Forest.textsOutside, hshows.text, Layout.equationData, NodeData.text?,
          Segment.piece, Piece.shown]

/-- The new nodes are texts and the elements of equations. -/
lemma entries_buildAll {id : NodeId} {data : NodeData} (segments : List Segment)
    (h : (id, data) ∈ (NodeSpec.buildAll fresh (segments.map l.nodeSpec)).1.entries) :
    (∃ t, data = .text t) ∨ ∃ e, data = l.equationData e ∧ fresh ≤ id := by
  induction segments generalizing fresh with
  | nil => simp [NodeSpec.buildAll, Forest.entries] at h
  | cons segment segments ih =>
    rw [List.map_cons] at h
    cases segment with
    | text t =>
      rw [Layout.nodeSpec, buildAll_text] at h
      simp only [Forest.entries, List.mem_cons, List.nil_append, Prod.mk.injEq] at h
      rcases h with ⟨-, rfl⟩ | h
      · exact Or.inl ⟨t, rfl⟩
      · rcases ih h with htext | ⟨e, he, hid⟩
        · exact Or.inl htext
        · exact Or.inr ⟨e, he, Nat.le_of_succ_le hid⟩
    | equation e =>
      rw [buildAll_equation] at h
      simp only [Forest.leaf, Forest.entries, List.mem_cons, List.mem_append, List.append_nil,
        List.not_mem_nil, or_false, Prod.mk.injEq] at h
      rcases h with ⟨rfl, rfl⟩ | ⟨-, rfl⟩ | h
      · exact Or.inr ⟨e, rfl, Nat.le_refl _⟩
      · exact Or.inl ⟨_, rfl⟩
      · rcases ih h with htext | ⟨e, he, hid⟩
        · exact Or.inl htext
        · exact Or.inr ⟨e, he, Nat.le_trans (Nat.le_add_right _ _) hid⟩

/-- The new nodes are normal: the pieces stand apart, and none is empty. -/
lemma normal_buildAll {behindText : Bool} (segments : List Segment)
    (hapart : Piece.Apart (segments.map Segment.piece))
    (hne : ∀ p ∈ segments.map Segment.piece, p.content ≠ [])
    (hfirst : behindText = true → ∀ p ∈ (segments.map Segment.piece).head?, p.isMarker = true) :
    (NodeSpec.buildAll fresh (segments.map l.nodeSpec)).1.NormalFrom behindText := by
  induction segments generalizing fresh behindText with
  | nil => trivial
  | cons segment segments ih =>
    rw [List.map_cons] at hapart hne hfirst ⊢
    rw [List.forall_mem_cons] at hne
    have hrest := hapart.of_cons
    cases segment with
    | text t =>
      rw [Layout.nodeSpec, buildAll_text]
      refine ⟨?_, hne.1, ih hrest hne.2 fun _ p hp => ?_⟩
      · by_contra hbehind
        have := hfirst (by simpa using hbehind) (.text t) rfl
        simp [Piece.isMarker] at this
      · cases hpieces : segments.map Segment.piece with
        | nil => simp [hpieces] at hp
        | cons q qs =>
          rw [hpieces] at hapart hp
          obtain rfl : q = p := by simpa using hp
          exact hapart.rel.resolve_left (by simp [Segment.piece, Piece.isMarker])
    | equation e =>
      rw [buildAll_equation]
      exact ⟨⟨rfl, hne.1, trivial⟩, ih hrest hne.2 (by simp)⟩

end Build

/-! ## Converting texts -/

lemma Document.textOf_eq {d : Document} (h : d.WellFormed) {id : NodeId} {t : Text}
    (hid : (id, .text t) ∈ d.forest.entries) : d.textOf id = t := by
  rw [textOf, data?, (Forest.data?_eq_some_iff h.nodup).2 hid]
  rfl

namespace Session

variable {refusals : Refusals} {g : Grammar} {l : Layout} {s : Session} {data : NodeData}
  {children : Forest}

/-- A text node below the body is replaced when no text is locked. -/
lemma host_replaceText (hr : refusals.locked = none) (h : s.document.WellFormed)
    (hbody : Forest.Has Document.body data children s.document.forest) {id : NodeId} {t : Text}
    (hid : (id, .text t) ∈ children.entries) (specs : List NodeSpec) :
    ∃ d, (host refusals).replaceText id specs s = (.ok (), { s with document := d }) ∧
      s.document.Follows d ∧ s.document.fresh ≤ d.fresh ∧
      d.forest = s.document.forest.splice id (NodeSpec.buildAll s.document.fresh specs).1 ++
        s.document.forest.tree id ∧
      Forest.Has Document.body data
        (children.splice id (NodeSpec.buildAll s.document.fresh specs).1) d.forest := by
  obtain ⟨d, hok, hfollows, hforest, hfresh, hbody'⟩ :=
    Document.replaceText_below_body h hbody hid specs
  obtain ⟨n, -, hnext, -⟩ := NodeSpec.buildAll_spec s.document.fresh specs
  refine ⟨d, ?_, hfollows, ?_, hforest, hbody'⟩
  · have hlocked : isLocked refusals (s.document.textOf id) = false := by
      rw [isLocked, hr]
    simp only [host, hlocked, hok]
    rfl
  · rw [hfresh, hnext]
    exact Nat.le_add_right _ _

section Spec

variable {q : NodeId → NodeData → Prop} {hidden : NodeId → NodeData → Bool} {base : NodeId}
  {payloads : Bool}

/-- Replacing one text by its segments puts its pieces in its place and keeps the body normal. -/
lemma replaceText_spec (hr : refusals.locked = none) (hshows : l.Shows hidden base payloads)
    (hq : l.Spares q base) (h : s.document.WellFormed) (hbase : base ≤ s.document.fresh)
    (hbody : Forest.Has Document.body data children s.document.forest) (hnormal : children.Normal)
    {id : NodeId} {t : Text} {done rest : List (NodeId × Text)}
    (htexts : children.textsOutside hidden = done ++ (id, t) :: rest) {segments : List Segment}
    (hpieces : segments.map Segment.piece = g.pieces t) :
    ∃ d children' new,
      (host refusals).replaceText id (segments.map l.nodeSpec) s =
        (.ok (), { s with document := d }) ∧
      s.document.Follows d ∧ s.document.fresh ≤ d.fresh ∧ s.document.Keeps q d ∧
      Forest.Has Document.body data children' d.forest ∧ children'.Normal ∧
      children'.textsOutside hidden = (done ++ new) ++ rest ∧
      new.map Prod.snd = (g.pieces t).flatMap (Piece.shown payloads) := by
  have hin : (id, t) ∈ children.textsOutside hidden := by simp [htexts]
  have hentry := Forest.mem_entries_of_mem_textsOutside hin
  have hnodup := (hbody.nodup h.nodup).2
  obtain ⟨new, hnew⟩ :
    ∃ new, new = (NodeSpec.buildAll s.document.fresh (segments.map l.nodeSpec)).1 := ⟨_, rfl⟩
  obtain ⟨d, hok, hfollows, hfresh, hforest, hbody'⟩ :=
    host_replaceText hr h hbody hentry (segments.map l.nodeSpec)
  rw [← hnew] at hforest hbody'
  obtain ⟨below, hhas⟩ := Forest.exists_has hentry
  obtain rfl := hhas.eq_nil_of_text (hbody.proper h.proper).2
  refine ⟨d, children.splice id new, new.textsOutside hidden, hok, hfollows, hfresh, ?_, hbody', ?_,
    ?_, ?_⟩
  · refine Document.keeps_splice h hq.text (hbody.entries_subset hentry) (fun i x hx => ?_) hforest
    rcases entries_buildAll segments (hnew ▸ hx) with ⟨u, rfl⟩ | ⟨e, rfl, hi⟩
    · exact hq.text i u
    · exact hq.equation i e (hbase.trans hi)
  · have hnewNormal : new.Normal := by
      rw [hnew]
      exact normal_buildAll segments (hpieces ▸ g.apart_pieces t)
        (hpieces ▸ fun p hp => g.content_ne_nil_of_mem_pieces hp) (by simp)
    refine Forest.NormalFrom.splice hnormal hnewNormal fun data' hdata' => ?_
    rw [Forest.entry_unique hnodup hdata' hentry]
    rfl
  · rw [hhas.textsOutside_splice hnodup (hshows.text id t) htexts new, List.append_assoc]
  · rw [hnew, texts_buildAll hshows hbase, hpieces]

/-- Converting texts puts the pieces of each in its place. -/
lemma convertNodes_spec (hr : refusals.locked = none) (hshows : l.Shows hidden base payloads)
    (hq : l.Spares q base) {done rest : List (NodeId × Text)} (counts : Counts)
    (h : s.document.WellFormed) (hbase : base ≤ s.document.fresh)
    (hbody : Forest.Has Document.body data children s.document.forest) (hnormal : children.Normal)
    (htexts : children.textsOutside hidden = done ++ rest) :
    ∃ children', Forest.Has Document.body data children'
        (convertNodes (host refusals) g l counts (rest.map Prod.fst) s).2.document.forest ∧
      children'.Normal ∧
      (children'.textsOutside hidden).map Prod.snd = done.map Prod.snd ++
        rest.flatMap (fun p => (g.pieces p.2).flatMap (Piece.shown payloads)) ∧
      (convertNodes (host refusals) g l counts (rest.map Prod.fst) s).1.total =
        counts.total + (rest.flatMap fun p => g.pieces p.2).countP Piece.isMarker ∧
      s.document.Keeps q
        (convertNodes (host refusals) g l counts (rest.map Prod.fst) s).2.document := by
  -- the texts of the body are those done and those still to come; each step moves one over
  induction rest generalizing done counts s children with
  | nil => exact ⟨children, hbody, hnormal, by simp [htexts], rfl, Document.Keeps.refl q _⟩
  | cons p rest ih =>
    obtain ⟨id, t⟩ := p
    have hin : (id, t) ∈ children.textsOutside hidden := by simp [htexts]
    have hentry := Forest.mem_entries_of_mem_textsOutside hin
    have htext : (host refusals).textOf s id = t :=
      Document.textOf_eq h (hbody.entries_subset hentry)
    rw [List.map_cons, convertNodes, htext]
    cases hsegments : g.segment? counts t with
    | none =>
      -- a text without a marker is its only piece, because in a normal body it is not empty
      have hne := Forest.Normal.ne_nil_of_mem hnormal (hbody.proper h.proper).2 hentry
      have hpieces := g.pieces_of_not_holds hne (g.segment?_eq_none_iff.1 hsegments)
      have hdone : children.textsOutside hidden = (done ++ [(id, t)]) ++ rest := by simp [htexts]
      obtain ⟨children', hbody', hnormal', htexts', htotal', hkept⟩ :=
        ih counts h hbase hbody hnormal hdone
      refine ⟨children', hbody', hnormal', ?_, ?_, hkept⟩
      · simp [htexts', hpieces, Piece.shown]
      · simp [htotal', hpieces, Piece.isMarker]
    | some found =>
      obtain ⟨segments, after⟩ := found
      obtain ⟨-, hnumber⟩ := g.segment?_eq_some_iff.1 hsegments
      have hpieces := Segment.map_piece_of_number hnumber
      have hafter : after.total = counts.total + (g.pieces t).countP Piece.isMarker := by
        rw [← Segment.total_number, hnumber]
      obtain ⟨d, below, new, hok, hfollows, hfresh, hkept, hbelow, hnormal', htexts', hshown⟩ :=
        replaceText_spec hr hshows hq h hbase hbody hnormal htexts hpieces
      obtain ⟨children', hbody', hnormal'', htexts'', htotal', hkept'⟩ :=
        ih (s := { s with document := d }) after hfollows.wellFormed (hbase.trans hfresh) hbelow
          hnormal' htexts'
      simp only [hok]
      refine ⟨children', hbody', hnormal'', ?_, ?_, hkept.trans hkept'⟩
      · rw [htexts'', List.map_append, hshown, List.flatMap_cons, List.append_assoc]
      · rw [htotal', hafter, List.flatMap_cons, List.countP_append, Nat.add_assoc]

end Spec

/-- Where no text holds a marker there is nothing to convert. -/
lemma convertNodes_of_not_holds (counts : Counts) {nodes : List NodeId}
    (hnone : ∀ n ∈ nodes, ∀ kind, ¬ (g.rule kind).Holds (s.document.textOf n)) :
    convertNodes (host refusals) g l counts nodes s = (counts, s) := by
  induction nodes with
  | nil => rfl
  | cons n nodes ih =>
    rw [List.forall_mem_cons] at hnone
    have htext : g.segment? counts ((host refusals).textOf s n) = none :=
      g.segment?_eq_none_iff.2 hnone.1
    rw [convertNodes, htext]
    exact ih hnone.2

end Session

/-! ## The style element -/

lemma css_ne_nil (s : Settings) : s.css.toList ≠ [] := by
  simp [Settings.css, String.toList_append]

namespace Document

/-- A style element begins with no text and holds one that is not empty. -/
lemma normal_styleTree (fresh : NodeId) (id : String) {css : String} (hcss : css.toList ≠ []) :
    (styleTree fresh id css).NormalFrom true :=
  ⟨⟨rfl, hcss, trivial⟩, trivial⟩

/-- No text in a style element is looked at. -/
lemma textsOutside_styleTree {hidden : NodeId → NodeData → Bool}
    (hskipped : ∀ id data, Forest.isSkipped id data = true → hidden id data = true)
    (fresh : NodeId) (id css : String) : (styleTree fresh id css).textsOutside hidden = [] := by
  have hstyle : hidden fresh (.element "style" [("id", id.toList)]) = true :=
    hskipped _ _ (by simp [Forest.isSkipped, NodeData.tag?, skippedTags])
  simp [styleTree, Forest.textsOutside, hstyle]

end Document

/-! ## Converting a document -/

/-- The texts that a pass looks at. -/
def Document.texts (d : Document) : List Text :=
  d.textNodes.map d.textOf

namespace Document

variable {d : Document} {data : NodeData} {children : Forest}

lemma textNodes_eq (h : d.WellFormed) (hbody : Forest.Has body data children d.forest) :
    d.textNodes = (children.textsOutside Forest.isSkipped).map Prod.fst := by
  rw [textNodes, hbody.childrenOf h.nodup]
  exact Forest.scannedTexts_eq (hbody.proper h.proper).2

lemma texts_eq (h : d.WellFormed) (hbody : Forest.Has body data children d.forest) :
    d.texts = (children.textsOutside Forest.isSkipped).map Prod.snd := by
  rw [texts, textNodes_eq h hbody, List.map_map]
  refine List.map_congr_left fun p hp => ?_
  exact textOf_eq h (hbody.entries_subset (Forest.mem_entries_of_mem_textsOutside hp))

/-- A document with a normal body stays as it is. -/
lemma normalize_of_normal (h : d.WellFormed) (hbody : Forest.Has body data children d.forest)
    (hnormal : children.Normal) : d.normalize = d := by
  have hproper := (hbody.proper h.proper).2
  rw [normalize, hbody.childrenOf h.nodup, Forest.normalize_of_normal hproper hnormal,
    Forest.droppedTexts_of_normal hproper hnormal, hbody.setChildren_eq h.nodup]
  simp

end Document

namespace Session

variable {refusals : Refusals} {g : Grammar} {l : Layout} {s : Session} {data : NodeData}
  {children : Forest}

/-- Converting a document leaves the pieces of its texts. -/
lemma convertDocument_spec (hr : refusals.locked = none) {q : NodeId → NodeData → Prop}
    (hq : l.Spares q s.document.fresh) {hidden : NodeId → NodeData → Bool}
    {payloads : Bool} (hshows : l.Shows hidden s.document.fresh payloads)
    (h : s.document.WellFormed) (hbody : Forest.Has Document.body data children s.document.forest) :
    ∃ children', Forest.Has Document.body data children'
        (convertDocument (host refusals) g l s).2.document.forest ∧
      children'.Normal ∧
      (children'.textsOutside hidden).map Prod.snd =
        s.document.normalize.texts.flatMap (fun t => (g.pieces t).flatMap (Piece.shown payloads)) ∧
      (convertDocument (host refusals) g l s).1.total =
        (s.document.normalize.texts.flatMap g.pieces).countP Piece.isMarker ∧
      s.document.Keeps q (convertDocument (host refusals) g l s).2.document := by
  have hnormalize := (Document.follows_normalize h).wellFormed
  have hbody' := Document.has_body_normalize h hbody
  -- before the conversion every node is an old one, so only skipped elements are hidden
  have hold : children.normalize.textsOutside hidden =
      children.normalize.textsOutside Forest.isSkipped := by
    refine Forest.textsOutside_congr fun e he => hshows.old e.1 e.2 ?_
    exact hnormalize.lt_fresh e.1
      (Forest.mem_ids_of_mem_entries (hbody'.entries_subset he))
  have hconvert : convertDocument (host refusals) g l s =
      convertNodes (host refusals) g l {}
        ((children.normalize.textsOutside Forest.isSkipped).map Prod.fst)
        { s with document := s.document.normalize } := by
    rw [← Document.textNodes_eq hnormalize hbody']
    rfl
  obtain ⟨children', hbody'', hnormal, htexts, htotal, hkept⟩ :=
    convertNodes_spec (g := g) (s := { s with document := s.document.normalize }) hr hshows hq {}
      hnormalize (Nat.le_refl _) hbody' (Forest.normal_normalize children)
      (hold.trans (List.nil_append _).symm)
  refine ⟨children', hconvert ▸ hbody'', hnormal, ?_, ?_,
    (Document.keeps_normalize h hq.text).trans (hconvert ▸ hkept)⟩
  · rw [htexts, Document.texts_eq hnormalize hbody', List.flatMap_map]
    rfl
  · rw [hconvert, htotal, Document.texts_eq hnormalize hbody', List.flatMap_map]
    exact Nat.zero_add _

/-- A document with a normal body and without markers stays as it is. -/
lemma convertDocument_of_not_holds (h : s.document.WellFormed)
    (hbody : Forest.Has Document.body data children s.document.forest) (hnormal : children.Normal)
    (hnone : ∀ t ∈ s.document.texts, ∀ kind, ¬ (g.rule kind).Holds t) :
    convertDocument (host refusals) g l s = ({}, s) := by
  have hsame : (host refusals).normalize s = s := by
    show { s with document := s.document.normalize } = s
    rw [Document.normalize_of_normal h hbody hnormal]
  rw [convertDocument, hsame]
  exact convertNodes_of_not_holds {} fun n hn => hnone _ (List.mem_map_of_mem hn)

/-! ## The whole pass -/

variable {e : Engine}

lemma settle_forest (index : Nat) (s : Session) :
    (settle index s).document.forest = s.document.forest := by
  rw [settle]
  split <;> rfl

lemma settle_engines (index : Nat) (s : Session) : (settle index s).engines =
    s.engines.modify index fun e => { e with passes := e.passes + 1 } := by
  rw [settle]
  split <;> rfl

lemma pass_counts (index : Nat) (e : Engine) (s : Session) : (s.pass index e).1.counts =
    (convertDocument (host e.refusals) e.settings.grammar e.settings.layout s).1 := rfl

/-- Behind the conversion and the style rules the forest stays as it is, and of the engines only the count
of passes changes. -/
lemma runPass_styled (host : Host Session NodeId) (hlog : host.log = log) (settings : CheckedSettings)
    (scripted : List ScriptedTypesetter) (index : Nat) (s : Session) :
    ∃ styled after, styled = (settings.sheet.ensure host
        (convertDocument host settings.grammar settings.layout s).2).2 ∧
      after = (runPass host settings (scripted.map fun t => t.typesetter fun call => note (.render call))
        (settle index) s).2 ∧
      after.document.forest = styled.document.forest ∧
      after.engines = styled.engines.modify index fun e => { e with passes := e.passes + 1 } := by
  -- typesetters and the log touch neither the document nor the engines
  obtain ⟨styled, hstyled⟩ : ∃ styled, styled = (settings.sheet.ensure host
      (convertDocument host settings.grammar settings.layout s).2).2 := ⟨_, rfl⟩
  obtain ⟨typesetters, htypesetters⟩ : ∃ typesetters : List (Typesetter Session), typesetters =
      scripted.map fun t => t.typesetter fun call => note (.render call) := ⟨_, rfl⟩
  have hkeeps : ∀ t ∈ typesetters, t.Keeps fun s' =>
      s'.document = styled.document ∧ s'.engines = styled.engines := by
    intro t ht
    rw [htypesetters] at ht
    obtain ⟨scripted, -, rfl⟩ := List.mem_map.1 ht
    exact ⟨fun _ h => h, fun _ _ h => h⟩
  have hkept : ∀ record s', s'.document = styled.document ∧ s'.engines = styled.engines →
      (log record s').document = styled.document ∧ (log record s').engines = styled.engines :=
    fun _ _ h => h
  obtain ⟨hdocument, hengines⟩ :=
    trigger_keeps hkeeps hkept settings.delimiters (s := styled) ⟨rfl, rfl⟩
  have hpass : (runPass host settings typesetters (settle index) s).2 =
      log (passSummary (convertDocument host settings.grammar settings.layout s).1)
        (settle index (trigger log settings.delimiters typesetters styled).2) := by
    rw [hstyled, ← hlog]
    rfl
  rw [← htypesetters]
  refine ⟨styled, _, hstyled, rfl, ?_, ?_⟩
  · rw [hpass]
    show (settle index _).document.forest = _
    rw [settle_forest, hdocument]
  · rw [hpass]
    show (settle index _).engines = _
    rw [settle_engines, hengines]

lemma pass_styled (index : Nat) (e : Engine) (s : Session) :
    ∃ styled, styled = (e.settings.sheet.ensure (host e.refusals)
        (convertDocument (host e.refusals) e.settings.grammar e.settings.layout s).2).2 ∧
      (s.pass index e).2.document.forest = styled.document.forest ∧
      (s.pass index e).2.engines =
        styled.engines.modify index fun e => { e with passes := e.passes + 1 } := by
  obtain ⟨styled, after, hstyled, rfl, hforest, hengines⟩ :=
    runPass_styled (host e.refusals) rfl e.settings e.typesetters index s
  exact ⟨styled, hstyled, hforest, hengines⟩

lemma pass_forest (index : Nat) (e : Engine) (s : Session) :
    (s.pass index e).2.document.forest = (e.settings.sheet.ensure (host e.refusals)
      (convertDocument (host e.refusals) e.settings.grammar e.settings.layout s).2).2.document.forest := by
  obtain ⟨styled, rfl, hforest, -⟩ := pass_styled index e s
  exact hforest

/-- No operation of a document touches the engines. -/
lemma host_keeps_engines (refusals : Refusals) (s : Session) :
    (host refusals).Keeps fun s' => s'.engines = s.engines where
  normalize _ h := h
  textNodes _ h := h
  replaceText id specs s' h := by
    simp only [host]
    split
    · exact h
    · cases s'.document.replaceText id specs <;> exact h
  insertStyle id css s' h := by
    simp only [host]
    split
    · exact h
    · cases s'.document.insertStyle id css <;> exact h
  log _ _ h := h

lemma pass_engines (index : Nat) (e : Engine) (s : Session) : (s.pass index e).2.engines =
    s.engines.modify index fun e => { e with passes := e.passes + 1 } := by
  obtain ⟨styled, hstyled, -, hengines⟩ := pass_styled index e s
  have hkeeps := host_keeps_engines e.refusals s
  have hconverted := convertDocument_keeps hkeeps e.settings.grammar e.settings.layout rfl
  rw [hengines, hstyled, ensure_keeps hkeeps e.settings.sheet hconverted]

/-- An engine is there after its pass. -/
lemma engine?_pass {index : Nat} (he : s.engine? index = some e) :
    (s.pass index e).2.engine? index = some { e with passes := e.passes + 1 } := by
  obtain ⟨hindex, hhandles⟩ := Option.filter_eq_some_iff.1 he
  rw [engine?, pass_engines, List.getElem?_modify, hindex]
  simpa using hhandles

/-- Where style rules are not refused they stand at the end of the head, unless they are there. -/
lemma ensure_forest (sheet : Sheet) (hr : refusals.style = none) (h : s.document.WellFormed) :
    (sheet.ensure (host refusals) s).2.document.forest =
      if s.document.hasStyle sheet.id then s.document.forest
      else s.document.forest.appendTo Document.head
        (Document.styleTree s.document.fresh sheet.id sheet.css) := by
  rw [Sheet.ensure]
  show (if s.document.hasStyle sheet.id = true then _ else _ : StyleOutcome × Session).2.document.forest
    = _
  split
  · rfl
  · obtain ⟨d, hok, hforest, -⟩ := Document.insertStyle_eq_ok h sheet.id sheet.css
    have hinsert : (host refusals).insertStyle sheet.id sheet.css s =
        (.ok (), { s with document := d }) := by
      simp only [host, hr, hok]
      rfl
    rw [hinsert]
    exact hforest

/-- A pass on a document that refuses nothing leaves the pieces of its texts. -/
lemma pass_spec (index : Nat) (he : e.refusals = {}) {hidden : NodeId → NodeData → Bool} {payloads : Bool}
    (hshows : e.settings.layout.Shows hidden s.document.fresh payloads)
    (h : s.document.WellFormed) (hbody : Forest.Has Document.body data children s.document.forest) :
    ∃ children', Forest.Has Document.body data children' (s.pass index e).2.document.forest ∧
      children'.Normal ∧
      (children'.textsOutside hidden).map Prod.snd = s.document.normalize.texts.flatMap fun t =>
        (e.settings.grammar.pieces t).flatMap (Piece.shown payloads) := by
  have hr : e.refusals.locked = none := by rw [he]
  obtain ⟨children', hbody', hnormal, htexts, -⟩ :=
    convertDocument_spec (g := e.settings.grammar) hr (Layout.spares_false _ _) hshows h hbody
  have hfollows := convertDocument_keeps (host_keeps e.refusals s) e.settings.grammar
    e.settings.layout (Follows.refl h)
  have hwell := hfollows.document.wellFormed
  rw [pass_forest, ensure_forest _ (by rw [he]) hwell]
  split
  · exact ⟨children', hbody', hnormal, htexts⟩
  · have hne : Document.body ≠ Document.head := by decide
    refine ⟨_, hbody'.appendTo hwell.nodup hne _, ?_, ?_⟩
    · exact Forest.NormalFrom.appendTo hnormal (Document.normal_styleTree _ _ (css_ne_nil _)) _
    · rw [Forest.textsOutside_appendTo (Document.textsOutside_styleTree hshows.skipped _ _ _), htexts]

end Session

end MarkedMath
