import Mathlib.Data.Nat.Find
import MarkedMath.Proofs.PassAccounts
import MarkedMath.Proofs.Watching
import MarkedMath.Proofs.Tree.Contents

/-!
# Engines come to rest

Engines that watch one document wake each other: what one of them puts into the document the others are told
of, and their passes may put in more. This ends. A pass that converts a marker drops the tokens of the marker,
so less text is left in the body, and a pass that converts none puts nothing below the body, as long as the
head, where the style rules go, does not stand there. So each delivery leaves less text than the one before it
until one leaves nothing to be told of (`Session.deliveries_come_to_rest`).
-/

namespace MarkedMath

/-! ## What a conversion leaves of texts -/

section Converts

variable {g : Grammar} {l : Layout} {refuse : NodeId → Text → Option HostError} {base : NodeId}
  {σ : NodeId → Option Forest} {counts final : Counts} {texts : List (NodeId × Text)}

/-- The text of new nodes is what the segments hold. -/
lemma textContent_buildAll (fresh : NodeId) (segments : List Segment) :
    (NodeSpec.buildAll fresh (segments.map l.nodeSpec)).1.textContent =
      (segments.map Segment.piece).flatMap Piece.content := by
  induction segments generalizing fresh with
  | nil => rfl
  | cons segment segments ih =>
    rw [List.map_cons, List.map_cons, List.flatMap_cons]
    cases segment with
    | text t =>
      rw [← ih (fresh + 1)]
      rfl
    | equation e =>
      rw [← ih (fresh + 2), buildAll_equation, Forest.textContent_of_text?_eq_none rfl]
      exact congrArg (· ++ _) (List.append_nil e.content)

lemma Grammar.length_content_le (g : Grammar) (p : Piece) :
    p.content.length ≤ (g.writtenPiece p).length ∧
      (p.isMarker = true → p.content.length < (g.writtenPiece p).length) := by
  cases p with
  | text t => exact ⟨Nat.le_refl _, by simp [Piece.isMarker]⟩
  | marker kind payload =>
    have hstart := List.length_pos_iff.2 (g.start_ne_nil kind)
    simp only [Piece.content, writtenPiece, Rule.written, List.length_append]
    exact ⟨by omega, fun _ => by omega⟩

/-- Pieces with a marker among them hold less than the text that they were cut from. -/
lemma Grammar.length_content_lt (g : Grammar) {pieces : List Piece} (h : pieces.any Piece.isMarker = true) :
    (pieces.flatMap Piece.content).length < (pieces.flatMap g.writtenPiece).length := by
  have hle : ∀ ps : List Piece, (ps.flatMap Piece.content).length ≤ (ps.flatMap g.writtenPiece).length := by
    intro ps
    induction ps with
    | nil => exact Nat.le_refl _
    | cons p ps ih =>
      rw [List.flatMap_cons, List.flatMap_cons, List.length_append, List.length_append]
      exact Nat.add_le_add (g.length_content_le p).1 ih
  induction pieces with
  | nil => cases h
  | cons p ps ih =>
    rw [List.flatMap_cons, List.flatMap_cons, List.length_append, List.length_append]
    rw [List.any_cons, Bool.or_eq_true] at h
    rcases h with h | h
    · exact Nat.add_lt_add_of_lt_of_le ((g.length_content_le p).2 h) (hle ps)
    · exact Nat.add_lt_add_of_le_of_lt (g.length_content_le p).1 (ih h)

/-- New nodes have less text than the text node that they replace. -/
lemma Converts.length_lt (h : Converts g l refuse base σ counts texts final) {id : NodeId} {t : Text}
    (hmem : (id, t) ∈ texts) {new : Forest} (hσ : σ id = some new) : new.textContent.length < t.length := by
  induction h with
  | nil => cases hmem
  | kept hnone _ _ ih =>
    rcases List.mem_cons.1 hmem with he | hmem
    · obtain ⟨rfl, rfl⟩ := Prod.mk.inj he
      simp [hnone] at hσ
    · exact ih hmem
  | replaced hsome _ hholds hnumber _ _ ih =>
    rcases List.mem_cons.1 hmem with he | hmem
    · obtain ⟨rfl, rfl⟩ := Prod.mk.inj he
      obtain rfl := Option.some_inj.1 (hsome.symm.trans hσ)
      rw [textContent_buildAll, Segment.map_piece_of_number hnumber]
      conv_rhs => rw [← g.flatMap_written_pieces t]
      exact g.length_content_lt (g.any_marker_iff.2 hholds)
    · exact ih hmem

/-- Where something was counted, a text was replaced. -/
lemma Converts.exists_replaced (h : Converts g l refuse base σ counts texts final) (hne : final ≠ counts) :
    ∃ p ∈ texts, (σ p.1).isSome = true := by
  induction h with
  | nil => exact absurd rfl hne
  | kept _ _ _ ih =>
    obtain ⟨p, hp, hsome⟩ := ih hne
    exact ⟨p, List.mem_cons_of_mem _ hp, hsome⟩
  | replaced hsome => exact ⟨_, List.mem_cons_self, by rw [hsome]; rfl⟩

end Converts

/-! ## One pass -/

/-- The head does not stand below the body. -/
def Document.HeadApart (d : Document) : Prop :=
  d.forest.isWithin Document.head Document.body = false

/-- Observers have been told of everything. -/
def Document.AllTold (d : Document) : Prop :=
  ∀ o ∈ d.observers, o.pending = []

/-- How much text there is in the body. -/
def Document.bodyText (d : Document) : Nat :=
  (d.textContent Document.body).length

/-- How many markers the pass converts. -/
def PassMade.converted (p : PassMade) : Nat :=
  (p.session.pass p.index p.engine).1.counts.total

namespace Session

variable {s : Session} {data : NodeData} {children : Forest}

lemma headApart_iff {d : Document} (h : d.WellFormed) (hbody : Forest.Has Document.body data children d.forest) :
    d.HeadApart ↔ Document.head ∉ children.ids := by
  rw [Document.HeadApart, Bool.eq_false_iff, Ne, hbody.isWithin_iff h.nodup, or_iff_right (by decide)]

lemma bodyText_eq {d : Document} (h : d.WellFormed) {tag : String} {attributes : List (String × Text)}
    (hbody : Forest.Has Document.body (.element tag attributes) children d.forest) :
    d.bodyText = children.textContent.length := by
  rw [Document.bodyText, Document.textContent, hbody.tree h.nodup]
  simp [Forest.textContent]

lemma head_not_mem_normalize (hproper : children.Proper) (hhead : Document.head ∉ children.ids) :
    Document.head ∉ children.normalize.ids := fun hin =>
  hhead ((Forest.perm_normalize hproper).subset (List.mem_append_left _ hin))

/-- A pass shortens the text of the body when it converts a marker, and keeps the head where it is. -/
lemma bodyText_pass (h : s.document.WellFormed) (hhead : s.document.HeadApart) (index : Nat) (e : Engine) :
    (s.pass index e).2.document.HeadApart ∧
      (s.pass index e).2.document.bodyText ≤ s.document.bodyText ∧
      ((s.pass index e).1.counts.total ≠ 0 →
        (s.pass index e).2.document.bodyText < s.document.bodyText) := by
  obtain ⟨attributes, children, hbody⟩ := h.exists_has_body
  have hwell := (follows_pass h index e).document.wellFormed
  obtain ⟨σ, after, hplaces, hconverts, hnone, hafter, hstyle⟩ :=
    refusingPass_body (lockedBy e.refusals) index e h hbody
  rw [← pass_eq_refusingPass] at hconverts hafter
  have hproper := (hbody.proper h.proper).2
  have hnodup := (Document.has_body_normalize h hbody).nodup (Document.follows_normalize h).wellFormed.nodup
  obtain ⟨headAttributes, headChildren, hheadHas⟩ := h.exists_has_head
  have hold := h.lt_fresh _ hheadHas.mem_ids
  -- the head is not among the children of the body, nor are style rules then
  have hapart : Document.head ∉ (children.normalize.substitute σ).ids :=
    Forest.not_mem_ids_substitute (head_not_mem_normalize hproper ((headApart_iff h hbody).1 hhead))
      fun i new hnew hin => absurd (hplaces.fresh i new hnew _ hin) (Nat.not_le_of_lt hold)
  have hafter' : after = children.normalize.substitute σ := by
    rcases hstyle with hsame | ⟨fresh, -, hsame⟩
    · exact hsame
    · rw [hsame, Forest.appendTo_of_not_mem hapart]
  subst hafter'
  obtain ⟨hle, hlt⟩ := Forest.length_textContent_substitute (σ := σ) hproper.normalize fun i d hi new hnew => by
    have hmem : i ∈ (children.normalize.textsOutside Forest.isSkipped).map Prod.fst := by
      by_contra hnot
      rw [hnone i hnot] at hnew
      cases hnew
    obtain ⟨⟨j, t⟩, hp, rfl⟩ := List.mem_map.1 hmem
    have hentry := Forest.mem_entries_of_mem_textsOutside hp
    exact ⟨t, Forest.entry_unique hnodup.2 hi hentry, hconverts.length_lt hp hnew⟩
  rw [Forest.textContent_normalize] at hle hlt
  rw [bodyText_eq hwell hafter, bodyText_eq h hbody]
  refine ⟨(headApart_iff hwell hafter).2 hapart, hle, fun htotal => hlt ?_⟩
  obtain ⟨p, hp, hsome⟩ := hconverts.exists_replaced fun heq => htotal (by rw [heq]; rfl)
  exact ⟨p.1, (Forest.textsOutside_sublist _).subset (List.mem_map_of_mem hp), hsome⟩

/-! ## A pass that converts nothing -/

/-- Counts never go down, and where they stay the same nothing was replaced. -/
lemma convertNodes_idle (refusals : Refusals) (g : Grammar) (l : Layout) (counts : Counts)
    (nodes : List NodeId) (s : Session) :
    counts.total ≤ (convertNodes (host refusals) g l counts nodes s).1.total ∧
      ((convertNodes (host refusals) g l counts nodes s).1.total = counts.total →
        (convertNodes (host refusals) g l counts nodes s).2.document = s.document) := by
  induction nodes generalizing counts s with
  | nil => exact ⟨Nat.le_refl _, fun _ => rfl⟩
  | cons n nodes ih =>
    rw [convertNodes]
    cases hsegment : g.segment? counts ((host refusals).textOf s n) with
    | none => exact ih counts s
    | some found =>
      obtain ⟨segments, after⟩ := found
      obtain ⟨hholds, hnumber⟩ := g.segment?_eq_some_iff.1 hsegment
      have htotal : counts.total < after.total := by
        have hmarkers := List.any_eq_true.1 (g.any_marker_iff.2 hholds)
        have hpositive := List.countP_pos_iff.2 hmarkers
        have hcount := Segment.total_number counts (g.pieces ((host refusals).textOf s n))
        rw [hnumber] at hcount
        exact hcount ▸ Nat.lt_add_of_pos_right hpositive
      dsimp only
      split
      · next s' _ =>
        have hmore := htotal.trans_le (ih after s').1
        exact ⟨hmore.le, fun heq => absurd heq (Nat.ne_of_gt hmore)⟩
      · next e s' heq =>
        -- what is refused changes nothing
        have hsame : s'.document = s.document := by
          have hrefused : ((host refusals).replaceText n (segments.map l.nodeSpec) s).2.document =
              s.document := by
            simp only [host] at heq ⊢
            split
            · rfl
            · next hfree =>
              rw [if_neg hfree] at heq
              cases hok : s.document.replaceText n (segments.map l.nodeSpec) with
              | error e => rfl
              | ok d => simp [hok, perform] at heq
          rw [heq] at hrefused
          exact hrefused
        rw [← hsame]
        exact ih counts _

/-- Where nothing is converted the document is only normalized. -/
lemma document_convert_idle (index : Nat) (e : Engine) (hidle : (s.pass index e).1.counts.total = 0) :
    (convertDocument (host e.refusals) e.settings.grammar e.settings.layout s).2.document =
      s.document.normalize := by
  have hnodes : convertDocument (host e.refusals) e.settings.grammar e.settings.layout s =
      convertNodes (host e.refusals) e.settings.grammar e.settings.layout {}
        s.document.normalize.textNodes { s with document := s.document.normalize } := rfl
  rw [pass_counts, hnodes] at hidle
  rw [hnodes]
  exact (convertNodes_idle e.refusals _ _ {} _ _).2 hidle

/-- Adding style rules to a head that does not stand below the body tells observers of nothing. -/
lemma allTold_ensure (sheet : Sheet) (refusals : Refusals) (h : s.document.WellFormed)
    (hhead : s.document.HeadApart) (htold : s.document.AllTold) :
    (sheet.ensure (host refusals) s).2.document.AllTold := by
  obtain ⟨attributes, children, hbody⟩ := h.exists_has_body
  rw [Sheet.ensure]
  split
  · exact htold
  · simp only [host]
    cases refusals.style with
    | some e => exact htold
    | none =>
      obtain ⟨d, hok, hforest, -, -, hnotes⟩ := Document.insertStyle_eq_ok h sheet.id sheet.css
      have hwell := (Document.follows_insertStyle h hok).wellFormed
      have hapart := Document.isWithin_head_appendTo h hwell hforest (by decide) hbody
      rw [Document.HeadApart] at hhead
      simp only [hok, perform]
      show ∀ o ∈ d.observers, o.pending = []
      rw [hnotes, hapart, hhead]
      exact htold

lemma allTold_takeRecords {d : Document} (h : d.AllTold) (observer : Nat) :
    (d.takeRecords observer).AllTold := by
  intro o ho
  obtain ⟨i, hi⟩ := List.mem_iff_getElem?.1 ho
  rw [Document.takeRecords, List.getElem?_modify] at hi
  obtain ⟨o', ho', rfl⟩ := Option.map_eq_some_iff.1 hi
  split
  · rfl
  · exact h o' (List.mem_of_getElem? ho')

lemma allTold_settle (h : s.document.AllTold) (index : Nat) : (settle index s).document.AllTold := by
  rw [settle]
  split
  · exact allTold_takeRecords h _
  · exact h

/-- A pass that converts nothing tells nobody of anything. -/
lemma allTold_pass (h : s.document.WellFormed) (hhead : s.document.HeadApart) (htold : s.document.AllTold)
    (index : Nat) (e : Engine) (hidle : (s.pass index e).1.counts.total = 0) :
    (s.pass index e).2.document.AllTold := by
  obtain ⟨attributes, children, hbody⟩ := h.exists_has_body
  have hnormalize := (Document.follows_normalize h).wellFormed
  have hbody' := Document.has_body_normalize h hbody
  obtain ⟨converted, hconverted⟩ : ∃ converted,
    converted = convertDocument (host e.refusals) e.settings.grammar e.settings.layout s := ⟨_, rfl⟩
  have hsame : converted.2.document = s.document.normalize := hconverted ▸ document_convert_idle index e hidle
  have hapart : converted.2.document.HeadApart := by
    rw [hsame, headApart_iff hnormalize hbody']
    exact head_not_mem_normalize (hbody.proper h.proper).2 ((headApart_iff h hbody).1 hhead)
  have hensured := allTold_ensure (s := converted.2) e.settings.sheet e.refusals (hsame ▸ hnormalize) hapart
    (by rw [hsame]; exact htold)
  have hpass : (s.pass index e).2 = log (passSummary converted.1) (settle index
      (trigger log e.settings.delimiters
        (e.typesetters.map fun t => t.typesetter fun call => note (.render call))
        (e.settings.sheet.ensure (host e.refusals) converted.2).2).2) := by
    rw [hconverted]
    rfl
  rw [hpass]
  show (settle index _).document.AllTold
  refine allTold_settle ?_ index
  have hlog : ∀ record (s' : Session), s'.document.AllTold → (log record s').document.AllTold := fun _ _ h => h
  refine trigger_keeps (P := fun s' : Session => s'.document.AllTold) (fun t ht => ?_) hlog _ hensured
  obtain ⟨scripted, -, rfl⟩ := List.mem_map.1 ht
  exact ⟨fun _ h => h, fun _ _ h => h⟩

/-! ## One delivery -/

end Session

/-- Whether a pass is made that converts a marker. -/
def Occurrence.converts : Occurrence → Bool
  | told _ _ => false
  | passed p => p.converted ≠ 0

lemma Occurrence.converts_passed {p : PassMade} : (passed p).converts = true ↔ p.converted ≠ 0 :=
  decide_eq_true_iff

namespace Session

variable {s : Session}

/-- A session in which engines come to rest: the head does not stand below the body. -/
structure Calm (s : Session) : Prop where
  /-- The document is well-formed. -/
  wellFormed : s.document.WellFormed
  /-- The head stands elsewhere. -/
  head : s.document.HeadApart

lemma Calm.pass (h : s.Calm) (index : Nat) (e : Engine) : (s.pass index e).2.Calm :=
  ⟨(follows_pass h.wellFormed index e).document.wellFormed, (bodyText_pass h.wellFormed h.head index e).1⟩

/-- What telling observers, one after the other, makes of a session: there is less text in the body for every
pass that converts a marker, and nothing to be told of when there is none. -/
structure Settles (s s' : Session) (occurrences : List Occurrence) : Prop where
  /-- The head stays where it is. -/
  calm : s'.Calm
  /-- Every pass that converts a marker shortens the text. -/
  bodyText : s'.document.bodyText + occurrences.countP Occurrence.converts ≤ s.document.bodyText
  /-- Other passes leave nothing to be told of. -/
  allTold : s.document.AllTold → occurrences.countP Occurrence.converts = 0 → s'.document.AllTold

lemma Settles.refl (h : s.Calm) : s.Settles s [] :=
  ⟨h, Nat.le_refl _, fun htold _ => htold⟩

lemma Settles.trans {s' s'' : Session} {l l' : List Occurrence} (h : s.Settles s' l) (h' : s'.Settles s'' l') :
    s.Settles s'' (l ++ l') := by
  refine ⟨h'.calm, ?_, fun htold hnone => ?_⟩
  · have := h.bodyText
    have := h'.bodyText
    rw [List.countP_append]
    omega
  · rw [List.countP_append, Nat.add_eq_zero_iff] at hnone
    exact h'.allTold (h.allTold htold hnone.1) hnone.2

lemma settles_pass (h : s.Calm) (index : Nat) (e : Engine) :
    s.Settles (s.pass index e).2 [.passed ⟨s, index, e⟩] := by
  obtain ⟨-, hle, hlt⟩ := bodyText_pass h.wellFormed h.head index e
  have hcount : [Occurrence.passed ⟨s, index, e⟩].countP Occurrence.converts =
      if (s.pass index e).1.counts.total ≠ 0 then 1 else 0 := by
    rw [List.countP_singleton]
    exact if_congr Occurrence.converts_passed rfl rfl
  refine ⟨h.pass index e, ?_, fun htold hnone => allTold_pass h.wellFormed h.head htold index e ?_⟩
  · rw [hcount]
    split
    · next hconverts => exact hlt hconverts
    · exact hle
  · by_contra hconverts
    rw [hcount, if_pos hconverts] at hnone
    cases hnone

lemma settles_notify (h : s.Calm) (batch : Listener × List NodeId) :
    s.Settles (s.notify batch) (s.notified batch) := by
  obtain ⟨listener, nodes⟩ := batch
  cases listener with
  | script name => exact ⟨⟨h.wellFormed, h.head⟩, Nat.le_refl _, fun htold _ => htold⟩
  | engine index =>
    have htold : s.Settles s [.told index (nodes.map s.document.snapshot)] :=
      ⟨h, Nat.le_refl _, fun htold _ => htold⟩
    simp only [notify, notified]
    cases s.engine? index with
    | none => exact htold
    | some e =>
      dsimp only
      split
      · have hpassed := settles_pass (s := s.log .contentDetected) ⟨h.wellFormed, h.head⟩ index e
        exact htold.trans ⟨hpassed.calm, hpassed.bodyText, hpassed.allTold⟩
      · exact htold

lemma settles_foldl_notify (h : s.Calm) (batches : List (Listener × List NodeId)) :
    s.Settles (batches.foldl notify s) (along notify notified batches s) := by
  induction batches generalizing s with
  | nil => exact Settles.refl h
  | cons batch batches ih =>
    have hfirst := settles_notify h batch
    exact hfirst.trans (ih hfirst.calm)

/-- A delivery takes away text for every pass that converts a marker, and leaves nothing to be told of when
there is none. -/
lemma settles_deliver (h : s.Calm) : s.deliver.2.Calm ∧
    s.deliver.2.document.bodyText +
        (s.occurrences (.command .deliver)).countP Occurrence.converts ≤ s.document.bodyText ∧
    ((s.occurrences (.command .deliver)).countP Occurrence.converts = 0 →
      s.deliver.2.document.AllTold) := by
  have hcalm : { s with document := s.document.takeBatches.2 }.Calm :=
    ⟨(Document.follows_takeBatches h.wellFormed).wellFormed, h.head⟩
  have hsettles := settles_foldl_notify hcalm s.document.takeBatches.1
  refine ⟨hsettles.calm, hsettles.bodyText, hsettles.allTold fun o ho => ?_⟩
  obtain ⟨o', -, rfl⟩ := List.mem_map.1 ho
  rfl

/-- Observers are called as long as there is something to be told of. -/
lemma deliver_eq_zero_iff : s.deliver.1 = 0 ↔ s.document.AllTold := by
  show s.document.takeBatches.1.length = 0 ↔ _
  simp [Document.takeBatches, Document.AllTold]

/-! ## Deliveries -/

/-- The session after a number of deliveries and nothing in between. -/
def afterDeliveries (s : Session) : Nat → Session
  | 0 => s
  | n + 1 => (s.afterDeliveries n).deliver.2

lemma calm_afterDeliveries (h : s.Calm) (n : Nat) : (s.afterDeliveries n).Calm := by
  induction n with
  | zero => exact h
  | succ n ih => exact (settles_deliver ih).1

/-- A delivery is followed by one that calls an observer only when it makes a pass that converts a marker. -/
lemma converts_of_deliver_ne_zero (h : s.Calm) (hnext : s.deliver.2.deliver.1 ≠ 0) :
    0 < (s.occurrences (.command .deliver)).countP Occurrence.converts := by
  rw [Nat.pos_iff_ne_zero]
  exact fun hnone => hnext (deliver_eq_zero_iff.2 ((settles_deliver h).2.2 hnone))

/-- As long as observers are called, each delivery takes away text. -/
lemma bodyText_afterDeliveries (h : s.Calm) (n : Nat)
    (hcalled : ∀ i < n, (s.afterDeliveries (i + 1)).deliver.1 ≠ 0) :
    (s.afterDeliveries n).document.bodyText + n ≤ s.document.bodyText := by
  induction n with
  | zero => exact Nat.le_refl _
  | succ n ih =>
    have hbefore := ih fun i hi => hcalled i (Nat.lt_succ_of_lt hi)
    have hcalm := calm_afterDeliveries h n
    have hconverts := converts_of_deliver_ne_zero hcalm (hcalled n (Nat.lt_succ_self n))
    have hless := (settles_deliver hcalm).2.1
    rw [afterDeliveries]
    omega

/-- Every pass of a delivery that converts a marker shortens the text of the body. -/
lemma bodyText_of_mem_deliver (h : s.Calm) {p : PassMade}
    (hp : .passed p ∈ s.occurrences (.command .deliver)) (hconverted : p.converted ≠ 0) :
    p.after.document.bodyText < p.session.document.bodyText := by
  have hcalm : { s with document := s.document.takeBatches.2 }.Calm :=
    ⟨(Document.follows_takeBatches h.wellFormed).wellFormed, h.head⟩
  refine forall_along (P := Calm) (q := fun occurrence => ∀ p, occurrence = .passed p → p.converted ≠ 0 →
    p.after.document.bodyText < p.session.document.bodyText)
    (fun s' batch hs' => (settles_notify hs' batch).calm) (fun s' batch hs' => ?_)
    s.document.takeBatches.1 hcalm _ hp p rfl hconverted
  rintro occurrence hmem p rfl hconverted
  obtain ⟨i, e, rfl⟩ := eq_of_passed_mem_notified hmem
  exact (bodyText_pass (s := s'.log .contentDetected) hs'.wellFormed hs'.head i e).2.2 hconverted

/-- **Engines come to rest.** After any turns, whatever engines there are, whoever watches and whatever is to
be told, let the head not stand below the body. When nothing is done but deliveries, one of them calls no
observer, after no more of them than there are characters in the body and one. All deliveries before it but
the last make a pass that converts a marker, and each such pass of any delivery shortens the text of the
body. -/
theorem deliveries_come_to_rest (loading : Bool) (l : List Turn)
    (hhead : ((start loading).turns l).document.forest.isWithin Document.head Document.body = false) :
    let s := (start loading).turns l
    (∃ n, n ≤ s.document.bodyText + 1 ∧ (s.afterDeliveries n).deliver.1 = 0 ∧
      (∀ i < n, (s.afterDeliveries i).deliver.1 ≠ 0) ∧
      ∀ i, i + 1 < n → ∃ p, .passed p ∈ (s.afterDeliveries i).occurrences (.command .deliver) ∧
        p.converted ≠ 0) ∧
      ∀ i p, .passed p ∈ (s.afterDeliveries i).occurrences (.command .deliver) → p.converted ≠ 0 →
        p.after.document.bodyText < p.session.document.bodyText := by
  intro s
  have hsound : s.Sound := (sound_start loading).turns l
  have hcalm : s.Calm := ⟨hsound.wellFormed, hhead⟩
  refine ⟨?_, fun i p hp hconverted => bodyText_of_mem_deliver (calm_afterDeliveries hcalm i) hp hconverted⟩
  -- were observers called all the time, there would be less than no text
  have hrest : ∃ n, n ≤ s.document.bodyText + 1 ∧ (s.afterDeliveries n).deliver.1 = 0 := by
    by_contra hnever
    have hcalled : ∀ i ≤ s.document.bodyText + 1, (s.afterDeliveries i).deliver.1 ≠ 0 :=
      fun i hi hnone => hnever ⟨i, hi, hnone⟩
    have hless := bodyText_afterDeliveries hcalm (s.document.bodyText + 1) fun i hi => hcalled (i + 1) hi
    omega
  obtain ⟨m, hm, hnone⟩ := hrest
  have hfirst : ∃ n, (s.afterDeliveries n).deliver.1 = 0 := ⟨m, hnone⟩
  classical
  refine ⟨Nat.find hfirst, (Nat.find_min' hfirst hnone).trans hm, Nat.find_spec hfirst,
    fun i hi => Nat.find_min hfirst hi, fun i hi => ?_⟩
  obtain ⟨occurrence, hmem, hconverts⟩ := List.countP_pos_iff.1 <|
    converts_of_deliver_ne_zero (calm_afterDeliveries hcalm i) (Nat.find_min hfirst hi)
  cases occurrence with
  | told index nodes => cases hconverts
  | passed p => exact ⟨p, hmem, Occurrence.converts_passed.1 hconverts⟩

/-- Two engines with other tokens each watch a body into which a marker for the one is put that has a marker
for the other in it. -/
def nestedTurns : List Turn :=
  [.command (.build .standard {} []), .command (.build angledSettings {} []), .command (.watch 0),
    .command (.watch 1),
    .command (.appendText Document.body "<<(MATHSTARTINLINE\\(x\\)MATHENDINLINE)>>".toList)]

/-- Both engines are to be told of the text, and they come to rest. -/
theorem nestedTurns_come_to_rest :
    let s := (start false).turns nestedTurns
    s.document.forest.isWithin Document.head Document.body = false ∧ s.deliver.1 = 2 ∧
      ∃ n, n ≤ 40 ∧ (s.afterDeliveries n).deliver.1 = 0 := by
  obtain ⟨⟨n, hn, hnone, -⟩, -⟩ := deliveries_come_to_rest false nestedTurns (by decide)
  exact ⟨by decide, by decide, n, hn, hnone⟩

end Session

end MarkedMath
