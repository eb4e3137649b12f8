import Mathlib.Data.List.Chain
import MarkedMath.Proofs.Search
import MarkedMath.Proofs.Tokens
import MarkedMath.Segment

/-!
# Cutting loses nothing and leaves no marker

The pieces of a text, each written as it stood in the text, make up the text, and so do its segments. No
marker of either kind is left in a piece of text: what stands before a marker that is found holds none of
its kind, and a part of a text without markers has none. Two pieces of text never stand side by side, and
none is empty.
-/

namespace MarkedMath

namespace Rule

variable {r : Rule} {s : Text}

/-- The text before a marker that is found holds no marker. -/
lemma not_holds_before (hs : r.start ≠ []) {f : Found} (h : r.find? s = some f) :
    ¬ r.Holds f.before := by
  obtain ⟨a, b₀, q₀, hat, hfirst, k, b, q, -, hbefore, -, hplace⟩ := find?_cases hs h
  rw [holds_iff]
  rintro ⟨i, b', q', hin⟩
  rw [hbefore] at hin
  have hstop := hin.stop_le
  rw [List.length_take] at hstop
  have hlt := hin.lt
  have hstart := hin.start_le
  have hpos := List.length_pos_iff.2 hs
  have hfull : r.MarkerAt s i b' q' := by
    have := hin.append_left hs (s.drop k)
    rwa [List.take_append_drop] at this
  have ha : a ≤ i := by
    by_contra hlow
    exact hfirst i (by omega) b' q' hfull
  rcases hplace with ⟨rfl, -⟩ | ⟨j, hj, rfl, -⟩
  · -- a marker that ends before the leftmost one would begin before it
    omega
  · -- a marker that ends inside the leftmost one would have been its end
    have hhigh := (at_of_mem_inner hs hj).2
    have hle := hat.toMarkerAt.le_start
    have hne : q' ≠ b₀ := by
      rintro rfl
      have := hat.opening
      rw [hfull.getElem?_closing, Option.some.injEq] at this
      exact opening_ne_closing _ this.symm
    have := hat.shortest q' (by omega) hfull.closing
    omega

lemma pieces_of_none (h : r.find? s = none) : r.pieces s = Piece.ofText s := by
  rw [pieces]
  split
  · rfl
  · next f hf => simp [hf] at h

lemma pieces_of_some {f : Found} (h : r.find? s = some f) :
    r.pieces s = Piece.ofText f.before ++ .marker r.kind f.payload :: r.pieces f.after := by
  rw [pieces]
  split
  · next hf => simp [hf] at h
  · next g hg =>
    obtain rfl : g = f := Option.some.inj (hg.symm.trans h)
    rfl

/-- Induction along the cuts of a text. -/
lemma pieces_induction {P : Text → Prop} (none : ∀ s, r.find? s = none → P s)
    (some : ∀ s f, r.find? s = some f → P f.after → P s) (s : Text) : P s := by
  induction hn : s.length using Nat.strong_induction_on generalizing s with
  | h n ih =>
    cases h : r.find? s with
    | none => exact none s h
    | some f => exact some s f h (ih _ (hn ▸ length_after_lt h) _ rfl)

end Rule

namespace Piece

@[simp] lemma mem_ofText {p : Piece} {s : Text} : p ∈ ofText s ↔ p = .text s ∧ s ≠ [] := by
  unfold ofText
  cases s <;> simp

end Piece

/-- What is between the tokens of a marker, and a piece of text itself. -/
def Piece.content : Piece → Text
  | text t => t
  | marker _ payload => payload

namespace Rule

variable {r : Rule} {s : Text}

lemma content_ne_nil_of_mem_pieces {p : Piece} (h : p ∈ r.pieces s) : p.content ≠ [] := by
  induction s using pieces_induction (r := r) with
  | none s hnone =>
    rw [pieces_of_none hnone, Piece.mem_ofText] at h
    obtain ⟨rfl, hne⟩ := h
    exact hne
  | some s f hf ih =>
    simp only [pieces_of_some hf, List.mem_append, Piece.mem_ofText, List.mem_cons] at h
    rcases h with ⟨rfl, hne⟩ | rfl | h
    · exact hne
    · exact List.length_pos_iff.1 (eq_of_find? hf).2
    · exact ih h

/-- A piece of text is a part of the text, is not empty and holds no marker. -/
lemma text_of_mem_pieces (hs : r.start ≠ []) {t : Text} (h : .text t ∈ r.pieces s) :
    t <:+: s ∧ t ≠ [] ∧ ¬ r.Holds t := by
  induction s using pieces_induction (r := r) with
  | none s hnone =>
    rw [pieces_of_none hnone, Piece.mem_ofText, Piece.text.injEq] at h
    obtain ⟨rfl, hne⟩ := h
    exact ⟨List.infix_rfl, hne, find?_eq_none_iff.1 hnone⟩
  | some s f hf ih =>
    have hsplit := (eq_of_find? hf).1
    simp only [pieces_of_some hf, List.mem_append, Piece.mem_ofText, Piece.text.injEq,
      List.mem_cons, reduceCtorEq, false_or] at h
    rcases h with ⟨rfl, hne⟩ | h
    · exact ⟨⟨[], r.written f.payload ++ f.after, by simp [hsplit]⟩, hne, not_holds_before hs hf⟩
    · obtain ⟨hin, hne, hholds⟩ := ih h
      have hafter : f.after <:+: s := ⟨f.before ++ r.written f.payload, [], by simp [hsplit]⟩
      exact ⟨hin.trans hafter, hne, hholds⟩

/-- A marker among the pieces is one of the kind and well-formed. -/
lemma isMarker_of_mem_pieces {kind : Kind} {payload : Text} (h : .marker kind payload ∈ r.pieces s) :
    kind = r.kind ∧ r.IsMarker (r.written payload) := by
  induction s using pieces_induction (r := r) with
  | none s hnone => simp [pieces_of_none hnone] at h
  | some s f hf ih =>
    simp only [pieces_of_some hf, List.mem_append, Piece.mem_ofText, List.mem_cons, reduceCtorEq, false_and,
      false_or, Piece.marker.injEq] at h
    rcases h with ⟨rfl, rfl⟩ | h
    · exact ⟨rfl, isMarker_of_find? hf⟩
    · exact ih h

/-- There is a marker among the pieces exactly when the text holds one. -/
lemma exists_marker_iff : (∃ p ∈ r.pieces s, p.isMarker = true) ↔ r.Holds s := by
  cases h : r.find? s with
  | none =>
    rw [pieces_of_none h]
    refine iff_of_false ?_ (find?_eq_none_iff.1 h)
    rintro ⟨p, hp, hm⟩
    obtain ⟨rfl, -⟩ := Piece.mem_ofText.1 hp
    simp [Piece.isMarker] at hm
  | some f =>
    refine iff_of_true ⟨.marker r.kind f.payload, ?_, rfl⟩ ?_
    · simp [pieces_of_some h]
    · by_contra hnone
      simp [find?_eq_none_iff.2 hnone] at h

end Rule

/-! ## Nothing is lost -/

namespace Grammar

variable (g : Grammar)

/-- A piece as it stood in the text. -/
def writtenPiece : Piece → Text
  | .text t => t
  | .marker kind payload => (g.rule kind).written payload

/-- A segment as it stood in the text: an equation is its content between the tokens of its kind. -/
def writtenSegment : Segment → Text
  | .text t => t
  | .equation e => (g.rule e.kind).written e.content

@[simp] lemma rule_kind (kind : Kind) : (g.rule kind).kind = kind := rfl

@[simp] lemma flatMap_written_ofText (s : Text) :
    (Piece.ofText s).flatMap g.writtenPiece = s := by
  cases s <;> simp [Piece.ofText, writtenPiece]

lemma flatMap_written_rule_pieces (kind : Kind) (s : Text) :
    ((g.rule kind).pieces s).flatMap g.writtenPiece = s := by
  induction s using Rule.pieces_induction (r := g.rule kind) with
  | none s hnone => rw [Rule.pieces_of_none hnone, flatMap_written_ofText]
  | some s f hf ih =>
    rw [Rule.pieces_of_some hf, List.flatMap_append, flatMap_written_ofText, List.flatMap_cons, ih]
    conv_rhs => rw [(Rule.eq_of_find? hf).1]
    simp [writtenPiece]

/-- The pieces of a text make up the text. -/
lemma flatMap_written_pieces (s : Text) : (g.pieces s).flatMap g.writtenPiece = s := by
  conv_rhs => rw [← g.flatMap_written_rule_pieces .inline s]
  rw [pieces, List.flatMap_assoc]
  congr 1
  funext p
  cases p with
  | text t => exact g.flatMap_written_rule_pieces .display t
  | marker kind payload => simp

end Grammar

namespace Segment

/-- The piece that was numbered. -/
def piece : Segment → Piece
  | .text t => .text t
  | .equation e => .marker e.kind e.content

/-- Numbering changes no piece. -/
lemma map_piece_number (counts : Counts) (pieces : List Piece) :
    (number counts pieces).1.map piece = pieces := by
  induction pieces generalizing counts with
  | nil => rfl
  | cons p pieces ih =>
    cases p with
    | text t => simp [number, piece, ih]
    | marker kind payload => simp [number, piece, ih]

lemma map_piece_of_number {counts after : Counts} {pieces : List Piece} {segments : List Segment}
    (h : number counts pieces = (segments, after)) : segments.map piece = pieces := by
  rw [← map_piece_number counts pieces, h]

lemma piece_mem_of_mem_number {counts : Counts} {pieces : List Piece} {segment : Segment}
    (h : segment ∈ (number counts pieces).1) : segment.piece ∈ pieces := by
  rw [← map_piece_number counts pieces]
  exact List.mem_map_of_mem h

/-- Pieces without a marker use up no number. -/
lemma number_of_texts (counts : Counts) {pieces : List Piece}
    (h : pieces.any Piece.isMarker = false) : (number counts pieces).2 = counts := by
  induction pieces generalizing counts with
  | nil => rfl
  | cons p pieces ih =>
    rw [List.any_cons, Bool.or_eq_false_iff] at h
    cases p with
    | text t => simp [number, ih counts h.2]
    | marker kind payload => simp [Piece.isMarker] at h

/-- Every marker among the pieces uses up one number. -/
lemma total_number (counts : Counts) (pieces : List Piece) :
    (number counts pieces).2.total = counts.total + pieces.countP Piece.isMarker := by
  induction pieces generalizing counts with
  | nil => rfl
  | cons p pieces ih =>
    cases p with
    | text t => simp [number, ih, Piece.isMarker]
    | marker kind payload =>
      rw [number, List.countP_cons_of_pos (by rfl)]
      simp only [ih]
      cases kind <;> simp [Counts.advance, Counts.total] <;> omega

end Segment

namespace Grammar

variable (g : Grammar)

lemma writtenPiece_piece (segment : Segment) :
    g.writtenPiece segment.piece = g.writtenSegment segment := by
  cases segment <;> rfl

/-- The numbered pieces of a text make up the text. -/
lemma flatMap_written_number {counts after : Counts} {t : Text} {segments : List Segment}
    (hnumber : Segment.number counts (g.pieces t) = (segments, after)) :
    segments.flatMap g.writtenSegment = t := by
  calc segments.flatMap g.writtenSegment
      = (segments.map Segment.piece).flatMap g.writtenPiece := by
        rw [List.flatMap_map]
        simp only [writtenPiece_piece]
    _ = t := by rw [Segment.map_piece_of_number hnumber, g.flatMap_written_pieces]

/-- **Cutting is lossless.** The segments of a text, each written as it stood in the text, make up the
text; a text that yields none leaves the counts as they are. -/
theorem scan_lossless (counts : Counts) (s : Text) :
    match g.scan counts s with
    | (some segments, _) => segments.flatMap g.writtenSegment = s
    | (none, after) => after = counts := by
  by_cases h : (g.pieces s).any Piece.isMarker = true
  · simp only [scan, h, if_true]
    calc (Segment.number counts (g.pieces s)).1.flatMap g.writtenSegment
        = ((Segment.number counts (g.pieces s)).1.map Segment.piece).flatMap g.writtenPiece := by
          rw [List.flatMap_map]
          simp only [writtenPiece_piece]
      _ = (g.pieces s).flatMap g.writtenPiece := by rw [Segment.map_piece_number]
      _ = s := g.flatMap_written_pieces s
  · simp only [scan, h]
    exact Segment.number_of_texts counts (by simpa using h)

/-! ## No marker is left -/

/-- A piece of text is not empty and holds no marker of either kind. -/
lemma text_of_mem_pieces {s t : Text} (h : .text t ∈ g.pieces s) :
    t ≠ [] ∧ ∀ kind, ¬ (g.rule kind).Holds t := by
  obtain ⟨p, hp, hmem⟩ := List.mem_flatMap.1 h
  cases p with
  | marker kind payload => simp at hmem
  | text t' =>
    obtain ⟨-, -, hinline⟩ := Rule.text_of_mem_pieces (g.start_ne_nil .inline) hp
    obtain ⟨hin, hne, hdisplay⟩ := Rule.text_of_mem_pieces (g.start_ne_nil .display) hmem
    refine ⟨hne, fun kind => ?_⟩
    cases kind with
    | inline => exact fun hholds => hinline (hholds.mono hin)
    | display => exact hdisplay

/-- A marker among the pieces is a well-formed one of its kind. -/
lemma isMarker_of_mem_pieces {s : Text} {kind : Kind} {payload : Text} (h : .marker kind payload ∈ g.pieces s) :
    (g.rule kind).IsMarker ((g.rule kind).written payload) := by
  obtain ⟨p, hp, hmem⟩ := List.mem_flatMap.1 h
  cases p with
  | text t =>
    obtain ⟨rfl, hmarker⟩ := Rule.isMarker_of_mem_pieces hmem
    exact hmarker
  | marker kind' payload' =>
    obtain ⟨rfl, rfl⟩ : kind = kind' ∧ payload = payload' := by simpa using hmem
    obtain ⟨rfl, hmarker⟩ := Rule.isMarker_of_mem_pieces hp
    exact hmarker

/-- There is a marker among the pieces exactly when the text holds one of either kind. -/
lemma any_marker_iff {s : Text} :
    (g.pieces s).any Piece.isMarker = true ↔ ∃ kind, (g.rule kind).Holds s := by
  rw [List.any_eq_true]
  constructor
  · rintro ⟨p, hp, hmarker⟩
    obtain ⟨p', hp', hmem⟩ := List.mem_flatMap.1 hp
    cases p' with
    | text t =>
      refine ⟨.display, Rule.Holds.mono (Rule.exists_marker_iff.1 ⟨p, hmem, hmarker⟩) ?_⟩
      exact (Rule.text_of_mem_pieces (g.start_ne_nil .inline) hp').1
    | marker kind payload => exact ⟨.inline, Rule.exists_marker_iff.1 ⟨_, hp', rfl⟩⟩
  · rintro ⟨kind, hholds⟩
    by_cases hinline : (g.rule .inline).Holds s
    · obtain ⟨p, hp, hmarker⟩ := Rule.exists_marker_iff.2 hinline
      cases p with
      | text t => simp [Piece.isMarker] at hmarker
      | marker kind payload => exact ⟨_, List.mem_flatMap.2 ⟨_, hp, List.mem_singleton.2 rfl⟩, rfl⟩
    · -- the first cut leaves the text whole, so the second one sees the marker
      cases kind with
      | inline => exact absurd hholds hinline
      | display =>
        obtain ⟨p, hp, hmarker⟩ := Rule.exists_marker_iff.2 hholds
        have hne : s ≠ [] := by
          rintro rfl
          rw [Rule.pieces_of_none rfl] at hp
          simp at hp
        refine ⟨p, List.mem_flatMap.2 ⟨.text s, ?_, hp⟩, hmarker⟩
        rw [Rule.pieces_of_none (Rule.find?_eq_none_iff.2 hinline), Piece.mem_ofText]
        exact ⟨rfl, hne⟩

/-- A text without a marker is a single piece. -/
lemma pieces_of_not_holds {s : Text} (hne : s ≠ []) (h : ∀ kind, ¬ (g.rule kind).Holds s) :
    g.pieces s = [.text s] := by
  have hwhole : Piece.ofText s = [.text s] := by
    cases s with
    | nil => exact absurd rfl hne
    | cons c s => rfl
  rw [pieces, Rule.pieces_of_none (Rule.find?_eq_none_iff.2 (h .inline)), hwhole]
  simp [Rule.pieces_of_none (Rule.find?_eq_none_iff.2 (h .display)), hwhole]

/-- No piece is empty. -/
lemma content_ne_nil_of_mem_pieces {s : Text} {p : Piece} (h : p ∈ g.pieces s) : p.content ≠ [] := by
  obtain ⟨q, hq, hmem⟩ := List.mem_flatMap.1 h
  cases q with
  | marker kind payload =>
    obtain rfl := by simpa using hmem
    exact Rule.content_ne_nil_of_mem_pieces hq
  | text t => exact Rule.content_ne_nil_of_mem_pieces hmem

lemma segment?_eq_none_iff {counts : Counts} {s : Text} :
    g.segment? counts s = none ↔ ∀ kind, ¬ (g.rule kind).Holds s := by
  rw [← not_exists, ← g.any_marker_iff]
  by_cases h : (g.pieces s).any Piece.isMarker = true <;> simp [segment?, scan, h]

/-- A text that holds a marker is cut into its numbered pieces. -/
lemma segment?_eq_some_iff {counts after : Counts} {s : Text} {segments : List Segment} :
    g.segment? counts s = some (segments, after) ↔
      (∃ kind, (g.rule kind).Holds s) ∧ Segment.number counts (g.pieces s) = (segments, after) := by
  rw [← g.any_marker_iff]
  by_cases h : (g.pieces s).any Piece.isMarker = true
  · simp [segment?, scan, h, Prod.ext_iff]
  · simp [segment?, scan, h]

/-- **Cutting finds every marker.** A text that yields no segments holds no marker of either kind. A text that
yields segments holds one; then no segment of text holds one of either kind, and every equation, written as it
stood in the text, is a well-formed marker of its kind. -/
theorem scan_leaves_no_marker (counts : Counts) (s : Text) :
    match g.scan counts s with
    | (none, _) => ∀ kind, ¬ (g.rule kind).Holds s
    | (some segments, _) => (∃ kind, (g.rule kind).Holds s) ∧ ∀ segment ∈ segments,
        match segment with
        | .text t => ∀ kind, ¬ (g.rule kind).Holds t
        | .equation e => (g.rule e.kind).IsMarker (g.writtenSegment (.equation e)) := by
  by_cases h : (g.pieces s).any Piece.isMarker = true
  · simp only [scan, h, if_true]
    refine ⟨g.any_marker_iff.1 h, fun segment hsegment => ?_⟩
    have hpiece : segment.piece ∈ g.pieces s := Segment.piece_mem_of_mem_number hsegment
    cases segment with
    | text t => exact (g.text_of_mem_pieces hpiece).2
    | equation e => exact g.isMarker_of_mem_pieces hpiece
  · simp only [scan, h]
    exact not_exists.1 fun hholds => h (g.any_marker_iff.2 hholds)

end Grammar

/-! ## Pieces of text stand apart -/

namespace Piece

/-- Of two pieces side by side one is a marker. -/
def Apart (pieces : List Piece) : Prop :=
  pieces.IsChain fun p q => p.isMarker = true ∨ q.isMarker = true

lemma apart_ofText (s : Text) : Apart (ofText s) := by
  cases s <;> simp [Apart, ofText]

/-- Cutting pieces of text further keeps pieces of text apart. -/
lemma Apart.flatMap {f : Piece → List Piece} (hf : ∀ p, Apart (f p))
    (hmarker : ∀ p, p.isMarker = true → f p = [p]) {pieces : List Piece} (h : Apart pieces) :
    Apart (pieces.flatMap f) := by
  induction pieces with
  | nil => exact List.IsChain.nil
  | cons p pieces ih =>
    rw [List.flatMap_cons]
    refine List.isChain_append.2 ⟨hf p, ih h.of_cons, fun x hx y hy => ?_⟩
    by_cases hp : p.isMarker = true
    · rw [hmarker p hp] at hx
      obtain rfl : p = x := by simpa using hx
      exact Or.inl hp
    · -- what follows a piece of text is a marker, and stays as it is
      cases pieces with
      | nil => simp at hy
      | cons q pieces =>
        have hq : q.isMarker = true := h.rel.resolve_left hp
        rw [List.flatMap_cons, hmarker q hq] at hy
        obtain rfl : q = y := by simpa using hy
        exact Or.inr hq

end Piece

lemma Rule.apart_pieces (r : Rule) (s : Text) : Piece.Apart (r.pieces s) := by
  induction s using Rule.pieces_induction (r := r) with
  | none s hnone =>
    rw [Rule.pieces_of_none hnone]
    exact Piece.apart_ofText s
  | some s f hf ih =>
    rw [Rule.pieces_of_some hf]
    have htail : Piece.Apart (.marker r.kind f.payload :: r.pieces f.after) := by
      cases hrest : r.pieces f.after with
      | nil => exact List.IsChain.singleton _
      | cons p rest => exact List.isChain_cons_cons.2 ⟨Or.inl rfl, hrest ▸ ih⟩
    refine List.isChain_append.2 ⟨Piece.apart_ofText _, htail, fun x _ y hy => ?_⟩
    obtain rfl : .marker r.kind f.payload = y := by simpa using hy
    exact Or.inr rfl

lemma Grammar.apart_pieces (g : Grammar) (s : Text) : Piece.Apart (g.pieces s) := by
  refine Piece.Apart.flatMap (fun p => ?_) (fun p hp => ?_) ((g.rule .inline).apart_pieces s)
  · cases p with
    | text t => exact (g.rule .display).apart_pieces t
    | marker kind payload => exact List.IsChain.singleton _
  · cases p with
    | text t => simp [Piece.isMarker] at hp
    | marker kind payload => rfl

end MarkedMath
