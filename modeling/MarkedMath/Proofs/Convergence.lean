import Mathlib.Logic.Function.Iterate
import MarkedMath.Layout
import MarkedMath.Proofs.StartTokens

/-!
# Passes over a text come to rest

A pass over a text turns markers into elements. An element holds the payload of its marker and no start token of
its own, so a pass takes away one start token for each equation (`Grammar.tokenCount_transform`). Passes that are
each fed with the outcome of the one before therefore convert no more markers of a kind than the first text has
start tokens of the kind, and once a pass converts none every later one leaves the text as it is
(`Grammar.passes_converge`).
-/

namespace MarkedMath

variable {g : Grammar} {l : Layout}

/-! ## Elements hide no start token -/

/-- The tag that opens the element of an equation. -/
def Layout.openingTag (l : Layout) (e : Equation) : Text :=
  ("<" ++ e.kind.tag).toList ++ (l.attributes e).flatMap Layout.writtenAttribute ++ ['>']

/-- The tag that closes the element of an equation. -/
def Layout.closingTag (e : Equation) : Text :=
  ("</" ++ e.kind.tag ++ ">").toList

lemma Layout.toHtml_eq_append (l : Layout) (e : Equation) :
    l.toHtml e = l.openingTag e ++ (e.content ++ Layout.closingTag e) := by
  simp [toHtml, openingTag, closingTag]

/-- An element begins and ends with an angle bracket, and so does its closing tag. -/
lemma Layout.closingTag_eq (e : Equation) :
    Layout.closingTag e = ['<'] ++ ('/' :: e.kind.tag.toList ++ ['>']) := by
  simp [closingTag]

lemma Layout.exists_toHtml_eq (l : Layout) (e : Equation) :
    (∃ u, l.toHtml e = ['<'] ++ u) ∧ ∃ u, l.toHtml e = u ++ ['>'] := by
  rw [toHtml_eq_append, closingTag_eq]
  constructor
  · exact ⟨_, by simp [openingTag]; rfl⟩
  · exact ⟨l.openingTag e ++ (e.content ++ ('<' :: '/' :: e.kind.tag.toList)), by simp⟩

/-- A word that cannot be mistaken for a part of markup: it holds no angle bracket, and some character of it is in
no tag of an equation. -/
structure Layout.Foreign (l : Layout) (w : Text) : Prop where
  /-- No angle bracket that opens a tag. -/
  opening : '<' ∉ w
  /-- No angle bracket that closes one. -/
  closing : '>' ∉ w
  /-- A character that is in no tag. -/
  strange : ∃ c ∈ w, ∀ e : Equation, c ∉ l.openingTag e ∧ c ∉ Layout.closingTag e

section Tags

variable {w : Text}

/-- An element of an equation holds what its payload holds. -/
lemma Layout.Foreign.tokenCount_toHtml (h : l.Foreign w) (e : Equation) :
    Text.tokenCount w (l.toHtml e) = Text.tokenCount w e.content := by
  obtain ⟨c, hc, htags⟩ := h.strange
  have hw : w ≠ [] := List.ne_nil_of_mem hc
  have hbehind : Text.Seam w (l.openingTag e) (e.content ++ closingTag e) :=
    (Text.standApart_singleton h.closing).seam_behind _ _
  have hbefore : Text.Seam w e.content (closingTag e) := by
    rw [closingTag_eq]
    exact (Text.standApart_singleton h.opening).seam_before e.content _
  rw [toHtml_eq_append, Text.tokenCount_append hw hbehind, Text.tokenCount_append hw hbefore,
    Text.tokenCount_eq_zero hc (htags e).1, Text.tokenCount_eq_zero hc (htags e).2]
  omega

/-- Segments as markup hold what is left in the segments. -/
lemma Layout.Foreign.tokenCount_render (h : l.Foreign w) {segments : List Segment}
    (happart : Piece.Apart (segments.map Segment.piece)) :
    Text.tokenCount w (l.render segments) =
      (segments.map fun x => Text.tokenCount w x.piece.content).sum := by
  obtain ⟨c, hc, -⟩ := h.strange
  have hchain : segments.IsChain fun x y => x.piece.isMarker = true ∨ y.piece.isMarker = true :=
    (List.isChain_map Segment.piece).1 happart
  rw [render, Text.tokenCount_flatMap _ (List.ne_nil_of_mem hc) ?_ ?_ hchain]
  · congr 1
    refine List.map_congr_left fun x _ => ?_
    cases x with
    | text t => rfl
    | equation e => exact h.tokenCount_toHtml e
  · rintro (t | e) hx u v
    · simp [Segment.piece, Piece.isMarker] at hx
    · obtain ⟨x, hx⟩ := (l.exists_toHtml_eq e).1
      rw [renderSegment, hx, List.append_assoc]
      exact (Text.standApart_singleton h.opening).seam_before u _
  · rintro (t | e) hx v
    · simp [Segment.piece, Piece.isMarker] at hx
    · obtain ⟨x, hx⟩ := (l.exists_toHtml_eq e).2
      rw [renderSegment, hx]
      exact (Text.standApart_singleton h.closing).seam_behind x v

end Tags

lemma Layout.not_mem_openingTag_standard (e : Equation) :
    'S' ∉ ({} : Settings).layout.openingTag e := by
  have hid : 'S' ∉ e.id.toList := by
    intro hmem
    rw [Equation.id, String.toList_append, String.toList_append, List.mem_append, List.mem_append] at hmem
    rcases hmem with (hname | hdash) | hnumber
    · cases hk : e.kind <;> simp [hk, Kind.name] at hname
    · simp at hdash
    · exact absurd (isDigit_of_mem_toString _ hnumber) (by decide)
  cases hk : e.kind <;>
    simp [openingTag, attributes, writtenAttribute, className, Settings.layout, hk, hid, Kind.tag, Kind.name]

/-- The tags of equations with the classes that are set when nothing else is. -/
lemma Layout.foreign_standard (kind : Kind) :
    ({} : Settings).layout.Foreign (Grammar.standard.rule kind).start where
  opening := by cases kind <;> decide
  closing := by cases kind <;> decide
  strange := by
    refine ⟨'S', by cases kind <;> decide, fun e => ⟨not_mem_openingTag_standard e, ?_⟩⟩
    rw [closingTag]
    cases e.kind <;> decide

/-! ## One pass -/

namespace Grammar

/-- The start tokens of a kind that a pass leaves, and the markers of the kind that it converts. -/
lemma tokenCount_transform (hapart : g.TokensApart) (hforeign : ∀ kind, l.Foreign (g.rule kind).start)
    (kind : Kind) (s : Text) :
    Text.tokenCount (g.rule kind).start (g.transform l s).1 + (g.transform l s).2.get kind =
      Text.tokenCount (g.rule kind).start s := by
  rw [← hapart.startTokensLeft_eq kind {} s, transform, convert]
  cases hsegment : g.segment? {} s with
  | some outcome =>
    obtain ⟨segments, after⟩ := outcome
    have hnumber := (g.segment?_eq_some_iff.1 hsegment).2
    have hpieces := Segment.map_piece_of_number hnumber
    have hcounts := Segment.get_number {} (g.pieces s) kind
    rw [hnumber, Counts.get_empty, Nat.zero_add] at hcounts
    have happart : Piece.Apart (segments.map Segment.piece) := hpieces ▸ g.apart_pieces s
    simp only [startTokensLeft, markerCount, (hforeign kind).tokenCount_render happart, hcounts]
  | none => simp [startTokensLeft, markerCount, Counts.get_empty, g.countP_isOf_of_segment?_eq_none hsegment]

/-- A pass that converts no marker leaves the text as it is. -/
lemma transform_eq_self (h : (g.transform l s).2.total = 0) : g.transform l s = (s, {}) := by
  rw [transform, convert] at h ⊢
  cases hsegment : g.segment? {} s with
  | none => rfl
  | some outcome =>
    obtain ⟨segments, after⟩ := outcome
    obtain ⟨hholds, hnumber⟩ := g.segment?_eq_some_iff.1 hsegment
    have htotal := Segment.total_number {} (g.pieces s)
    have hpos := List.countP_pos_iff.2 (List.any_eq_true.1 (g.any_marker_iff.2 hholds))
    have hzero : after.total = 0 := by simpa [hsegment] using h
    have hempty : ({} : Counts).total = 0 := rfl
    rw [hnumber, hzero, hempty] at htotal
    omega

/-! ## Passes one after the other -/

/-- The text that passes leave. -/
def afterPasses (g : Grammar) (l : Layout) (n : Nat) (s : Text) : Text :=
  (fun t => (g.transform l t).1)^[n] s

variable (g l) in
lemma afterPasses_succ (n : Nat) (s : Text) :
    g.afterPasses l (n + 1) s = g.afterPasses l n (g.transform l s).1 :=
  Function.iterate_succ_apply ..

variable (g l) in
lemma afterPasses_succ' (n : Nat) (s : Text) :
    g.afterPasses l (n + 1) s = (g.transform l (g.afterPasses l n s)).1 :=
  Function.iterate_succ_apply' ..

variable (g l) in
/-- Passes one after the other are passes over what the ones before leave. -/
lemma passes_eq_map (n : Nat) (s : Text) :
    g.passes l n s = (List.range n).map fun i => g.transform l (g.afterPasses l i s) := by
  induction n generalizing s with
  | zero => rfl
  | succ n ih =>
    rw [passes, ih, List.range_succ_eq_map, List.map_cons, List.map_map]
    rfl

section Passes

variable (hapart : g.TokensApart) (hforeign : ∀ kind, l.Foreign (g.rule kind).start)

include hapart hforeign

/-- The start tokens of a kind in a text are those that some passes leave and the markers of the kind that these
passes convert. -/
lemma sum_passes_add_tokenCount (kind : Kind) (n : Nat) (s : Text) :
    ((g.passes l n s).map fun outcome => outcome.2.get kind).sum +
        Text.tokenCount (g.rule kind).start (g.afterPasses l n s) =
      Text.tokenCount (g.rule kind).start s := by
  rw [passes_eq_map]
  induction n with
  | zero => simp [afterPasses]
  | succ n ih =>
    have hpass := tokenCount_transform hapart hforeign kind (g.afterPasses l n s)
    rw [List.range_succ, List.map_append, List.map_append, List.sum_append, afterPasses_succ']
    simp only [List.map_cons, List.map_nil, List.sum_cons, List.sum_nil]
    omega

/-- Passes come to rest: each of them that converts a marker uses up a start token. -/
lemma exists_afterPasses_fixed (s : Text) :
    ∃ k ≤ Text.tokenCount (g.rule .inline).start s + Text.tokenCount (g.rule .display).start s,
      ∀ n, k ≤ n → g.transform l (g.afterPasses l n s) = (g.afterPasses l n s, {}) := by
  induction hm : Text.tokenCount (g.rule .inline).start s + Text.tokenCount (g.rule .display).start s
    using Nat.strong_induction_on generalizing s with
  | h m ih =>
    by_cases hzero : (g.transform l s).2.total = 0
    · have hfixed := transform_eq_self hzero
      refine ⟨0, Nat.zero_le _, fun n _ => ?_⟩
      rw [afterPasses, Function.iterate_fixed (by rw [hfixed]), hfixed]
    · have hinline := tokenCount_transform hapart hforeign .inline s
      have hdisplay := tokenCount_transform hapart hforeign .display s
      have htotal : (g.transform l s).2.total =
        (g.transform l s).2.get .inline + (g.transform l s).2.get .display := rfl
      obtain ⟨k, hk, hrest⟩ := ih _ (by omega) (g.transform l s).1 rfl
      refine ⟨k + 1, by omega, fun n hn => ?_⟩
      obtain ⟨n, rfl⟩ := Nat.exists_eq_add_of_le' (Nat.one_le_of_lt hn)
      rw [afterPasses_succ]
      exact hrest n (by omega)

end Passes

/-- **Passes come to rest.** With the tokens and classes that are set when nothing else is, a pass leaves as many
start tokens of a kind as the text has less the markers of the kind that it converts. So passes that are each fed
with the outcome of the one before convert no more markers of a kind than the first text has start tokens of the
kind, and after as many passes as it has start tokens, if not before, each one returns its text as it is and
converts nothing. -/
theorem passes_converge (s : Text) :
    let layout := ({} : Settings).layout
    let tokens := fun kind t => Text.tokenCount (standard.rule kind).start t
    (∀ kind, tokens kind (standard.transform layout s).1 + (standard.transform layout s).2.get kind =
        tokens kind s) ∧
      (∀ kind n, ((standard.passes layout n s).map fun outcome => outcome.2.get kind).sum ≤ tokens kind s) ∧
      ∃ k ≤ tokens .inline s + tokens .display s, ∀ n, k ≤ n →
        standard.transform layout (standard.afterPasses layout n s) = (standard.afterPasses layout n s, {}) := by
  intro layout tokens
  refine ⟨fun kind => ?_, fun kind n => ?_, ?_⟩
  · exact tokenCount_transform tokensApart_standard Layout.foreign_standard kind s
  · exact Nat.le.intro (sum_passes_add_tokenCount tokensApart_standard Layout.foreign_standard kind n s)
  · exact exists_afterPasses_fixed tokensApart_standard Layout.foreign_standard s

end Grammar

end MarkedMath
