import MarkedMath.Layout
import MarkedMath.Proofs.Pieces

/-!
# Texts taken in line by line

Texts that are taken in one after the other come to the same as one text in which they are joined with line
feeds: the same equations under the same numbers, the same counts, and markup that is joined in the same way.

The cut at inline markers goes over all lines before the cut at display markers begins, and pieces of text run
across lines. What carries over from one line to the next is seen in one equation: a search in
`s ++ '\n' :: t` finds what it finds in `s`, or else what it finds in `t` (`Rule.find?_append_line`). Pieces
of text are compared character by character (`Grammar.spelled`), so that it does not matter where one ends.
-/

namespace MarkedMath

/-! ## The search for a marker stays in its line -/

lemma Text.afterToken?_append_line {token : Text} (h : '\n' ∉ token) (s t : Text) :
    afterToken? token (s ++ '\n' :: t) = (afterToken? token s).map (· ++ '\n' :: t) := by
  induction token generalizing s with
  | nil => rfl
  | cons a token ih =>
    have ha : '\n' ≠ a := List.ne_of_not_mem_cons h
    have htoken : '\n' ∉ token := List.not_mem_of_not_mem_cons h
    cases s with
    | nil => simp [afterToken?, Ne.symm ha]
    | cons c s => by_cases hc : a = c <;> simp [afterToken?, hc, ih htoken]

/-- The marker in a text that goes on behind it. -/
def Found.follow (f : Found) (u : Text) : Found :=
  { f with after := f.after ++ u }

/-- The marker in a text that begins before it. -/
def Found.precede (f : Found) (u : Text) : Found :=
  { f with before := u ++ f.before }

namespace Rule

variable {r : Rule}

/-- Neither token holds a line feed. -/
structure SingleLine (r : Rule) : Prop where
  /-- The start token. -/
  start : '\n' ∉ r.start
  /-- The end token. -/
  stop : '\n' ∉ r.stop

lemma close?_append_line (hr : r.SingleLine) (s t : Text) :
    r.close? (s ++ '\n' :: t) = (r.close? s).map fun (payload, rest) => (payload, rest ++ '\n' :: t) := by
  induction s with
  | nil =>
    have hclosing : '\n' ≠ r.kind.closing := by cases r.kind <;> decide
    simp [close?, hclosing]
  | cons c s ih =>
    rw [List.cons_append, close?, close?, ih, Text.afterToken?_append_line hr.stop]
    by_cases hc : c = r.kind.closing
    · rw [if_pos hc, if_pos hc]
      cases Text.afterToken? r.stop s with
      | some rest => rfl
      | none => by_cases hline : c = '\n' <;> simp [hline, Function.comp_def]
    · rw [if_neg hc, if_neg hc]
      by_cases hline : c = '\n' <;> simp [hline, Function.comp_def]

lemma body?_append_line (hr : r.SingleLine) (s t : Text) :
    r.body? (s ++ '\n' :: t) = (r.body? s).map fun (payload, rest) => (payload, rest ++ '\n' :: t) := by
  have hopening : '\n' ≠ r.kind.opening := by cases r.kind <;> decide
  cases s with
  | nil => simp [body?, hopening]
  | cons c s =>
    by_cases hc : c = r.kind.opening
    · simp [body?, hc, close?_append_line hr, Function.comp_def]
    · by_cases hescape : c = '\\'
      · subst hescape
        cases s with
        | nil => simp [body?, hc, hopening]
        | cons d s =>
          by_cases hd : d = r.kind.opening <;> simp [body?, hc, hd, close?_append_line hr, Function.comp_def]
      · simp [body?, hc, hescape]

/-- A marker is read up to the end of its line, whatever lines follow. -/
lemma payload?_append_line (hr : r.SingleLine) (s t : Text) :
    r.payload? (s ++ '\n' :: t) = (r.payload? s).map fun (payload, rest) => (payload, rest ++ '\n' :: t) := by
  rw [payload?, payload?, Text.afterToken?_append_line hr.start]
  cases Text.afterToken? r.start s with
  | none => rfl
  | some rest => exact body?_append_line hr rest t

lemma leftmost?_append_line (hr : r.SingleLine) (s t : Text) :
    r.leftmost? (s ++ '\n' :: t) = ((r.leftmost? s).map (Found.follow · ('\n' :: t))).or
      ((r.leftmost? t).map (Found.precede · (s ++ ['\n']))) := by
  induction s with
  | nil =>
    have hread : r.payload? ('\n' :: t) = none := by simpa using payload?_append_line hr [] t
    have hnext : r.leftmost? ('\n' :: t) = (r.leftmost? t).map (Found.precede · ['\n']) := by
      rw [leftmost?, hread]
      rfl
    exact hnext
  | cons c s ih =>
    have hread := payload?_append_line hr (c :: s) t
    rw [List.cons_append] at hread ⊢
    rw [leftmost?, leftmost?, hread, ih]
    cases r.payload? (c :: s) with
    | some found => rfl
    | none =>
      simp only [Option.map_none, Option.map_or, Option.map_map]
      rfl

lemma tighten_follow (hr : r.SingleLine) (outer : Found) (t : Text) :
    r.tighten (outer.follow ('\n' :: t)) = (r.tighten outer).follow ('\n' :: t) := by
  simp only [tighten]
  rw [← Option.getD_map (Found.follow · ('\n' :: t)), List.map_findSome?]
  congr 2
  funext skipped
  simp only [Found.follow, Function.comp_apply]
  rw [← List.append_assoc, payload?_append_line hr, Option.map_map, Option.map_map]
  rfl

lemma tighten_precede (outer : Found) (u : Text) :
    r.tighten (outer.precede u) = (r.tighten outer).precede u := by
  simp only [tighten]
  rw [← Option.getD_map (Found.precede · u), List.map_findSome?]
  congr 2
  funext skipped
  simp [Found.precede, Function.comp_def]

/-- **A search stays in its line.** The first marker of two texts with a line feed between them is that of the
first text or, when there is none, that of the second one. -/
lemma find?_append_line (hr : r.SingleLine) (s t : Text) :
    r.find? (s ++ '\n' :: t) = ((r.find? s).map (Found.follow · ('\n' :: t))).or
      ((r.find? t).map (Found.precede · (s ++ ['\n']))) := by
  rw [find?, leftmost?_append_line hr, Option.map_or, find?, find?]
  simp only [Option.map_map]
  congr 2
  · exact funext fun outer => tighten_follow hr outer t
  · exact funext fun outer => tighten_precede outer _

end Rule

/-! ## The pieces of joined texts -/

/-- Cuts a piece of text further. -/
def Piece.cut (φ : Text → List Piece) : Piece → List Piece
  | .text t => φ t
  | other => [other]

/-- The characters of a text one by one. -/
def Text.spell (t : Text) : List Piece :=
  t.map fun c => .text [c]

/-- The texts around a line feed are cut each by itself. -/
structure LineByLine (φ : Text → List Piece) : Prop where
  /-- There is nothing in an empty text. -/
  nil : φ [] = []
  /-- Between the pieces of two texts the line feed is left. -/
  line (s t : Text) : φ (s ++ '\n' :: t) = φ s ++ .text ['\n'] :: φ t

lemma lineByLine_spell : LineByLine Text.spell where
  nil := rfl
  line s t := by simp [Text.spell]

section Cutting

variable {φ : Text → List Piece}

lemma LineByLine.flatMap_ofText (hφ : LineByLine φ) (s : Text) :
    (Piece.ofText s).flatMap (Piece.cut φ) = φ s := by
  cases s with
  | nil => exact hφ.nil.symm
  | cons c s => simp [Piece.ofText, Piece.cut]

/-- A cut at markers within lines, followed by a cut that goes line by line, goes line by line. -/
lemma LineByLine.pieces {r : Rule} (hr : r.SingleLine) (hφ : LineByLine φ) :
    LineByLine fun s => (r.pieces s).flatMap (Piece.cut φ) where
  nil := by rw [Rule.pieces_of_none rfl, hφ.flatMap_ofText, hφ.nil]
  line s t := by
    induction s using Rule.pieces_induction (r := r) with
    | none s hnone =>
      have hfind := Rule.find?_append_line hr s t
      rw [hnone, Option.map_none, Option.none_or] at hfind
      rw [Rule.pieces_of_none hnone, hφ.flatMap_ofText]
      -- the first piece begins in `s` and goes on to the first marker of `t`
      cases ht : r.find? t with
      | none =>
        rw [ht] at hfind
        rw [Rule.pieces_of_none hfind, Rule.pieces_of_none ht, hφ.flatMap_ofText, hφ.flatMap_ofText, hφ.line]
      | some f =>
        rw [ht] at hfind
        rw [Rule.pieces_of_some hfind, Rule.pieces_of_some ht]
        simp only [List.flatMap_append, hφ.flatMap_ofText, Found.precede, List.append_assoc,
          List.nil_append, hφ.line, List.cons_append]
    | some s f hf ih =>
      have hfind := Rule.find?_append_line hr s t
      rw [hf, Option.map_some, Option.some_or] at hfind
      rw [Rule.pieces_of_some hfind, Rule.pieces_of_some hf]
      simp only [List.flatMap_append, List.flatMap_cons, Found.follow, ih, List.append_assoc]

end Cutting

namespace Grammar

variable (g : Grammar)

/-- A token that passed the check fits in a line. -/
lemma singleLine (kind : Kind) : (g.rule kind).SingleLine where
  start h := (g.ne_lineBreak_of_mem_start kind h).1 rfl
  stop h := (g.ne_lineBreak_of_mem_stop kind h).1 rfl

/-- The pieces of a text, those of text spelled out. -/
def spelled (s : Text) : List Piece :=
  (g.pieces s).flatMap (Piece.cut Text.spell)

lemma lineByLine_spelled : LineByLine g.spelled := by
  have hdisplay := lineByLine_spell.pieces (g.singleLine .display)
  convert hdisplay.pieces (g.singleLine .inline) using 1
  funext s
  rw [spelled, pieces, List.flatMap_assoc]
  congr 1
  funext p
  cases p <;> rfl

end Grammar

/-! ## Segments of joined texts -/

namespace Segment

/-- The equation of a segment. -/
def equation? : Segment → Option Equation
  | .text _ => none
  | .equation e => some e

/-- A segment of text, spelled out. -/
def spell : Segment → List Segment
  | .text t => t.map fun c => .text [c]
  | other => [other]

lemma number_append (counts : Counts) (pieces more : List Piece) :
    number counts (pieces ++ more) =
      ((number counts pieces).1 ++ (number (number counts pieces).2 more).1,
        (number (number counts pieces).2 more).2) := by
  induction pieces generalizing counts with
  | nil => rfl
  | cons p pieces ih => cases p <;> simp [number, ih]

lemma number_spell (counts : Counts) (t : Text) :
    number counts t.spell = (t.map fun c => .text [c], counts) := by
  induction t with
  | nil => rfl
  | cons c t ih =>
    rw [Text.spell] at ih
    simp [Text.spell, number, ih]

/-- Numbering does not see how text is divided. -/
lemma number_flatMap_cut (counts : Counts) (pieces : List Piece) :
    number counts (pieces.flatMap (Piece.cut Text.spell)) =
      ((number counts pieces).1.flatMap spell, (number counts pieces).2) := by
  induction pieces generalizing counts with
  | nil => rfl
  | cons p pieces ih =>
    cases p with
    | text t => simp [Piece.cut, number_append, number_spell, ih, number, spell]
    | marker kind payload => simp [Piece.cut, ih, number, spell]

lemma filterMap_equation?_spell (segments : List Segment) :
    (segments.flatMap spell).filterMap equation? = segments.filterMap equation? := by
  induction segments with
  | nil => rfl
  | cons segment segments ih =>
    cases segment with
    | text t =>
      have htext : (t.map fun c => text [c]).filterMap equation? = [] :=
        List.filterMap_eq_nil_iff.2 fun segment hsegment => by
          obtain ⟨c, -, rfl⟩ := List.mem_map.1 hsegment
          rfl
      rw [List.flatMap_cons, List.filterMap_append, ih, spell, htext]
      rfl
    | equation e => simp [spell, equation?, ih]

lemma render_spell (l : Layout) (segments : List Segment) :
    l.render (segments.flatMap spell) = l.render segments := by
  rw [Layout.render, Layout.render, List.flatMap_assoc]
  congr 1
  funext segment
  cases segment with
  | text t => simp [spell, Layout.renderSegment, List.flatMap_map]
  | equation e => simp [spell]

end Segment

/-- The equations of a text that was taken in. -/
def scannedEquations (scanned : Option (List Segment)) : List Equation :=
  (scanned.getD []).filterMap Segment.equation?

/-- A text that was taken in as markup. A text without segments stays as it is. -/
def Layout.renderScanned (l : Layout) (s : Text) : Option (List Segment) → Text
  | some segments => l.render segments
  | none => s

namespace Grammar

variable (g : Grammar)

/-- Takes texts in one after the other, each numbered on from the counts that were reached before it. -/
def scanInTurn (counts : Counts) : List Text → List (Option (List Segment)) × Counts
  | [] => ([], counts)
  | s :: rest =>
    let (scanned, counts) := g.scan counts s
    let (others, counts) := scanInTurn counts rest
    (scanned :: others, counts)

variable (counts : Counts) (s t : Text)

/-! ### What is taken in, by what is spelled out -/

lemma scan_fst : (g.scan counts s).1 =
    if (g.pieces s).any Piece.isMarker then some (Segment.number counts (g.pieces s)).1 else none := rfl

lemma counts_scan : (g.scan counts s).2 = (Segment.number counts (g.spelled s)).2 := by
  rw [spelled, Segment.number_flatMap_cut]
  rfl

lemma any_isMarker_spelled : (g.spelled s).any Piece.isMarker = (g.pieces s).any Piece.isMarker := by
  rw [spelled, List.any_flatMap]
  congr 1
  funext p
  cases p with
  | text t => simp [Piece.cut, Text.spell, Piece.isMarker]
  | marker kind payload => simp [Piece.cut]

lemma scan_eq_none_iff : (g.scan counts s).1 = none ↔ (g.spelled s).any Piece.isMarker = false := by
  rw [scan_fst, any_isMarker_spelled]
  cases (g.pieces s).any Piece.isMarker <;> simp

/-- Without a marker among the pieces all segments are text. -/
lemma exists_eq_text (h : (g.pieces s).any Piece.isMarker = false) {segment : Segment}
    (hsegment : segment ∈ (Segment.number counts (g.pieces s)).1) : ∃ t, segment = .text t := by
  cases segment with
  | text t => exact ⟨t, rfl⟩
  | equation e =>
    exact absurd rfl (List.any_eq_false.1 h _ (Segment.piece_mem_of_mem_number hsegment))

lemma scannedEquations_scan : scannedEquations (g.scan counts s).1 =
    (Segment.number counts (g.spelled s)).1.filterMap Segment.equation? := by
  rw [spelled, Segment.number_flatMap_cut, Segment.filterMap_equation?_spell, scan_fst]
  cases h : (g.pieces s).any Piece.isMarker with
  | true => rfl
  | false =>
    refine (List.filterMap_eq_nil_iff.2 fun segment hsegment => ?_).symm
    obtain ⟨t, rfl⟩ := g.exists_eq_text counts s h hsegment
    rfl

lemma renderScanned_scan (l : Layout) :
    l.renderScanned s (g.scan counts s).1 = l.render (Segment.number counts (g.spelled s)).1 := by
  rw [spelled, Segment.number_flatMap_cut, Segment.render_spell, scan_fst]
  cases h : (g.pieces s).any Piece.isMarker with
  | true => rfl
  | false =>
    have hwritten : (Segment.number counts (g.pieces s)).1.flatMap g.writtenSegment = s :=
      g.flatMap_written_number rfl
    refine hwritten.symm.trans (List.flatMap_congr fun segment hsegment => ?_)
    obtain ⟨t, rfl⟩ := g.exists_eq_text counts s h hsegment
    rfl

/-! ### One line feed, and all of them -/

/-- **Two texts around a line feed** come to the same as the one after the other. -/
lemma scan_append_line :
    let joined := g.scan counts (s ++ '\n' :: t)
    let first := g.scan counts s
    let second := g.scan first.2 t
    scannedEquations joined.1 = scannedEquations first.1 ++ scannedEquations second.1 ∧
      joined.2 = second.2 ∧
      (∀ l : Layout, l.renderScanned (s ++ '\n' :: t) joined.1 =
        l.renderScanned s first.1 ++ '\n' :: l.renderScanned t second.1) ∧
      (joined.1 = none ↔ first.1 = none ∧ second.1 = none) := by
  have hnumber : Segment.number counts (g.spelled (s ++ '\n' :: t)) =
      ((Segment.number counts (g.spelled s)).1 ++ .text ['\n'] ::
          (Segment.number (g.scan counts s).2 (g.spelled t)).1,
        (Segment.number (g.scan counts s).2 (g.spelled t)).2) := by
    rw [g.lineByLine_spelled.line, Segment.number_append, counts_scan]
    rfl
  refine ⟨?_, ?_, fun l => ?_, ?_⟩
  · rw [scannedEquations_scan, hnumber, List.filterMap_append, List.filterMap_cons_none rfl,
      scannedEquations_scan, scannedEquations_scan]
  · rw [counts_scan, hnumber, ← counts_scan]
  · simp [renderScanned_scan, hnumber, Layout.render, Layout.renderSegment]
  · simp [scan_eq_none_iff, g.lineByLine_spelled.line, Piece.isMarker]

/-- **Texts taken in one after the other come to the same as the texts joined with line feeds**, whatever the
counts that the numbering goes on from: the equations are the same, of the same kind, under the same number,
with the same content and in the same order, and so are the counts in the end. The markup of the joined text is
the markup of the texts joined with line feeds. The joined text yields no segments exactly when no text does. -/
theorem scan_intercalate (texts : List Text) :
    let joined := g.scan counts (['\n'].intercalate texts)
    let inTurn := g.scanInTurn counts texts
    inTurn.1.length = texts.length ∧
      scannedEquations joined.1 = inTurn.1.flatMap scannedEquations ∧
      joined.2 = inTurn.2 ∧
      (∀ l : Layout, l.renderScanned (['\n'].intercalate texts) joined.1 =
        ['\n'].intercalate (List.zipWith l.renderScanned texts inTurn.1)) ∧
      (joined.1 = none ↔ ∀ scanned ∈ inTurn.1, scanned = none) := by
  induction texts generalizing counts with
  | nil =>
    have hnone : g.scan counts [] = (none, counts) := by
      have hnothing : g.pieces [] = [] := by
        rw [pieces, Rule.pieces_of_none rfl]
        rfl
      simp [scan, hnothing, Segment.number]
    simp [scanInTurn, hnone, scannedEquations, Layout.renderScanned]
  | cons s rest ih =>
    cases rest with
    | nil => simp [scanInTurn]
    | cons t rest =>
      obtain ⟨hlength, hequations, hcounts, hmarkup, hnone⟩ := ih (g.scan counts s).2
      obtain ⟨hequations', hcounts', hmarkup', hnone'⟩ :=
        g.scan_append_line counts s (['\n'].intercalate (t :: rest))
      have hjoined : ['\n'].intercalate (s :: t :: rest) = s ++ '\n' :: ['\n'].intercalate (t :: rest) := by
        simp
      have hturn : g.scanInTurn counts (s :: t :: rest) =
          ((g.scan counts s).1 :: (g.scanInTurn (g.scan counts s).2 (t :: rest)).1,
            (g.scanInTurn (g.scan counts s).2 (t :: rest)).2) := rfl
      rw [hjoined, hturn]
      refine ⟨by simp [hlength], ?_, hcounts'.trans hcounts, fun l => ?_, ?_⟩
      · rw [hequations', hequations, List.flatMap_cons]
      · rw [hmarkup', hmarkup, List.zipWith_cons_cons,
          List.intercalate_cons_of_ne_nil (by simp [scanInTurn]), List.append_assoc, List.singleton_append]
      · rw [hnone', hnone, List.forall_mem_cons]

end Grammar

end MarkedMath
