import MarkedMath.Proofs.Html.Reconversion

/-!
# Converting twice

A converted document is not always left alone by a second conversion. Equations stand in it as texts, so a payload
that holds a marker is converted in its turn; and style rules that were asked for, but have no place in front of a
tag that closes the head, are asked for again. In an orderly document nothing else happens
(`fixedPoint_iff`).

The condition is exact among orderly documents only (`Token.Orderly`): no text of a drawing or formula holds a
marker, no end tag has to be weighed, and no start tag of a special element ends in an equals sign. Outside them
neither direction is claimed. There an equation may end the drawing or formula in which it is put, and a second
reading may take tags in another way than the first; it is left open which of these documents are fixed points.
-/

namespace MarkedMath.Html

/-- A second conversion succeeds, converts nothing, asks for no style rules and leaves the document as it is. -/
def Converted.IsFixedPoint (s : CheckedSettings) (out : Converted) : Prop :=
  ∃ again, process s out.html = .ok again ∧ again.counts = {} ∧ again.styles ≠ .inserted ∧ again.html = out.html

section FixedPoint

variable {s : CheckedSettings} {html : Text} {out : Converted} {tokens : List Token}

lemma ofTokens_fixed_iff {html : Text} (hread : read .conversion html = .ok tokens)
    (hstyles : (Converted.ofTokens s tokens).styles ≠ .inserted) :
    ((Converted.ofTokens s tokens).counts = {} ↔
        ∀ t ∈ dataTexts tokens, ∀ kind, ¬ (s.grammar.rule kind).Holds t) ∧
      ((Converted.ofTokens s tokens).counts = {} → (Converted.ofTokens s tokens).html = html) := by
  have hwritten : ((Converted.ofTokens s tokens).html, (Converted.ofTokens s tokens).counts) =
      (s.layout.render (segments s.grammar {} tokens).1, (segments s.grammar {} tokens).2) := by
    rw [← writeConverted_plain {}]
    show writeConverted _ _ (if (Converted.ofTokens s tokens).styles = .inserted then _ else none) _ _ _ = _
    rw [if_neg hstyles]
  obtain ⟨hhtml, hcounts⟩ := Prod.mk.inj hwritten
  rw [hcounts, hhtml]
  refine ⟨counts_segments_iff, fun hzero => ?_⟩
  rw [segments_of_not_holds (counts_segments_iff.1 hzero), ← flatMap_raw_of_read hread, Layout.render, List.flatMap_map]
  rfl

/-- **A converted document is a fixed point** exactly when no payload holds a marker and the style rules have a place
if they are asked for. With the standard tokens this holds of all orderly documents; of others nothing is said. -/
theorem fixedPoint_iff (s : CheckedSettings) (hdefault : s.tokens = {}) (html : Text) (out : Converted)
    (h : process s html = .ok out) (tokens : List Token) (htokens : read .conversion html = .ok tokens)
    (hg : Orderly s.grammar {} tokens) :
    out.IsFixedPoint s ↔ (∀ t ∈ dataTexts tokens, s.grammar.NestsNothing t) ∧ out.Placed tokens := by
  have hread := read_converted h htokens hg (r := .conversion) (by decide)
  have hprocess := process_converted h htokens hg
  have hnone : ∀ {added}, addedTokens s.sheet (out.place? tokens) = .ok added →
      ((∀ t ∈ dataTexts (rewritten s.grammar s.layout added {} {} tokens), ∀ kind, ¬ (s.grammar.rule kind).Holds t) ↔
        ∀ t ∈ dataTexts tokens, s.grammar.NestsNothing t) := fun hadded =>
    not_holds_rewritten_iff (not_holds_addedTokens (not_holds_css s hdefault) hadded)
  constructor
  · rintro ⟨again, hagain, hzero, hstyles, -⟩
    have hplaced := (styles_process_converted h htokens hg hagain).2.1 hstyles
    rw [hprocess] at hagain
    obtain ⟨added, hadded, rfl⟩ := exists_of_map_eq_ok hagain
    rw [hadded] at hread
    exact ⟨(hnone hadded).1 ((ofTokens_fixed_iff hread hstyles).1.1 hzero), hplaced⟩
  · rintro ⟨hnests, hplaced⟩
    obtain ⟨added, hadded⟩ := exists_added_of_placed hplaced s.sheet
    rw [hadded] at hread hprocess
    have hstyles := (styles_process_converted h htokens hg hprocess).2.2 hplaced
    have hzero := (ofTokens_fixed_iff hread hstyles).1.2 ((hnone hadded).2 hnests)
    exact ⟨_, hprocess, hzero, hstyles, (ofTokens_fixed_iff hread hstyles).2 hzero⟩

/-- The page with a head and a marker is converted to a fixed point. -/
theorem fixedPoint_headedPage :
    ∃ out, process .standard headedPage = .ok out ∧ out.counts = ⟨1, 0⟩ ∧ out.styles = .inserted ∧
      out.IsFixedPoint .standard := by
  have hout : ((process .standard headedPage).toOption.any fun out =>
      decide (out.counts = ⟨1, 0⟩) && decide (out.styles = .inserted)) = true := by decide +kernel
  have htokens : ((read .conversion headedPage).toOption.any fun tokens =>
      decide (Orderly CheckedSettings.standard.grammar {} tokens) &&
        decide (dataTexts tokens = [Session.singleMarker]) &&
          (({} : HeadSearch).place? {} tokens).any fun c => decide (c.doubt = .none)) = true := by decide +kernel
  cases hprocess : process .standard headedPage with
  | error _ => simp [hprocess, Except.toOption] at hout
  | ok out =>
    obtain ⟨tokens, tags, hread, -⟩ := exists_of_process hprocess
    simp only [hprocess, Except.toOption, Option.any_some, Bool.and_eq_true, decide_eq_true_eq] at hout
    simp only [hread, Except.toOption, Option.any_some, Bool.and_eq_true, decide_eq_true_eq] at htokens
    obtain ⟨⟨hg, htexts⟩, hplace⟩ := htokens
    obtain ⟨c, hc, hdoubt⟩ := (Option.any_eq_true _ _).1 hplace
    refine ⟨out, rfl, hout.1, hout.2, (fixedPoint_iff .standard rfl headedPage out hprocess tokens hread hg).2
      ⟨fun t ht => ?_, fun _ => ⟨c, hc, of_decide_eq_true hdoubt⟩⟩⟩
    rw [htexts, List.mem_singleton] at ht
    exact ht ▸ Session.nestsNothing_singleMarker

/-- A paragraph that holds an inline marker with a display marker in its payload. -/
def nestedPage : Text :=
  "<p>MATHSTARTINLINE\\(MATHSTARTDISPLAY\\[x\\]MATHENDDISPLAY\\)MATHENDINLINE</p>".toList

/-- The second conversion converts the display marker. -/
theorem not_fixedPoint_nestedPage :
    ∃ out, process .standard nestedPage = .ok out ∧ ¬ out.IsFixedPoint .standard := by
  have hout : ((process .standard nestedPage).toOption.any fun out =>
      (process .standard out.html).toOption.any fun again => decide (again.counts = ⟨0, 1⟩)) = true := by decide +kernel
  cases hprocess : process .standard nestedPage with
  | error _ => simp [hprocess, Except.toOption] at hout
  | ok out =>
    simp only [hprocess, Except.toOption, Option.any_some] at hout
    refine ⟨out, rfl, ?_⟩
    rintro ⟨again, hagain, hzero, -⟩
    rw [hagain] at hout
    simp [hzero] at hout

end FixedPoint

end MarkedMath.Html
