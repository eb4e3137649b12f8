import MarkedMath.Proofs.Html.Copies
import MarkedMath.Proofs.Html.Reconversion

/-!
# What is reported of the style rules

Whether style rules are inserted is reported before a place for them is found. The report is true when the head is
closed by a tag in front of which a style element is not ignored: then the document holds one more copy of the
block, and it is found there. Where no tag closes the head nothing is inserted; where a style element may be ignored
the converted document cannot be read again (`reportsStyles_iff`).

The condition is exact among orderly documents only (`Token.Orderly`): no text of a drawing or formula holds a
marker, no end tag has to be weighed, and no start tag of a special element ends in an equals sign. Outside them
neither direction is claimed. An equation that is put into a drawing may end it, and what stands behind is then read
elsewhere; a weighed tag and one that ends in an equals sign may be read by the survey in another way than by the
conversion. What is reported then depends on how the tokens of the converted document are read, which is left open
here, as it is for a head that the end tag of a style element closes and for rules that hold a marker.
-/

namespace MarkedMath.Html

/-- What is reported of the style rules is what happened. -/
structure Converted.ReportsStyles (s : CheckedSettings) (html : Text) (tokens : List Token) (out : Converted) :
    Prop where
  /-- Rules that are reported as inserted stand there once more than before, in an element with their identifier,
  where a second conversion finds them. -/
  inserted : out.styles = .inserted →
    Text.copies s.sheet.toHtml.toList out.html = Text.copies s.sheet.toHtml.toList html + 1 ∧
      (∃ tags, survey out.html = .ok tags ∧ ∃ tag ∈ tags, tag.Carries s.sheet) ∧
      ∃ again, process s out.html = .ok again ∧ again.styles = .alreadyPresent
  /-- Otherwise nothing but the equations is written, and no copy of the rules is added. -/
  kept : out.styles ≠ .inserted →
    out.html = s.layout.render (segments s.grammar {} tokens).1 ∧
      Text.copies s.sheet.toHtml.toList out.html = Text.copies s.sheet.toHtml.toList html

/-- The element whose end tag closes the first head. -/
def closingElement? (tokens : List Token) : Option String :=
  match ({} : HeadSearch).split? tokens with
  | some (_, .stop tag _ _ :: _) => some tag.element
  | _ => none

section Reports

variable {s : CheckedSettings} {html : Text} {out : Converted} {tokens before after : List Token} {r : Reading}
  {p : Place} {t : Text} {search : HeadSearch}

/-- What is written for an end tag and behind it begins as the end tag of a style element only if it is one. -/
lemma stop_written (hr : r ≠ .toggle) (hp : p.Tidy) (hmode : p.mode = .data) {tag : Tag} {raw : Text} {weighed : Bool}
    (h : p.tokens r t = .ok (.stop tag raw weighed :: tokens))
    (hg : Orderly s.grammar p.context (.stop tag raw weighed :: tokens)) (counts : Counts) :
    let written := s.layout.render (segments s.grammar counts (.stop tag raw weighed :: tokens)).1
    beginsMarkup written = true ∧ ("</style>".toList <+: written → tag.element = "style") := by
  intro written
  obtain ⟨ht, q, rest, hreads, -⟩ := (Place.tokens_eq_cons_iff hr).1 h
  obtain ⟨hcarries, hagain⟩ := tokens_rewritten s hr false counts hp (fun hdata => absurd hmode hdata)
    HeadSearch.single_start h hg
  simp only [Bool.false_eq_true, if_false, writeConverted_plain] at hcarries hagain
  constructor
  · cases hreads with
    | markup htake hcdata hread hpass =>
      exact hcarries.markup hmode ((Place.exists_of_takeText_nil ht hcdata htake).2.1 hmode)
  · rintro ⟨u, hu⟩
    have hchars : written.drop 1 = '/' :: ("style".toList ++ '>' :: u) := by
      rw [← hu]
      rfl
    obtain ⟨-, q', rest', hreads', -⟩ := (Place.tokens_eq_cons_iff hr).1 hagain
    have htag : IsElementName "style" := by decide
    have hread := hreads'.readMarkup_stop hp
    rw [show List.drop 1 _ = _ from hchars, readMarkup_endTag htag] at hread
    rw [← Markup.stop.inj (Prod.mk.inj hread).1]
    exact Tag.element_ofWritten htag []

/-- What is written from the tag on that closes the head. -/
lemma written_behind_split (hr : r ≠ .toggle) (hp : p.Tidy) (hfits : p.Fits search) (h : p.tokens r t = .ok tokens)
    (hg : Orderly s.grammar p.context tokens) (hsplit : search.split? tokens = some (before, after)) (counts : Counts) :
    let written := s.layout.render (segments s.grammar counts after).1
    beginsMarkup written = true ∧ ("</style>".toList <+: written →
      ∃ tag raw weighed rest, after = .stop tag raw weighed :: rest ∧ tag.element = "style") := by
  induction tokens generalizing p t search before with
  | nil => cases hsplit
  | cons token tokens ih =>
    obtain ⟨ht, q, rest, hreads, hlater⟩ := (Place.tokens_eq_cons_iff hr).1 h
    obtain ⟨hq, hcontext⟩ := hreads.tidy hp hg.1
    obtain ⟨hfits', hdata⟩ := hreads.fits hp hfits ht hg.1
    rw [HeadSearch.split?] at hsplit
    split at hsplit
    · next hcloses =>
      obtain ⟨rfl, rfl⟩ := Prod.mk.inj (Option.some_inj.1 hsplit)
      cases token with
      | stop tag raw weighed =>
        obtain ⟨hbegins, hstyle⟩ := stop_written hr hp (hdata hcloses) h hg counts
        exact ⟨hbegins, fun hstart => ⟨tag, raw, weighed, tokens, rfl, hstyle hstart⟩⟩
      | _ => cases hcloses
    · obtain ⟨x, hlater', heq⟩ := Option.map_eq_some_iff.1 hsplit
      obtain ⟨rfl, rfl⟩ := Prod.mk.inj heq
      exact ih hq hfits' hlater (hcontext ▸ hg.2) hlater'

/-- Rules that are reported as present are in an element that a survey notices. -/
lemma exists_carries_of_process (h : process s html = .ok out) (hpresent : out.styles = .alreadyPresent) :
    ∃ tags, survey html = .ok tags ∧ ∃ tag ∈ tags, tag.Carries s.sheet := by
  obtain ⟨tokens, tags, htokens, htags⟩ := exists_of_process h
  have hinjection := (process_eq htokens htags h).1.symm.trans hpresent
  refine ⟨tags, htags, ?_⟩
  rcases injection_cases s.sheet tags tokens with ⟨-, hcarries⟩ | ⟨hinserted, -⟩ | hnone
  · exact hcarries
  · rw [hinjection] at hinserted
    cases hinserted
  · rw [hinjection] at hnone
    cases hnone

variable (hcss : ∀ kind, ¬ (s.grammar.rule kind).Holds s.sheet.css.toList)
include hcss

/-- The conversion without rules keeps the number of copies. -/
lemma copies_plain (htokens : read .conversion html = .ok tokens) (hg : Orderly s.grammar {} tokens) :
    Text.copies s.sheet.toHtml.toList (s.layout.render (segments s.grammar {} tokens).1) =
      Text.copies s.sheet.toHtml.toList html :=
  (copies_converted (u := []) s hcss (r := .conversion) (by decide) Place.tidy_start
    (fun _ => Or.inr (Or.inl rfl)) htokens hg {}).symm

/-- Where the rules have a place, one more copy is written. -/
lemma copies_placed (h : process s html = .ok out) (htokens : read .conversion html = .ok tokens)
    (hg : Orderly s.grammar {} tokens) (hclosing : closingElement? tokens ≠ some "style")
    (hinserted : out.styles = .inserted) (hplaced : out.Placed tokens) :
    Text.copies s.sheet.toHtml.toList out.html = Text.copies s.sheet.toHtml.toList html + 1 := by
  obtain ⟨c, hplace, -⟩ := hplaced hinserted
  obtain ⟨⟨before, after⟩, hsplit, -⟩ := Option.map_eq_some_iff.1 hplace
  obtain ⟨hbegins, hstyle⟩ := written_behind_split (r := .conversion) (by decide) Place.tidy_start
    (fun hdata => absurd rfl hdata) htokens hg hsplit (segments s.grammar {} before).2
  have hend : ¬ "</style>".toList <+:
      s.layout.render (segments s.grammar (segments s.grammar {} before).2 after).1 := by
    intro hstart
    obtain ⟨tag, raw, weighed, rest, rfl, htag⟩ := hstyle hstart
    exact hclosing (by simp [closingElement?, hsplit, htag])
  have hwhole : s.layout.render (segments s.grammar {} before).1 ++
      s.layout.render (segments s.grammar (segments s.grammar {} before).2 after).1 =
        s.layout.render (segments s.grammar {} tokens).1 := by
    rw [← HeadSearch.append_of_split? hsplit, segments_append]
    exact List.flatMap_append.symm
  rw [html_of_inserted h htokens hinserted hsplit, copies_inserted s hbegins hend, hwhole, copies_plain hcss htokens hg]

end Reports

/-- **What is reported of the style rules is what happened** exactly when the rules have a place if they are asked
for: the head is closed by a tag, in front of which no style element is ignored. This holds of all orderly documents
in which the head is not closed by the end tag of a style element, as long as no marker is in the rules; of others
nothing is said. -/
theorem reportsStyles_iff (s : CheckedSettings) (hcss : ∀ kind, ¬ (s.grammar.rule kind).Holds s.sheet.css.toList)
    (html : Text) (out : Converted) (h : process s html = .ok out) (tokens : List Token)
    (htokens : read .conversion html = .ok tokens) (hg : Orderly s.grammar {} tokens)
    (hclosing : closingElement? tokens ≠ some "style") :
    out.ReportsStyles s html tokens ↔ out.Placed tokens := by
  constructor
  · intro hreports hinserted
    obtain ⟨-, -, again, hagain, hpresent⟩ := hreports.inserted hinserted
    refine (styles_process_converted h htokens hg hagain).2.1 ?_ hinserted
    rw [hpresent]
    decide
  · intro hplaced
    refine ⟨fun hinserted => ?_, fun hnot => ?_⟩
    · obtain ⟨added, hadded⟩ := exists_added_of_placed hplaced s.sheet
      have hagain := process_converted h htokens hg
      rw [hadded] at hagain
      obtain ⟨c, hplace, -⟩ := hplaced hinserted
      have hpresent := (styles_process_converted h htokens hg hagain).1
      rw [Converted.place?, if_pos hinserted, hplace, Option.isSome_some, if_pos rfl] at hpresent
      exact ⟨copies_placed hcss h htokens hg hclosing hinserted hplaced, exists_carries_of_process hagain hpresent, _,
        hagain, hpresent⟩
    · have hhtml := html_of_not_inserted h htokens hnot
      exact ⟨hhtml, hhtml ▸ copies_plain hcss htokens hg⟩

/-- What is reported of the page with a head is what happened. -/
theorem reportsStyles_headedPage :
    ∃ out tokens, process .standard headedPage = .ok out ∧ read .conversion headedPage = .ok tokens ∧
      out.styles = .inserted ∧ out.ReportsStyles .standard headedPage tokens := by
  have hout : ((process .standard headedPage).toOption.any fun out => decide (out.styles = .inserted)) = true := by
    decide +kernel
  have htokens : ((read .conversion headedPage).toOption.any fun tokens =>
      decide (Orderly CheckedSettings.standard.grammar {} tokens) && decide (closingElement? tokens = some "head") &&
        (({} : HeadSearch).place? {} tokens).any fun c => decide (c.doubt = .none)) = true := by decide +kernel
  cases hprocess : process .standard headedPage with
  | error _ => simp [hprocess, Except.toOption] at hout
  | ok out =>
    obtain ⟨tokens, tags, hread, -⟩ := exists_of_process hprocess
    simp only [hprocess, Except.toOption, Option.any_some, decide_eq_true_eq] at hout
    simp only [hread, Except.toOption, Option.any_some, Bool.and_eq_true, decide_eq_true_eq] at htokens
    obtain ⟨⟨hg, hclosing⟩, hplace⟩ := htokens
    obtain ⟨c, hc, hdoubt⟩ := (Option.any_eq_true _ _).1 hplace
    refine ⟨out, tokens, rfl, hread, hout, (reportsStyles_iff .standard (not_holds_css .standard rfl) headedPage out
      hprocess tokens hread hg ?_).2 fun _ => ⟨c, hc, of_decide_eq_true hdoubt⟩⟩
    rw [hclosing]
    decide

/-- A page in which no tag closes the head. -/
def openHeadPage : Text :=
  "<!DOCTYPE html><head><title>t</title><body><p>x</p>".toList

/-- Rules are reported as inserted, but the page is left as it is. -/
theorem not_reportsStyles_openHeadPage :
    ∃ out tokens, process .standard openHeadPage = .ok out ∧ read .conversion openHeadPage = .ok tokens ∧
      ¬ out.ReportsStyles .standard openHeadPage tokens := by
  have hout : ((process .standard openHeadPage).toOption.any fun out =>
      decide (out.styles = .inserted) && decide (out.html = openHeadPage)) = true := by decide +kernel
  cases hprocess : process .standard openHeadPage with
  | error _ => simp [hprocess, Except.toOption] at hout
  | ok out =>
    obtain ⟨tokens, tags, hread, -⟩ := exists_of_process hprocess
    simp only [hprocess, Except.toOption, Option.any_some, Bool.and_eq_true, decide_eq_true_eq] at hout
    refine ⟨out, tokens, rfl, hread, fun hreports => ?_⟩
    have hcopies := (hreports.inserted hout.1).1
    rw [hout.2] at hcopies
    omega

end MarkedMath.Html
