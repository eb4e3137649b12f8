import MarkedMath.Proofs.Matches

/-!
# Line breaks in matches

A line break is a line feed or a carriage return: no token may hold either of them (`isLineBreak`). The search for a
marker is stricter with one than with the other. A payload is read up to the next line feed, but carriage returns
are read over like any other character.

So the line breaks of a match are the carriage returns between its brackets (`Rule.lineBreaks_of_findFrom?`), and a
match stays in one line exactly when none stands there (`Grammar.keepsLine_iff`). This is the same for all tokens:
with any of them there is a text in which the match goes over a carriage return (`Rule.exists_broken`).
-/

namespace MarkedMath

namespace Rule

/-- The match that is found from a place on, if any, stays in one line. -/
def KeepsLine (r : Rule) (s : Text) (offset : Nat) : Prop :=
  ∀ m, r.findFrom? s offset = some m → ∀ t, s.slice? m.start m.stop = some t → ∀ c ∈ t, isLineBreak c = false

/-- A carriage return stands between the brackets of a match. -/
def ReturnInside (r : Rule) (m : Span) : Prop :=
  ∃ first run, IsEscape first ∧ m.payload = first ++ r.kind.opening :: run ++ [r.kind.closing] ∧ '\r' ∈ run

variable {r : Rule} {s : Text} {offset : Nat}

lemma filter_lineBreak_eq_nil {t : Text} (h : ∀ c ∈ t, c ≠ '\n' ∧ c ≠ '\r') : t.filter isLineBreak = [] := by
  rw [List.filter_eq_nil_iff]
  intro c hc
  simp [isLineBreak, h c hc]

lemma filter_lineBreak_of_one_line {t : Text} (h : '\n' ∉ t) : t.filter isLineBreak = t.filter (· = '\r') := by
  refine List.filter_congr fun c hc => ?_
  have hne : c ≠ '\n' := fun heq => h (heq ▸ hc)
  simp [isLineBreak, hne]

/-- The line breaks of a match are the carriage returns between its brackets. -/
lemma lineBreaks_of_findFrom? (hr : r.OneLine) {m : Span} (h : r.findFrom? s offset = some m) :
    ∃ first run t, IsEscape first ∧ m.payload = first ++ r.kind.opening :: run ++ [r.kind.closing] ∧
      s.slice? m.start m.stop = some t ∧ t.filter isLineBreak = run.filter (· = '\r') := by
  have hm := isMatch_of_findFrom? h
  obtain ⟨first, run, hfirst, hpayload⟩ := hm.brackets
  have hline : '\n' ∉ run := fun hmem => hm.one_line (by rw [hpayload]; simp [hmem])
  have hstart := filter_lineBreak_eq_nil fun c hc => hr c (Or.inl hc)
  have hstop := filter_lineBreak_eq_nil fun c hc => hr c (Or.inr hc)
  have hescape : first.filter isLineBreak = [] := by
    rcases hfirst with rfl | rfl <;> rfl
  have hopening : isLineBreak r.kind.opening = false := by cases r.kind <;> decide
  have hclosing : isLineBreak r.kind.closing = false := by cases r.kind <;> decide
  refine ⟨first, run, _, hfirst, hpayload, hm.slice, ?_⟩
  rw [hpayload]
  simp [hstart, hstop, hescape, hopening, hclosing, filter_lineBreak_of_one_line hline]

/-- Whatever the tokens are, the search reads over a carriage return between the brackets. -/
lemma exists_broken (hs : r.start ≠ []) : ∃ s, ¬ r.KeepsLine s 0 := by
  let s : Text := r.start ++ r.kind.opening :: '\r' :: r.closer
  have hmarker : r.IsMarker s := ⟨[], ['\r'], [], Or.inl rfl, Or.inl rfl, by decide, by simp [s]⟩
  obtain ⟨f, hf⟩ : ∃ f, r.find? s = some f := by
    rw [← Option.ne_none_iff_exists', Ne, find?_eq_none_iff, not_not]
    exact ⟨s, hmarker, List.infix_rfl⟩
  have hfrom : r.findFrom? s 0 = some (r.spanOf 0 f) := by
    rw [findFrom_zero, hf]
    rfl
  have hparts := (eq_of_find? hf).1
  have hslice := (isMatch_of_findFrom? hfrom).slice
  -- any marker is as long as both tokens and the brackets, so the one that is found leaves out one character at most
  obtain ⟨first, run, -, hpayload⟩ := (isMatch_of_findFrom? hfrom).brackets
  have hlong : r.start.length + r.stop.length + 2 ≤ (r.written f.payload).length := by
    have hpayload : f.payload = _ := hpayload
    rw [written, hpayload]
    simp only [List.length_append, List.length_cons, List.length_nil]
    omega
  have hlength := congrArg List.length hparts
  simp only [s, List.length_append, List.length_cons, length_closer] at hlength
  have hpos := List.length_pos_iff.2 hs
  have hreturn : s[r.start.length + 1]? = some '\r' := by simp [s]
  rw [hparts, List.append_assoc, List.getElem?_append_right (by omega),
    List.getElem?_append_left (by omega)] at hreturn
  exact ⟨s, fun hkeeps => absurd (hkeeps _ hfrom _ hslice '\r' (List.mem_of_getElem? hreturn)) (by decide)⟩

end Rule

namespace Grammar

/-- **Line breaks in matches.** A match stays in one line exactly when no carriage return stands between its
brackets; a line feed never stands in it. In a text without carriage returns all matches stay in one line, and with
any tokens there is a text in which one does not. -/
theorem keepsLine_iff (g : Grammar) (kind : Kind) :
    let r := g.rule kind
    (∀ s offset, r.KeepsLine s offset ↔ ∀ m, r.findFrom? s offset = some m → ¬ r.ReturnInside m) ∧
      (∀ s offset m t, r.findFrom? s offset = some m → s.slice? m.start m.stop = some t → '\n' ∉ t) ∧
      (∀ s offset, '\r' ∉ s → r.KeepsLine s offset) ∧ ∃ s, ¬ r.KeepsLine s 0 := by
  intro r
  have hr := g.oneLine kind
  have hiff : ∀ s offset, r.KeepsLine s offset ↔ ∀ m, r.findFrom? s offset = some m → ¬ r.ReturnInside m := by
    intro s offset
    constructor
    · rintro hkeeps m hm ⟨first, run, -, hpayload, hreturn⟩
      refine absurd (hkeeps m hm _ (Rule.isMatch_of_findFrom? hm).slice '\r' ?_) (by decide)
      simp [hpayload, hreturn]
    · intro hno m hm t ht c hc
      obtain ⟨first, run, t', hfirst, hpayload, hslice, hbreaks⟩ := Rule.lineBreaks_of_findFrom? hr hm
      obtain rfl := Option.some.inj (ht.symm.trans hslice)
      by_contra hbreak
      have hmem : c ∈ t.filter isLineBreak := List.mem_filter.2 ⟨hc, by simpa using hbreak⟩
      rw [hbreaks, List.mem_filter, decide_eq_true_eq] at hmem
      exact hno m hm ⟨first, run, hfirst, hpayload, hmem.2 ▸ hmem.1⟩
  refine ⟨hiff, fun s offset m t hm ht hmem => ?_, fun s offset hs => (hiff s offset).2 ?_,
    Rule.exists_broken (g.start_ne_nil kind)⟩
  · obtain ⟨first, run, t', -, -, hslice, hbreaks⟩ := Rule.lineBreaks_of_findFrom? hr hm
    obtain rfl := Option.some.inj (ht.symm.trans hslice)
    have hfeed : '\n' ∈ run.filter (· = '\r') := hbreaks ▸ List.mem_filter.2 ⟨hmem, by decide⟩
    simp at hfeed
  · rintro m hm ⟨first, run, -, hpayload, hreturn⟩
    obtain ⟨before, after, rfl, -⟩ := Text.slice?_eq_some_iff.1 (Rule.isMatch_of_findFrom? hm).slice
    exact hs (by simp [hpayload, hreturn])

/-- With the tokens that are set when nothing else is, a match goes over a carriage return. In a token the same
character is refused as a line break. -/
theorem return_inside_match :
    (standard.rule .inline).findFrom? "MATHSTARTINLINE(a\rb)MATHENDINLINE".toList 0 =
        some ⟨.inline, 0, 33, "(a\rb)".toList⟩ ∧
      ¬ (standard.rule .inline).KeepsLine "MATHSTARTINLINE(a\rb)MATHENDINLINE".toList 0 ∧
      ({ inlineStart := "a\rb" } : Tokens).fault? = some (.multilineToken .inlineStart) := by
  have hfound : (standard.rule .inline).findFrom? "MATHSTARTINLINE(a\rb)MATHENDINLINE".toList 0 =
      some ⟨.inline, 0, 33, "(a\rb)".toList⟩ := by decide
  refine ⟨hfound, fun hkeeps => ?_, by decide⟩
  have hslice := (Rule.isMatch_of_findFrom? hfound).slice
  exact absurd (hkeeps _ hfound _ hslice '\r' (by decide)) (by decide)

end Grammar

end MarkedMath
