import MarkedMath.Tree.Markup
import MarkedMath.Watch
import MarkedMath.Proofs.Reading
import MarkedMath.Proofs.Tokens

/-!
# Watch patterns

Every token holds a watch pattern, so every text with a marker in it mentions one. Markup shows a text with
some of its characters escaped, and there a token that holds such a character is no longer found. A marker
is still recognized when its brackets and the other token keep a pattern; `Grammar.spotsMarkers` decides
whether this is so for all markers of a kind.
-/

namespace MarkedMath

/-! ## Patterns in a text -/

section Mentions

variable {patterns : List Text} {s t : Text}

lemma mentionsAny_iff : mentionsAny patterns t = true ↔ ∃ p ∈ patterns, p <:+: t := by
  simp only [mentionsAny, List.any_eq_true, Text.mentions_iff_isInfix]

lemma mentionsAny_mono (hin : s <:+: t) (h : mentionsAny patterns s = true) :
    mentionsAny patterns t = true := by
  obtain ⟨p, hp, hps⟩ := mentionsAny_iff.1 h
  exact mentionsAny_iff.2 ⟨p, hp, hps.trans hin⟩

end Mentions

/-! ## Escaped texts -/

lemma escapeText_append (s t : Text) : escapeText (s ++ t) = escapeText s ++ escapeText t := by
  simp [escapeText]

lemma escapeText_mono {s t : Text} (h : s <:+: t) : escapeText s <:+: escapeText t := by
  obtain ⟨u, v, rfl⟩ := h
  exact ⟨escapeText u, escapeText v, by simp [escapeText_append]⟩

namespace Grammar

/-! ## The patterns of a grammar -/

lemma mem_collapse {p : Text} {l : List Text} : p ∈ collapse l ↔ p ∈ l := by
  induction l with
  | nil => rfl
  | cons a l ih =>
    cases l with
    | nil => rfl
    | cons b l =>
      rw [collapse]
      split
      · next h => simp [ih, h]
      · simp [ih]

lemma commonStart_begins (a b : Text) : Text.commonStart a b <+: a ∧ Text.commonStart a b <+: b := by
  induction a generalizing b with
  | nil => exact ⟨List.nil_prefix, List.nil_prefix⟩
  | cons c a ih =>
    cases b with
    | nil => exact ⟨List.nil_prefix, List.nil_prefix⟩
    | cons d b =>
      rw [Text.commonStart]
      split
      · next h =>
        subst h
        exact ⟨List.cons_prefix_cons.2 ⟨rfl, (ih b).1⟩, List.cons_prefix_cons.2 ⟨rfl, (ih b).2⟩⟩
      · exact ⟨List.nil_prefix, List.nil_prefix⟩

/-- Both tokens of a pair begin with a pattern of the pair. -/
lemma exists_pairPattern {a b t : Text} (ht : t = a ∨ t = b) : ∃ p ∈ pairPatterns a b, p <+: t := by
  rw [pairPatterns]
  split
  · exact ⟨t, by simpa using ht, List.prefix_rfl⟩
  · refine ⟨_, List.mem_singleton.2 rfl, ?_⟩
    rcases ht with rfl | rfl
    · exact (commonStart_begins _ _).1
    · exact (commonStart_begins _ _).2

/-- A pattern of a pair begins one of the two tokens. -/
lemma prefix_of_mem_pairPatterns {a b p : Text} (h : p ∈ pairPatterns a b) : p <+: a ∨ p <+: b := by
  rw [pairPatterns] at h
  split at h
  · simp only [List.mem_cons, List.not_mem_nil, or_false] at h
    rcases h with rfl | rfl
    · exact Or.inl List.prefix_rfl
    · exact Or.inr List.prefix_rfl
  · rw [List.mem_singleton.1 h]
    exact Or.inl (commonStart_begins _ _).1

variable (g : Grammar) (kind : Kind)

/-- A start token mentions a watch pattern. -/
lemma mentionsAny_start : mentionsAny g.watchPatterns (g.rule kind).start = true := by
  have hkind : (g.rule kind).start = (g.rule .inline).start ∨
      (g.rule kind).start = (g.rule .display).start := by
    cases kind
    · exact Or.inl rfl
    · exact Or.inr rfl
  obtain ⟨p, hp, hstart⟩ := exists_pairPattern hkind
  exact mentionsAny_iff.2 ⟨p, mem_collapse.2 (List.mem_append_left _ hp), hstart.isInfix⟩

/-- A watch pattern begins a token. -/
lemma prefix_of_mem_watchPatterns {p : Text} (h : p ∈ g.watchPatterns) :
    ∃ kind, p <+: (g.rule kind).start ∨ p <+: (g.rule kind).stop := by
  rcases List.mem_append.1 (mem_collapse.1 h) with h | h
  · rcases prefix_of_mem_pairPatterns h with h | h
    · exact ⟨.inline, Or.inl h⟩
    · exact ⟨.display, Or.inl h⟩
  · rcases prefix_of_mem_pairPatterns h with h | h
    · exact ⟨.inline, Or.inr h⟩
    · exact ⟨.display, Or.inr h⟩

lemma return_not_mem_pattern {p : Text} (h : p ∈ g.watchPatterns) : '\r' ∉ p := by
  intro hp
  obtain ⟨kind, h | h⟩ := g.prefix_of_mem_watchPatterns h
  · exact (g.ne_lineBreak_of_mem_start kind (h.subset hp)).2 rfl
  · exact (g.ne_lineBreak_of_mem_stop kind (h.subset hp)).2 rfl

variable {g kind}

/-- A text with a marker in it mentions a watch pattern. -/
lemma mentionsAny_of_holds {t : Text} (h : (g.rule kind).Holds t) :
    mentionsAny g.watchPatterns t = true := by
  obtain ⟨m, ⟨first, run, last, -, -, -, rfl⟩, hin⟩ := h
  refine mentionsAny_mono (List.IsInfix.trans ?_ hin) (g.mentionsAny_start kind)
  simp only [List.append_assoc]
  exact (List.prefix_append _ _).isInfix

/-! ## Markers in markup -/

/-- Whether a text mentions a watch pattern when it is shown in markup. -/
def spots (g : Grammar) (t : Text) : Bool :=
  mentionsAny g.watchPatterns (escapeText t)

/-- Whether every marker of a kind mentions a watch pattern when it is shown in markup: however it begins,
or however it ends. -/
def spotsMarkers (g : Grammar) (kind : Kind) : Bool :=
  (g.rule kind).openers.all g.spots || (g.rule kind).closers.all g.spots

lemma spots_mono {s t : Text} (hin : s <:+: t) (h : g.spots s = true) : g.spots t = true :=
  mentionsAny_mono (escapeText_mono hin) h

/-- A carriage return, which no token holds, keeps the patterns on its two sides apart. -/
lemma spots_of_return {s t : Text} (h : g.spots (s ++ '\r' :: t) = true) :
    g.spots s = true ∨ g.spots t = true := by
  obtain ⟨p, hp, u, v, huv⟩ := mentionsAny_iff.1 h
  have hreturn := g.return_not_mem_pattern hp
  have hescape : escapeText (s ++ '\r' :: t) = escapeText s ++ '\r' :: escapeText t := by
    rw [escapeText_append]
    rfl
  rw [hescape, List.append_assoc] at huv
  -- the pattern begins before the carriage return or behind it, and cannot run across it
  rcases List.append_eq_append_iff.1 huv with ⟨rest, hs, hrest⟩ | ⟨rest, hu, hrest⟩
  · rcases List.append_eq_append_iff.1 hrest with ⟨behind, hsplit, -⟩ | ⟨middle, hp', hsplit⟩
    · exact Or.inl (mentionsAny_iff.2 ⟨p, hp, u, behind, by simp [hs, hsplit]⟩)
    · cases middle with
      | nil => exact Or.inl (mentionsAny_iff.2 ⟨p, hp, u, [], by simp [hs, hp']⟩)
      | cons c middle =>
        obtain ⟨rfl, -⟩ := List.cons_eq_cons.1 hsplit
        exact absurd (hp' ▸ List.mem_append_right _ (List.mem_cons_self ..)) hreturn
  · cases rest with
    | nil =>
      cases p with
      | nil => exact Or.inl (mentionsAny_iff.2 ⟨[], hp, List.nil_infix⟩)
      | cons c p =>
        obtain ⟨rfl, -⟩ := List.cons_eq_cons.1 hrest
        exact absurd (List.mem_cons_self ..) hreturn
    | cons c rest =>
      obtain ⟨-, ht⟩ := List.cons_eq_cons.1 hrest
      exact Or.inr (mentionsAny_iff.2 ⟨p, hp, rest, v, by simp [ht]⟩)

/-- Where markers of the kind are spotted, so are texts with one in them. -/
lemma spots_of_holds (hspots : g.spotsMarkers kind = true) {t : Text} (h : (g.rule kind).Holds t) :
    g.spots t = true := by
  obtain ⟨m, hm, hin⟩ := h
  obtain ⟨u, hu, run, v, hv, -, rfl⟩ := Rule.isMarker_iff.1 hm
  refine spots_mono hin ?_
  rcases Bool.or_eq_true_iff.1 hspots with hall | hall
  · refine spots_mono ?_ (List.all_eq_true.1 hall u hu)
    rw [List.append_assoc]
    exact (List.prefix_append _ _).isInfix
  · exact spots_mono (List.suffix_append _ _).isInfix (List.all_eq_true.1 hall v hv)

/-- Where not all markers of the kind are spotted there is one that is not: an opener and a closer that
are not spotted, with a carriage return between. -/
lemma exists_marker_not_spotted (h : g.spotsMarkers kind = false) :
    ∃ m, (g.rule kind).IsMarker m ∧ g.spots m = false := by
  rw [spotsMarkers, Bool.or_eq_false_iff, List.all_eq_false, List.all_eq_false] at h
  obtain ⟨⟨u, hu, hopen⟩, v, hv, hclose⟩ := h
  refine ⟨u ++ ['\r'] ++ v, Rule.isMarker_iff.2 ⟨u, hu, ['\r'], v, hv, by decide, rfl⟩, ?_⟩
  rw [List.append_assoc, ← Bool.not_eq_true]
  exact fun hspots => (spots_of_return hspots).elim hopen hclose

end Grammar

end MarkedMath
