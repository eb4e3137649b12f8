import MarkedMath.Proofs.Pieces
import MarkedMath.Proofs.ShortestRun
import MarkedMath.Proofs.Slices

/-!
# What a match is

A match is the place of a well-formed marker: both of its ends are places where the text can be cut, and between
them stand the start token, the payload and the end token (`Rule.IsMatch`). There is a match from a place on
exactly when a marker begins there or behind it, and matches that are searched for one after the other come from
left to right until no marker is left (`Grammar.matches_sound`).

Where the tokens keep apart, as those that are set when nothing else is do, the match from a place on is the
marker that ends first, and among those that end there the one that starts last (`Grammar.standard_match_iff`).
-/

namespace MarkedMath

namespace Rule

variable {r : Rule} {s : Text} {offset : Nat}

/-- A match in a text. -/
structure IsMatch (r : Rule) (s : Text) (m : Span) : Prop where
  /-- The kind of the rule. -/
  kind : m.kind = r.kind
  /-- It ends behind its start. -/
  lt : m.start < m.stop
  /-- It ends within the text. -/
  le : m.stop ≤ Text.byteLength s
  /-- The text can be cut at both ends, and the payload stands between the two tokens. -/
  slice : s.slice? m.start m.stop = some (r.start ++ m.payload ++ r.stop)
  /-- The payload begins with an optional backslash and the opening bracket and ends with the closing one. -/
  brackets : ∃ first run, IsEscape first ∧ m.payload = first ++ r.kind.opening :: run ++ [r.kind.closing]
  /-- The payload stays in one line. -/
  one_line : '\n' ∉ m.payload

/-- A well-formed marker stands between two places of the text. -/
def MarkerBetween (r : Rule) (s : Text) (start stop : Nat) : Prop :=
  ∃ m, s.slice? start stop = some m ∧ r.IsMarker m

/-- The match that ends first from a place on and, among those with that end, starts last. -/
structure IsFirstEnd (r : Rule) (s : Text) (offset : Nat) (m : Span) : Prop where
  /-- It is a match. -/
  isMatch : r.IsMatch s m
  /-- It begins at the place or behind it. -/
  le : offset ≤ m.start
  /-- No marker from the place on ends earlier. -/
  first : ∀ start stop, offset ≤ start → r.MarkerBetween s start stop → m.stop ≤ stop
  /-- No marker with the same end starts later. -/
  last : ∀ start, offset ≤ start → r.MarkerBetween s start m.stop → start ≤ m.start

/-- A marker begins at a place of the text, or behind it. -/
def OpensFrom (r : Rule) (s : Text) (offset : Nat) : Prop :=
  ∃ before rest, s = before ++ rest ∧ offset ≤ Text.byteLength before ∧ r.Opens rest

/-- The matches that at most `n` searches find, each one from the end of the match before. -/
def searches (r : Rule) (s : Text) : (n offset : Nat) → List Span
  | 0, _ => []
  | n + 1, offset =>
    match r.findFrom? s offset with
    | none => []
    | some m => m :: r.searches s n m.stop

/-! ## One match -/

/-- A payload between tokens that make it a marker has its brackets and stays in one line. -/
lemma payload_of_isMarker {payload : Text} (h : r.IsMarker (r.written payload)) :
    (∃ first run, IsEscape first ∧ payload = first ++ r.kind.opening :: run ++ [r.kind.closing]) ∧
      '\n' ∉ payload := by
  obtain ⟨first, run, last, hfirst, hlast, hrun, heq⟩ := h
  have hpayload : payload = first ++ r.kind.opening :: (run ++ last) ++ [r.kind.closing] := by
    have hcancel : payload ++ r.stop =
        (first ++ r.kind.opening :: (run ++ last) ++ [r.kind.closing]) ++ r.stop := by
      simpa [written, closer] using heq
    exact List.append_cancel_right hcancel
  refine ⟨⟨first, run ++ last, hfirst, hpayload⟩, ?_⟩
  rw [hpayload]
  have hbracket := bracket_ne_lineBreak r.kind
  simp [newline_not_mem_escape hfirst, newline_not_mem_escape hlast, hrun, hbracket.1.1.symm, hbracket.2.1.symm]

/-- What is found in a part of a text is a match in the text. -/
lemma isMatch_spanOf (u : Text) {v : Text} {f : Found} (h : r.find? v = some f) :
    r.IsMatch (u ++ v) (r.spanOf (Text.byteLength u) f) := by
  obtain ⟨hv, hpos⟩ := eq_of_find? h
  obtain ⟨hbrackets, hline⟩ := payload_of_isMarker (isMarker_of_find? h)
  have hslice : (u ++ v).slice? (Text.byteLength u + Text.byteLength f.before)
      (Text.byteLength u + Text.byteLength f.before + Text.byteLength (r.written f.payload)) =
        some (r.written f.payload) :=
    Text.slice?_eq_some_iff.2 ⟨u ++ f.before, f.after, by rw [hv]; simp, by simp, rfl⟩
  obtain ⟨c, payload, hpayload⟩ := List.exists_cons_of_length_pos hpos
  refine ⟨rfl, ?_, ?_, hslice, hbrackets, hline⟩
  · have := c.utf8Size_pos
    simp only [spanOf, written, hpayload, Text.byteLength_append, Text.byteLength_cons]
    omega
  · rw [hv]
    simp only [spanOf, Text.byteLength_append]
    omega

lemma isMatch_of_findFrom? {m : Span} (h : r.findFrom? s offset = some m) : r.IsMatch s m := by
  obtain ⟨skipped, rest, f, rfl, hf, rfl⟩ := exists_find_of_findFrom h
  exact isMatch_spanOf skipped hf

lemma le_start_of_findFrom? {m : Span} (h : r.findFrom? s offset = some m) : offset ≤ m.start := by
  rw [findFrom?] at h
  split at h
  · simp at h
  · next hle =>
    obtain ⟨f, -, rfl⟩ := Option.map_eq_some_iff.1 h
    have hle : offset ≤ Text.byteLength s := by omega
    have := Text.le_byteLength_splitAtByte hle
    simp only [spanOf]
    omega

/-- There is a match from a place on exactly when a marker begins there or behind it. -/
lemma isSome_findFrom?_iff : (r.findFrom? s offset).isSome = true ↔ r.OpensFrom s offset := by
  constructor
  · intro h
    obtain ⟨m, hm⟩ := Option.isSome_iff_exists.1 h
    have hle := le_start_of_findFrom? hm
    obtain ⟨skipped, rest, f, rfl, hf, rfl⟩ := exists_find_of_findFrom hm
    refine ⟨skipped ++ f.before, r.written f.payload ++ f.after, ?_, by simpa [spanOf] using hle, ?_⟩
    · conv_lhs => rw [(eq_of_find? hf).1]
      simp
    · exact ⟨_, isMarker_of_find? hf, List.prefix_append _ _⟩
  · rintro ⟨before, rest, rfl, hle, m, hm, hpre⟩
    obtain ⟨between, -, hrest⟩ := Text.exists_splitAtByte_eq rest hle
    have hholds : r.Holds (between ++ rest) :=
      ⟨m, hm, hpre.isInfix.trans (List.suffix_append between rest).isInfix⟩
    rw [findFrom?, if_neg (by rw [Text.byteLength_append]; omega), Option.isSome_map, hrest,
      ← Option.ne_none_iff_isSome, Ne, find?_eq_none_iff, not_not]
    exact hholds

/-! ## Matches one after the other -/

lemma spansFrom_of_none (h : r.find? s = none) (offset : Nat) : r.spansFrom offset s = [] := by
  rw [spansFrom]
  split
  · rfl
  · next f hf => simp [hf] at h

lemma spansFrom_of_some {f : Found} (h : r.find? s = some f) (offset : Nat) :
    r.spansFrom offset s = r.spanOf offset f :: r.spansFrom (r.spanOf offset f).stop f.after := by
  rw [spansFrom]
  split
  · next hf => simp [hf] at h
  · next g hg =>
    obtain rfl : g = f := Option.some.inj (hg.symm.trans h)
    rfl

/-- A search from a place where a character begins. -/
lemma findFrom?_byteLength (u v : Text) :
    r.findFrom? (u ++ v) (Text.byteLength u) = (r.find? v).map (r.spanOf (Text.byteLength u)) := by
  rw [findFrom?, if_neg (by simp), Text.splitAtByte_byteLength]

/-- Behind a marker that is found a search goes on with the text after it. -/
lemma append_after_of_find? {f : Found} (h : r.find? s = some f) (u : Text) :
    ∃ v, u ++ s = v ++ f.after ∧ (r.spanOf (Text.byteLength u) f).stop = Text.byteLength v := by
  refine ⟨u ++ (f.before ++ r.written f.payload), ?_, by simp [spanOf, Nat.add_assoc]⟩
  conv_lhs => rw [(eq_of_find? h).1]
  simp

/-- Searches one after the other go through the list of all matches. -/
lemma searches_eq_take (n : Nat) (u v : Text) :
    r.searches (u ++ v) n (Text.byteLength u) = (r.spansFrom (Text.byteLength u) v).take n := by
  induction n generalizing u v with
  | zero => rfl
  | succ n ih =>
    rw [searches, findFrom?_byteLength]
    cases hf : r.find? v with
    | none => simp [spansFrom_of_none hf]
    | some f =>
      obtain ⟨u', hu', hstop⟩ := append_after_of_find? hf u
      rw [spansFrom_of_some hf, Option.map_some, List.take_succ_cons]
      simp only [hu', hstop, ih]

/-- The matches in a part of the text are matches in the text, behind the place where the part begins. -/
lemma isMatch_of_mem_spansFrom {u v : Text} {m : Span} (h : m ∈ r.spansFrom (Text.byteLength u) v) :
    r.IsMatch (u ++ v) m ∧ Text.byteLength u ≤ m.start := by
  induction v using pieces_induction (r := r) generalizing u with
  | none v hnone => simp [spansFrom_of_none hnone] at h
  | some v f hf ih =>
    obtain ⟨u', hu', hstop⟩ := append_after_of_find? hf u
    rw [spansFrom_of_some hf] at h
    rcases List.mem_cons.1 h with rfl | h
    · exact ⟨isMatch_spanOf u hf, by simp [spanOf]⟩
    · rw [hstop] at h
      obtain ⟨hmatch, hle⟩ := ih h
      have hlt := (isMatch_spanOf u hf).lt
      refine ⟨hu' ▸ hmatch, ?_⟩
      simp only [spanOf] at hstop hlt
      omega

/-- Every match begins where the one before it has ended, or behind that. -/
lemma spansFrom_in_turn (u v : Text) :
    (r.spansFrom (Text.byteLength u) v).Pairwise fun m m' => m.stop ≤ m'.start := by
  induction v using pieces_induction (r := r) generalizing u with
  | none v hnone => simp [spansFrom_of_none hnone]
  | some v f hf ih =>
    obtain ⟨u', -, hstop⟩ := append_after_of_find? hf u
    rw [spansFrom_of_some hf, hstop]
    refine List.pairwise_cons.2 ⟨fun m hm => ?_, ih u'⟩
    rw [hstop]
    exact (isMatch_of_mem_spansFrom hm).2

/-! ## The match that ends first -/

/-- A match is a marker between its two ends. -/
lemma IsMatch.markerBetween {m : Span} (h : r.IsMatch s m) : r.MarkerBetween s m.start m.stop := by
  obtain ⟨first, run, hfirst, hpayload⟩ := h.brackets
  refine ⟨_, h.slice, first, run, [], hfirst, Or.inl rfl, fun hrun => h.one_line ?_, ?_⟩
  · rw [hpayload]
    simp [hrun]
  · rw [hpayload]
    simp [closer]

/-- There is only one such match. -/
lemma IsFirstEnd.unique {m m' : Span} (h : r.IsFirstEnd s offset m) (h' : r.IsFirstEnd s offset m') : m = m' := by
  have hstop : m.stop = m'.stop := Nat.le_antisymm (h.first _ _ h'.le h'.isMatch.markerBetween)
    (h'.first _ _ h.le h.isMatch.markerBetween)
  have hstart : m.start = m'.start :=
    Nat.le_antisymm (h'.last _ h.le (hstop ▸ h.isMatch.markerBetween))
      (h.last _ h'.le (hstop ▸ h'.isMatch.markerBetween))
  have hslice : r.start ++ m.payload ++ r.stop = r.start ++ m'.payload ++ r.stop := by
    have := h.isMatch.slice
    rw [hstart, hstop, h'.isMatch.slice, Option.some.injEq] at this
    exact this.symm
  have hpayload : m.payload = m'.payload := by simpa using hslice
  have hkind : m.kind = m'.kind := h.isMatch.kind.trans h'.isMatch.kind.symm
  cases m
  cases m'
  simp only at hkind hstart hstop hpayload
  rw [hkind, hstart, hstop, hpayload]

/-- A marker between two places is one by its places in what is left from an earlier place on. -/
lemma exists_markerAt_of_markerBetween {skipped rest : Text} (hparts : Text.splitAtByte offset s = (skipped, rest))
    {start stop : Nat} (hle : offset ≤ start) (h : r.MarkerBetween s start stop) :
    ∃ k b q, r.MarkerAt rest k b q ∧ start = Text.byteLength skipped + Text.byteLength (rest.take k) ∧
      stop = Text.byteLength skipped + Text.byteLength (rest.take (q + r.closer.length)) := by
  obtain ⟨m, hslice, first, run, last, hfirst, hlast, hrun, hm⟩ := h
  obtain ⟨before, after, rfl, rfl, rfl⟩ := Text.slice?_eq_some_iff.1 hslice
  obtain ⟨between, hbefore, hrest⟩ := Text.exists_splitAtByte_eq (m ++ after) hle
  rw [hparts] at hbefore hrest
  simp only at hbefore hrest
  -- by place, the backslash before the closing bracket belongs to the run
  have hdrop : rest.drop between.length =
      r.start ++ (first ++ r.kind.opening :: ((run ++ last) ++ (r.closer ++ after))) := by
    rw [hrest, List.drop_left, hm]
    simp
  have hline : '\n' ∉ run ++ last := by simp [hrun, newline_not_mem_escape hlast]
  refine ⟨_, _, _, markerAt_of_drop_eq hfirst hline hdrop, ?_, ?_⟩
  · rw [hrest, List.take_left, hbefore, Text.byteLength_append]
  · have hstop : between.length + r.start.length + first.length + 1 + (run ++ last).length + r.closer.length =
        (between ++ m).length := by
      rw [hm]
      simp
      omega
    rw [hstop, hrest, ← List.append_assoc, List.take_left, hbefore]
    simp [Nat.add_assoc]

/-- Where tokens keep apart, a marker that a start token inside the leftmost one opens ends with the leftmost
one. -/
lemma ReadAt.stop_eq_of_inner (hs : r.start ≠ []) (hr : r.openersApart = true) {a b₀ q₀ j b q : Nat}
    (h₀ : r.ReadAt s a b₀ q₀) (hj : j ∈ r.inner s a q₀) (h : r.ReadAt s (a + r.start.length + j) b q) :
    q = q₀ := by
  have hin := (at_of_mem_inner hs hj).2
  have hpos := List.length_pos_iff.2 hs
  have hopen : b < q₀ := (opener_apart hr h.toMarkerAt h₀.closing).resolve_right (by omega)
  have hbehind := h.start_le
  have hbracket := h₀.le_start
  have hlt := h.lt
  exact Nat.le_antisymm (h.shortest q₀ hopen h₀.closing) (h₀.shortest q (by omega) h.closing)

/-- No marker ends before the leftmost one. -/
lemma ReadAt.stop_le_of_leftmost {a b₀ q₀ k b q : Nat} (h₀ : r.ReadAt s a b₀ q₀)
    (hleft : ∀ i < a, ∀ b q, ¬ r.MarkerAt s i b q) (h : r.MarkerAt s k b q) : q₀ ≤ q := by
  have hlow : a ≤ k := by
    by_contra hlt
    exact hleft k (by omega) b q h
  have hopen : b₀ ≤ b := by
    rcases Nat.eq_or_lt_of_le hlow with rfl | hlt
    · exact (h₀.bracket_eq h).le
    · have := h₀.le_start
      have := h.start_le
      omega
  have hlt := h.lt
  exact h₀.shortest q (by omega) h.closing

/-- Where tokens keep apart, no marker ends before the one that is found, and none that ends with it starts
behind it. -/
lemma first_end_of_keepsApart (hs : r.start ≠ []) (hr : r.keepsApart = true) {f : Found} (h : r.find? s = some f)
    {k b q : Nat} (hat : r.MarkerAt s k b q) :
    s.length - f.after.length ≤ q + r.closer.length ∧
      (q + r.closer.length = s.length - f.after.length → k ≤ f.before.length) := by
  have hlast := takesLast_of_keepsApart hs hr h
  obtain ⟨a, b₀, q₀, h₀, hleft, k', b', q', hfound, -, hafter, hplace⟩ := find?_cases hs h
  have hend : q' = q₀ := by
    rcases hplace with ⟨rfl, -⟩ | ⟨j, hj, rfl, -⟩
    · exact (hfound.unique h₀).2
    · rw [keepsApart, Bool.and_eq_true] at hr
      exact h₀.stop_eq_of_inner hs hr.2 hj hfound
  subst hend
  have hstop := hfound.stop_le
  have hfirst := h₀.stop_le_of_leftmost hleft hat
  have hlength : f.after.length = s.length - (q' + r.closer.length) := by rw [hafter, List.length_drop]
  refine ⟨by omega, fun hsame => ?_⟩
  by_contra hbehind
  have hlt := hat.lt
  have hstart := hat.start_le
  exact hlast k (by omega) (by omega) (opens_drop_iff.2 ⟨b, q, hat⟩)

/-- The ends of what is found in a text, by beginnings of the text. -/
lemma spanOf_eq_take {f : Found} (h : r.find? s = some f) (offset : Nat) :
    (r.spanOf offset f).start = offset + Text.byteLength (s.take f.before.length) ∧
      (r.spanOf offset f).stop = offset + Text.byteLength (s.take (s.length - f.after.length)) := by
  have hparts := (eq_of_find? h).1
  have hstop : s.length - f.after.length = (f.before ++ r.written f.payload).length := by
    have := congrArg List.length hparts
    rw [List.length_append] at this
    omega
  constructor
  · rw [hparts, List.append_assoc, List.take_left]
    rfl
  · rw [hstop, hparts, List.take_left, Text.byteLength_append, ← Nat.add_assoc]
    rfl

/-- Where tokens keep apart, the match that is found is the one that ends first. -/
lemma isFirstEnd_of_findFrom? (hs : r.start ≠ []) (hr : r.keepsApart = true) {m : Span}
    (h : r.findFrom? s offset = some m) : r.IsFirstEnd s offset m := by
  have hmatch := isMatch_of_findFrom? h
  have hle := le_start_of_findFrom? h
  rw [findFrom?] at h
  split at h
  · simp at h
  · cases hparts : Text.splitAtByte offset s with
    | mk skipped rest =>
    rw [hparts] at h
    obtain ⟨f, hf, rfl⟩ := Option.map_eq_some_iff.1 h
    obtain ⟨hstart, hstop⟩ := spanOf_eq_take hf (Text.byteLength skipped)
    refine ⟨hmatch, hle, fun start stop hoffset hmarker => ?_, fun start hoffset hmarker => ?_⟩
    · obtain ⟨k, b, q, hat, -, hend⟩ := exists_markerAt_of_markerBetween hparts hoffset hmarker
      rw [hstop, hend]
      exact Nat.add_le_add_left ((Text.byteLength_take_le_iff (Nat.sub_le _ _)).2
        (first_end_of_keepsApart hs hr hf hat).1) _
    · obtain ⟨k, b, q, hat, hbegin, hend⟩ := exists_markerAt_of_markerBetween hparts hoffset hmarker
      rw [hstop, Nat.add_left_cancel_iff] at hend
      have hsame : q + r.closer.length = rest.length - f.after.length :=
        Nat.le_antisymm ((Text.byteLength_take_le_iff hat.stop_le).1 hend.ge)
          ((Text.byteLength_take_le_iff (Nat.sub_le _ _)).1 hend.le)
      have hk := (first_end_of_keepsApart hs hr hf hat).2 hsame
      have hklen : k ≤ rest.length := by
        have := hat.stop_le
        have := hat.start_le
        have := hat.lt
        omega
      rw [hstart, hbegin]
      exact Nat.add_le_add_left ((Text.byteLength_take_le_iff hklen).2 hk) _

/-- A marker between two places begins at the first of them. -/
lemma MarkerBetween.opensFrom {start stop : Nat} (h : r.MarkerBetween s start stop) (hle : offset ≤ start) :
    r.OpensFrom s offset := by
  obtain ⟨m, hslice, hm⟩ := h
  obtain ⟨before, after, rfl, rfl, -⟩ := Text.slice?_eq_some_iff.1 hslice
  exact ⟨before, m ++ after, rfl, hle, m, hm, List.prefix_append m after⟩

/-- Where tokens keep apart, the search finds the match that ends first, if there is any marker. -/
lemma findFrom?_iff_of_keepsApart (hs : r.start ≠ []) (hr : r.keepsApart = true) :
    (r.findFrom? s offset = none ↔ ∀ start stop, offset ≤ start → ¬ r.MarkerBetween s start stop) ∧
      ∀ m, r.findFrom? s offset = some m ↔ r.IsFirstEnd s offset m := by
  constructor
  · constructor
    · intro hnone start stop hle hmarker
      have hsome := isSome_findFrom?_iff.2 (hmarker.opensFrom hle)
      simp [hnone] at hsome
    · intro hno
      by_contra hsome
      obtain ⟨m, hm⟩ := Option.ne_none_iff_exists'.1 hsome
      exact hno _ _ (le_start_of_findFrom? hm) (isMatch_of_findFrom? hm).markerBetween
  · intro m
    refine ⟨isFirstEnd_of_findFrom? hs hr, fun hfirst => ?_⟩
    obtain ⟨m', hm'⟩ := Option.isSome_iff_exists.1
      (isSome_findFrom?_iff.2 (hfirst.isMatch.markerBetween.opensFrom hfirst.le))
    rw [hm', (isFirstEnd_of_findFrom? hs hr hm').unique hfirst]

end Rule

namespace Grammar

/-- **Matches are sound.** In every text and from every place, also beyond its end or inside a character, the
search for a marker can cut the text wherever it has to. It finds a match exactly when a marker begins at the
place or behind it; what it finds begins there or behind and is the place of a marker. Searches one after the
other, each from the end of the match before, give matches from left to right that share no character, and
come to an end with the last one of the list. -/
theorem matches_sound (g : Grammar) (kind : Kind) (s : Text) (offset : Nat) :
    let r := g.rule kind
    r.findByPlace? s offset = some (r.findFrom? s offset) ∧
      ((r.findFrom? s offset).isSome = true ↔ r.OpensFrom s offset) ∧
      (∀ m, r.findFrom? s offset = some m → offset ≤ m.start ∧ r.IsMatch s m) ∧
      (∀ n, r.searches s n 0 = (r.spans s).take n) ∧
      (∀ m ∈ r.spans s, r.IsMatch s m) ∧ (r.spans s).Pairwise fun m m' => m.stop ≤ m'.start := by
  intro r
  refine ⟨r.findByPlace?_eq s offset, Rule.isSome_findFrom?_iff, fun m hm => ?_, fun n => ?_, fun m hm => ?_, ?_⟩
  · exact ⟨Rule.le_start_of_findFrom? hm, Rule.isMatch_of_findFrom? hm⟩
  · exact Rule.searches_eq_take n [] s
  · exact (Rule.isMatch_of_mem_spansFrom (u := []) hm).1
  · exact Rule.spansFrom_in_turn [] s

/-- **What the search finds with the tokens that are set when nothing else is.** From a place on there is no
match exactly when no marker stands in the text from there on; otherwise the match is the marker that ends
first and, among those with that end, starts last. -/
theorem standard_match_iff (kind : Kind) (s : Text) (offset : Nat) :
    let r := standard.rule kind
    (r.findFrom? s offset = none ↔ ∀ start stop, offset ≤ start → ¬ r.MarkerBetween s start stop) ∧
      ∀ m, r.findFrom? s offset = some m ↔ r.IsFirstEnd s offset m :=
  Rule.findFrom?_iff_of_keepsApart (standard.start_ne_nil kind) (keepsApart_standard kind)

end Grammar

end MarkedMath
