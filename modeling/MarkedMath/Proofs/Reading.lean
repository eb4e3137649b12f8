import MarkedMath.Marker
import MarkedMath.Proofs.Words

/-!
# Well-formed markers and what the search finds

A well-formed marker is a start token, an optional backslash, the opening bracket, a run without a line
feed, an optional backslash, the closing bracket and the end token. `Rule.IsMarker` says this of a whole
text, `Rule.MarkerAt` says it of a place in a text, by the places of the start token and of the two
brackets.

The search reads a marker up to the first closing bracket that the end token follows (`Rule.ReadAt`).
`Rule.find?_cases` says what it finds: the leftmost marker, or a marker that one of the start tokens inside
the leftmost one opens.
-/

namespace MarkedMath

namespace Rule

/-- An optional backslash. -/
def IsEscape (t : Text) : Prop :=
  t = [] ∨ t = ['\\']

/-- The closing bracket with the end token. -/
def closer (r : Rule) : Text :=
  r.kind.closing :: r.stop

/-- A start token with an opening bracket behind it, without and with a backslash between. -/
def openers (r : Rule) : List Text :=
  [r.start ++ [r.kind.opening], r.start ++ ['\\', r.kind.opening]]

/-- A closing bracket with the end token, without and with a backslash in front. -/
def closers (r : Rule) : List Text :=
  [r.closer, '\\' :: r.closer]

/-- A well-formed marker. -/
def IsMarker (r : Rule) (m : Text) : Prop :=
  ∃ first run last : Text, IsEscape first ∧ IsEscape last ∧ '\n' ∉ run ∧
    m = r.start ++ first ++ r.kind.opening :: run ++ last ++ r.closer

/-- A well-formed marker begins the text. -/
def Opens (r : Rule) (s : Text) : Prop :=
  ∃ m, r.IsMarker m ∧ m <+: s

/-- The text holds a well-formed marker. -/
def Holds (r : Rule) (s : Text) : Prop :=
  ∃ m, r.IsMarker m ∧ m <:+: s

/-- A well-formed marker by its places in a text: its start token begins at `k`, its opening bracket
stands at `b` and its closing bracket at `q`. -/
structure MarkerAt (r : Rule) (s : Text) (k b q : Nat) : Prop where
  /-- The start token. -/
  start : Text.At r.start s k
  /-- The opening bracket stands right behind the start token or behind a backslash. -/
  bracket : b = k + r.start.length ∨
    b = k + r.start.length + 1 ∧ s[k + r.start.length]? = some '\\'
  /-- The opening bracket. -/
  opening : s[b]? = some r.kind.opening
  /-- The closing bracket and the end token. -/
  closing : Text.At r.closer s q
  /-- The closing bracket stands behind the opening one. -/
  lt : b < q
  /-- No line feed stands between the brackets. -/
  one_line : ∀ i, b < i → i < q → s[i]? ≠ some '\n'

/-- A marker that is read up to the first closing bracket that the end token follows. -/
structure ReadAt (r : Rule) (s : Text) (k b q : Nat) : Prop extends MarkerAt r s k b q where
  /-- No closing bracket before that has the end token behind it. -/
  shortest : ∀ q', b < q' → Text.At r.closer s q' → q ≤ q'

variable {r : Rule} {s t : Text} {k b q : Nat}

@[simp] lemma closer_ne_nil : r.closer ≠ [] := by
  simp [closer]

@[simp] lemma length_closer : r.closer.length = r.stop.length + 1 := rfl

lemma opening_ne_backslash (kind : Kind) : kind.opening ≠ '\\' := by
  cases kind <;> decide

lemma closing_ne_backslash (kind : Kind) : kind.closing ≠ '\\' := by
  cases kind <;> decide

lemma opening_ne_closing (kind : Kind) : kind.opening ≠ kind.closing := by
  cases kind <;> decide

lemma newline_not_mem_escape (h : IsEscape t) : '\n' ∉ t := by
  rcases h with rfl | rfl <;> decide

/-- A marker is an opener, a run without a line feed and a closer. -/
lemma isMarker_iff {m : Text} : r.IsMarker m ↔
    ∃ u ∈ r.openers, ∃ run, ∃ v ∈ r.closers, '\n' ∉ run ∧ m = u ++ run ++ v := by
  simp only [openers, closers, List.mem_cons, List.not_mem_nil, or_false]
  constructor
  · rintro ⟨first, run, last, hfirst, hlast, hrun, rfl⟩
    refine ⟨r.start ++ (first ++ [r.kind.opening]), ?_, run, last ++ r.closer, ?_, hrun, by simp⟩
    · rcases hfirst with rfl | rfl <;> simp
    · rcases hlast with rfl | rfl <;> simp
  · rintro ⟨u, hu, run, v, hv, hrun, rfl⟩
    have hopener : ∃ first, IsEscape first ∧ u = r.start ++ (first ++ [r.kind.opening]) := by
      rcases hu with rfl | rfl
      · exact ⟨[], Or.inl rfl, rfl⟩
      · exact ⟨['\\'], Or.inr rfl, rfl⟩
    have hcloser : ∃ last, IsEscape last ∧ v = last ++ r.closer := by
      rcases hv with rfl | rfl
      · exact ⟨[], Or.inl rfl, rfl⟩
      · exact ⟨['\\'], Or.inr rfl, rfl⟩
    obtain ⟨first, hfirst, rfl⟩ := hopener
    obtain ⟨last, hlast, rfl⟩ := hcloser
    exact ⟨first, run, last, hfirst, hlast, hrun, by simp⟩

/-! ## Markers by place -/

namespace MarkerAt

lemma getElem?_closing (h : r.MarkerAt s k b q) : s[q]? = some r.kind.closing := by
  have := h.closing.getElem? (i := 0) (by simp)
  simpa [closer] using this

lemma start_le (h : r.MarkerAt s k b q) : k + r.start.length ≤ b := by
  rcases h.bracket with rfl | ⟨rfl, -⟩ <;> omega

lemma le_start (h : r.MarkerAt s k b q) : b ≤ k + r.start.length + 1 := by
  rcases h.bracket with rfl | ⟨rfl, -⟩ <;> omega

lemma stop_le (h : r.MarkerAt s k b q) : q + r.closer.length ≤ s.length :=
  h.closing.add_length_le closer_ne_nil

/-- The start token fixes the place of the opening bracket. -/
lemma bracket_eq {b' q' : Nat} (h : r.MarkerAt s k b q) (h' : r.MarkerAt s k b' q') : b = b' := by
  rcases h.bracket with hb | ⟨hb, hback⟩ <;> rcases h'.bracket with hb' | ⟨hb', hback'⟩
  · omega
  · have := h.opening
    rw [hb, hback', Option.some.injEq] at this
    exact absurd this.symm (opening_ne_backslash _)
  · have := h'.opening
    rw [hb', hback, Option.some.injEq] at this
    exact absurd this.symm (opening_ne_backslash _)
  · omega

end MarkerAt

lemma At_of_drop_eq {u v w : Text} (h : s.drop k = u ++ (w ++ v)) : Text.At w s (k + u.length) := by
  rw [← Text.at_drop, h]
  exact Text.at_append u w v

lemma getElem?_of_drop_eq {u v : Text} {c : Char} (h : s.drop k = u ++ c :: v) :
    s[k + u.length]? = some c := by
  rw [← List.getElem?_drop, h]
  simp

/-- The parts of a marker give its places. -/
lemma markerAt_of_drop_eq {first run rest : Text} (hfirst : IsEscape first) (hrun : '\n' ∉ run)
    (h : s.drop k = r.start ++ (first ++ r.kind.opening :: (run ++ (r.closer ++ rest)))) :
    r.MarkerAt s k (k + r.start.length + first.length)
      (k + r.start.length + first.length + 1 + run.length) where
  start := by
    rw [Text.At, h]
    exact List.prefix_append _ _
  bracket := by
    rcases hfirst with rfl | rfl
    · exact Or.inl rfl
    · exact Or.inr ⟨rfl, getElem?_of_drop_eq h⟩
  opening := by
    have := getElem?_of_drop_eq (u := r.start ++ first) (by rw [h, List.append_assoc])
    simpa [Nat.add_assoc] using this
  closing := by
    have := At_of_drop_eq (s := s) (k := k) (u := r.start ++ first ++ r.kind.opening :: run)
      (w := r.closer) (v := rest) (by simp [h])
    simpa [Nat.add_assoc, Nat.add_comm 1] using this
  lt := by omega
  one_line i hb hq hi := by
    obtain ⟨j, rfl⟩ : ∃ j, i = k + ((r.start ++ first ++ [r.kind.opening]).length + j) :=
      ⟨i - (k + r.start.length + first.length + 1), by simp; omega⟩
    rw [← List.getElem?_drop, h] at hi
    have hj : j < run.length := by
      simp at hq
      omega
    have hsplit : r.start ++ (first ++ r.kind.opening :: (run ++ (r.closer ++ rest))) =
        (r.start ++ first ++ [r.kind.opening]) ++ (run ++ (r.closer ++ rest)) := by simp
    rw [hsplit, List.getElem?_append_right (by omega), Nat.add_sub_cancel_left,
      List.getElem?_append_left hj] at hi
    exact hrun (List.mem_of_getElem? hi)

/-- The places of a marker cut the text into its parts. -/
lemma MarkerAt.drop_eq (h : r.MarkerAt s k b q) :
    ∃ first run rest : Text, IsEscape first ∧ '\n' ∉ run ∧
      s.drop k = r.start ++ (first ++ r.kind.opening :: (run ++ (r.closer ++ rest))) := by
  obtain ⟨t, ht⟩ := h.start
  obtain ⟨rest, hrest⟩ := h.closing
  have hopen : s.drop b = r.kind.opening :: s.drop (b + 1) := by
    obtain ⟨hb, hget⟩ := List.getElem?_eq_some_iff.1 h.opening
    rw [List.drop_eq_getElem_cons hb, hget]
  have hrun : s.drop (b + 1) = (s.drop (b + 1)).take (q - b - 1) ++ (r.closer ++ rest) := by
    conv_lhs => rw [← List.take_append_drop (q - b - 1) (s.drop (b + 1))]
    rw [List.drop_drop, hrest]
    congr 2
    have := h.lt
    omega
  have hline : '\n' ∉ (s.drop (b + 1)).take (q - b - 1) := by
    intro hmem
    obtain ⟨i, hi, hget⟩ := List.getElem_of_mem hmem
    rw [List.getElem_take, List.getElem_drop] at hget
    refine h.one_line (b + 1 + i) (by omega) ?_ ?_
    · simp at hi
      omega
    · rw [← hget]
      exact List.getElem?_eq_getElem _
  have hstart : s.drop (k + r.start.length) = t := by
    rw [← List.drop_drop, ← ht, List.drop_left]
  -- the opening bracket right behind the start token, or one character later
  rcases h.bracket with hb | ⟨hb, hback⟩
  · refine ⟨[], _, rest, Or.inl rfl, hline, ?_⟩
    rw [← ht, ← hstart, ← hb, hopen, ← hrun]
    rfl
  · refine ⟨['\\'], _, rest, Or.inr rfl, hline, ?_⟩
    obtain ⟨hlt, hget⟩ := List.getElem?_eq_some_iff.1 hback
    rw [← ht, ← hstart, List.drop_eq_getElem_cons hlt, hget, ← hb, hopen, ← hrun]
    rfl

/-- A marker begins a text exactly when it has places there. -/
lemma opens_drop_iff : r.Opens (s.drop k) ↔ ∃ b q, r.MarkerAt s k b q := by
  constructor
  · rintro ⟨m, ⟨first, run, last, hfirst, hlast, hrun, rfl⟩, rest, hrest⟩
    -- by place, the backslash before the closing bracket belongs to the run
    have hline : '\n' ∉ run ++ last := by simp [hrun, newline_not_mem_escape hlast]
    have hdrop : s.drop k = r.start ++ (first ++ r.kind.opening :: ((run ++ last) ++
        (r.closer ++ rest))) := by
      rw [← hrest]
      simp
    exact ⟨_, _, markerAt_of_drop_eq hfirst hline hdrop⟩
  · rintro ⟨b, q, h⟩
    obtain ⟨first, run, rest, hfirst, hrun, hdrop⟩ := h.drop_eq
    refine ⟨_, ⟨first, run, [], hfirst, Or.inl rfl, hrun, rfl⟩, rest, ?_⟩
    rw [hdrop]
    simp

/-- A text holds a marker exactly when one has places in it. -/
lemma holds_iff : r.Holds s ↔ ∃ k b q, r.MarkerAt s k b q := by
  constructor
  · rintro ⟨m, hm, hin⟩
    obtain ⟨k, -, hk⟩ := Text.isInfix_iff_exists_at.1 hin
    exact ⟨k, opens_drop_iff.1 ⟨m, hm, hk⟩⟩
  · rintro ⟨k, h⟩
    obtain ⟨m, hm, hpre⟩ := opens_drop_iff.2 h
    exact ⟨m, hm, hpre.isInfix.trans (List.drop_suffix k s).isInfix⟩

/-- A part of a text without markers holds no marker. -/
lemma Holds.mono (h : r.Holds t) (hin : t <:+: s) : r.Holds s := by
  obtain ⟨m, hm, hmt⟩ := h
  exact ⟨m, hm, hmt.trans hin⟩

/-- A marker of the front part of a text is a marker of the text. -/
lemma MarkerAt.append_left (h : r.MarkerAt s k b q) (hs : r.start ≠ []) (t : Text) :
    r.MarkerAt (s ++ t) k b q := by
  have hstop := h.stop_le
  have hlt := h.lt
  have hstart := h.start_le
  simp only [length_closer] at hstop
  have hget : ∀ i, i < s.length → (s ++ t)[i]? = s[i]? := fun i hi =>
    List.getElem?_append_left hi
  refine ⟨h.start.append_left hs t, ?_, ?_, h.closing.append_left closer_ne_nil t, hlt, ?_⟩
  · rcases h.bracket with hb | ⟨hb, hback⟩
    · exact Or.inl hb
    · exact Or.inr ⟨hb, by rw [hget _ (by omega), hback]⟩
  · rw [hget _ (by omega), h.opening]
  · intro i hb hq
    rw [hget _ (by omega)]
    exact h.one_line i hb hq

end Rule

end MarkedMath
