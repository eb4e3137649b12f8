import MarkedMath.Proofs.Search
import MarkedMath.Proofs.Tokens
import Mathlib.Data.List.Pairwise

/-!
# The rule of the shortest run

Under the rule of the shortest run no start token inside a marker that is found opens a marker itself.
The search looks at the start tokens inside the leftmost marker that do not overlap each other, and
shortens it once. This keeps the rule exactly when the tokens keep apart (`Rule.keepsApart`): the start
token does not overlap another copy of itself, and no start token with its bracket can share a character
with a closing bracket and the end token behind it. Both directions are `Grammar.shortest_run_iff`.

Where tokens do not keep apart, a text that breaks the rule is made from the shared text: after a start
token it holds the shared text twice, with carriage returns between, which no token holds.
-/

namespace MarkedMath

namespace Rule

/-- The start token overlaps no other copy of itself. -/
def startsApart (r : Rule) : Bool :=
  !Text.runsInto r.start.tail r.start

/-- No opener overlaps the closing bracket and the end token of a marker. -/
def openersApart (r : Rule) : Bool :=
  r.openers.all fun u => !Text.overlaps u r.closer

/-- The tokens keep apart. -/
def keepsApart (r : Rule) : Bool :=
  r.startsApart && r.openersApart

/-- No start token inside the marker found opens a marker. -/
def TakesLast (r : Rule) (s : Text) (f : Found) : Prop :=
  ∀ k, f.before.length < k → k + f.after.length < s.length → ¬ r.Opens (s.drop k)

variable {r : Rule} {s : Text} {k b q : Nat}

/-! ## Openers in a text -/

lemma MarkerAt.exists_opener (h : r.MarkerAt s k b q) :
    ∃ u ∈ r.openers, Text.At u s k ∧ b + 1 = k + u.length := by
  obtain ⟨first, run, rest, hfirst, hrun, hdrop⟩ := h.drop_eq
  have hplace := h.bracket_eq (markerAt_of_drop_eq hfirst hrun hdrop)
  refine ⟨r.start ++ (first ++ [r.kind.opening]), ?_, ?_, ?_⟩
  · rcases hfirst with rfl | rfl <;> simp [openers]
  · rw [Text.At, hdrop]
    exact ⟨run ++ (r.closer ++ rest), by simp⟩
  · rw [hplace]
    simp
    omega

/-- An opener and a closing behind it make up a marker when no line is broken. -/
lemma markerAt_of_opener {u : Text} (hu : u ∈ r.openers) (hat : Text.At u s k)
    (hclose : Text.At r.closer s q) (hle : k + u.length ≤ q) (hline : '\n' ∉ s) :
    ∃ b, b + 1 = k + u.length ∧ r.MarkerAt s k b q := by
  have hno : ∀ i, s[i]? ≠ some '\n' := fun i hi => hline (List.mem_of_getElem? hi)
  have hget := fun i => hat.getElem? (i := i)
  simp only [openers, List.mem_cons, List.not_mem_nil, or_false] at hu
  rcases hu with rfl | rfl
  · refine ⟨k + r.start.length, by simp [Nat.add_assoc], ?_⟩
    simp only [List.length_append, List.length_singleton] at hget hle
    refine ⟨(List.prefix_append _ _).trans hat, Or.inl rfl, ?_, hclose, by omega,
      fun i _ _ => hno i⟩
    rw [hget _ (by omega)]
    simp
  · refine ⟨k + r.start.length + 1, by simp [Nat.add_assoc], ?_⟩
    simp only [List.length_append, List.length_cons, List.length_nil] at hget hle
    refine ⟨(List.prefix_append _ _).trans hat, Or.inr ⟨rfl, ?_⟩, ?_, hclose, by omega,
      fun i _ _ => hno i⟩
    · rw [hget _ (by omega)]
      simp
    · rw [Nat.add_assoc, hget _ (by omega)]
      simp

/-! ## Tokens that keep apart -/

/-- Two start tokens that keep apart share no character. -/
lemma start_apart (hr : r.startsApart = true) {i j : Nat} (hi : Text.At r.start s i)
    (hj : Text.At r.start s j) (hij : i < j) : i + r.start.length ≤ j := by
  rw [startsApart, Bool.not_eq_true'] at hr
  by_contra hover
  have htail : Text.At r.start.tail s (i + 1) := by
    cases hstart : r.start with
    | nil => simp [Text.At]
    | cons c start =>
      rw [hstart] at hi
      have hsub : Text.At start (c :: start) 1 := by simp [Text.At]
      exact hi.sub hsub (by simp; omega)
  have hruns := Text.runsInto_of_at htail hj (by omega) (by rw [List.length_tail]; omega)
  simp [hr] at hruns

/-- An opener stands before a closing or behind it. -/
lemma opener_apart (hr : r.openersApart = true) {q' : Nat} (h : r.MarkerAt s k b q)
    (hclose : Text.At r.closer s q') : b < q' ∨ q' + r.closer.length ≤ k := by
  rw [openersApart, List.all_eq_true] at hr
  obtain ⟨u, hu, hat, hlen⟩ := h.exists_opener
  have hover : Text.overlaps u r.closer = false := by simpa using hr u hu
  rcases Text.apart_of_not_overlaps hover hat hclose with h | h
  · exact Or.inl (by omega)
  · exact Or.inr h

/-- A marker inside the leftmost one is opened by a start token that the search looks at. -/
lemma mem_inner_of_apart (hs : r.start ≠ []) (hstarts : r.startsApart = true)
    (hopeners : r.openersApart = true) {a b₀ q₀ : Nat}
    (h₀ : r.MarkerAt s a b₀ q₀) (h : r.MarkerAt s k b q) (hlow : a < k)
    (hhigh : k < q₀ + r.closer.length) : k - (a + r.start.length) ∈ r.inner s a q₀ := by
  have hbefore : b < q₀ := (opener_apart hopeners h h₀.closing).resolve_right (by omega)
  have hstart := h.start_le
  have hbehind := start_apart hstarts h₀.start h.start hlow
  refine mem_inner hs h.start hbehind (by omega) fun j hj _ hover hat => ?_
  have := start_apart hstarts hat h.start hj
  omega

/-- Tokens that keep apart keep the rule. -/
lemma takesLast_of_keepsApart (hs : r.start ≠ []) (hr : r.keepsApart = true) {f : Found}
    (h : r.find? s = some f) : r.TakesLast s f := by
  rw [keepsApart, Bool.and_eq_true] at hr
  obtain ⟨hstarts, hopeners⟩ := hr
  obtain ⟨a, b₀, q₀, h₀, -, k', b', q', hfound, hbefore, hafter, hplace⟩ := find?_cases hs h
  intro k hlow hhigh hopens
  obtain ⟨b, q, hat⟩ := opens_drop_iff.1 hopens
  have hpos := List.length_pos_iff.2 hs
  have hstop := hfound.stop_le
  have hlt := hfound.lt
  have hstart := hfound.start_le
  rw [hbefore, List.length_take] at hlow
  rw [hafter, List.length_drop] at hhigh
  rcases hplace with ⟨rfl, hnone⟩ | ⟨j, hj, rfl, hnone⟩
  · obtain ⟨rfl, rfl⟩ := hfound.unique h₀
    have hmem := mem_inner_of_apart hs hstarts hopeners h₀.toMarkerAt hat (by omega) (by omega)
    have hplace := start_apart hstarts h₀.start hat.start (by omega)
    refine hnone _ hmem b q ?_
    rwa [Nat.add_sub_cancel' hplace]
  · -- a start token inside the leftmost marker opens a marker with the same end
    have hin := (at_of_mem_inner hs hj).2
    have hopen : b' < q₀ := (opener_apart hopeners hfound.toMarkerAt h₀.closing).resolve_right (by omega)
    have hend := hfound.shortest q₀ hopen h₀.closing
    have hmem := mem_inner_of_apart hs hstarts hopeners h₀.toMarkerAt hat (by omega) (by omega)
    refine hnone _ hmem (by omega) b q ?_
    rwa [Nat.add_sub_cancel' (by omega)]

/-! ## Tokens that do not keep apart -/

/-- No token holds a line break. -/
def OneLine (r : Rule) : Prop :=
  ∀ c, c ∈ r.start ∨ c ∈ r.stop → c ≠ '\n' ∧ c ≠ '\r'

lemma bracket_ne_lineBreak (kind : Kind) :
    (kind.opening ≠ '\n' ∧ kind.opening ≠ '\r') ∧ kind.closing ≠ '\n' ∧ kind.closing ≠ '\r' := by
  cases kind <;> decide

lemma OneLine.of_mem_closer (hr : r.OneLine) {c : Char} (hc : c ∈ r.closer) :
    c ≠ '\n' ∧ c ≠ '\r' := by
  rcases List.mem_cons.1 hc with rfl | hc
  · exact (bracket_ne_lineBreak r.kind).2
  · exact hr c (Or.inr hc)

lemma OneLine.of_mem_opener (hr : r.OneLine) {u : Text} (hu : u ∈ r.openers) {c : Char}
    (hc : c ∈ u) : c ≠ '\n' ∧ c ≠ '\r' := by
  simp only [openers, List.mem_cons, List.not_mem_nil, or_false] at hu
  rcases hu with rfl | rfl <;> simp only [List.mem_append, List.mem_cons, List.not_mem_nil,
    or_false] at hc
  · rcases hc with hc | rfl
    · exact hr c (Or.inl hc)
    · exact (bracket_ne_lineBreak r.kind).1
  · rcases hc with hc | rfl | rfl
    · exact hr c (Or.inl hc)
    · decide
    · exact (bracket_ne_lineBreak r.kind).1

/-- A word without carriage returns stands on one side of a carriage return. -/
lemma apart_of_return {w : Text} {i : Nat} (hw : '\r' ∉ w) (hat : Text.At w s k)
    (hi : s[i]? = some '\r') : i < k ∨ k + w.length ≤ i := by
  by_contra hcon
  have hget := hat.getElem? (i := i - k) (by omega)
  rw [Nat.add_sub_cancel' (by omega), hi] at hget
  exact hw (List.mem_of_getElem? hget.symm)

lemma OneLine.closer_apart (hr : r.OneLine) {i : Nat} (hat : Text.At r.closer s k)
    (hi : s[i]? = some '\r') : i < k ∨ k + r.closer.length ≤ i :=
  apart_of_return (fun hc => (hr.of_mem_closer hc).2 rfl) hat hi

/-- In a text that begins with a marker, a marker inside the leftmost one makes the search go on to it
or beyond when the rule is kept. -/
lemma exists_later (hs : r.start ≠ []) (hr : r.OneLine)
    (htake : ∀ f, r.find? s = some f → r.TakesLast s f)
    (hfirst : r.MarkerAt s 0 r.start.length q) (hreturn : s[r.start.length + 1]? = some '\r') :
    ∃ q₀, r.ReadAt s 0 r.start.length q₀ ∧ r.start.length + 2 ≤ q₀ ∧
      ∀ i b q, r.MarkerAt s i b q → 0 < i → i < q₀ + r.closer.length →
        ∃ k b' q', r.ReadAt s k b' q' ∧ i ≤ k ∧ k - r.start.length ∈ r.inner s 0 q₀ ∧
          ∀ i' b q, r.MarkerAt s i' b q → k < i' → q' + r.closer.length ≤ i' := by
  have hpos := List.length_pos_iff.2 hs
  obtain ⟨f, hf⟩ : ∃ f, r.find? s = some f := by
    refine Option.ne_none_iff_exists'.1 fun hnone => ?_
    exact find?_eq_none_iff.1 hnone (holds_iff.2 ⟨0, _, q, hfirst⟩)
  obtain ⟨a, b₀, q₀, h₀, hleft, k, b', q', hfound, hbefore, hafter, hplace⟩ := find?_cases hs hf
  obtain rfl : a = 0 := by
    by_contra ha
    exact hleft 0 (by omega) _ _ hfirst
  obtain rfl : r.start.length = b₀ := hfirst.bracket_eq h₀.toMarkerAt
  have hstop := hfound.stop_le
  have hstart := hfound.start_le
  have hlt := hfound.lt
  -- the rule, in places
  have hrule : ∀ i b q, r.MarkerAt s i b q → k < i → q' + r.closer.length ≤ i := by
    intro i b q hat hi
    by_contra hin
    refine htake f hf i ?_ ?_ (opens_drop_iff.2 ⟨b, q, hat⟩)
    · rw [hbefore, List.length_take]
      omega
    · rw [hafter, List.length_drop]
      omega
  have hq₀ : r.start.length + 2 ≤ q₀ := by
    have := h₀.lt
    have hclen := length_closer (r := r)
    rcases hr.closer_apart h₀.closing hreturn with h | h <;> omega
  refine ⟨q₀, h₀, hq₀, fun i b q hat hi hin => ?_⟩
  -- a marker that ends before `i` would have ended the leftmost one
  have hk : i ≤ k := by
    by_contra hki
    have hend := hrule i b q hat (by omega)
    rcases hplace with ⟨rfl, -⟩ | ⟨j, -, rfl, -⟩
    · have := (hfound.unique h₀).2
      omega
    · have := h₀.shortest q' (by omega) hfound.closing
      omega
  rcases hplace with ⟨rfl, -⟩ | ⟨j, hj, rfl, -⟩
  · omega
  · refine ⟨_, b', q', hfound, hk, ?_, hrule⟩
    rwa [Nat.zero_add, Nat.add_sub_cancel_left]

lemma length_of_mem_openers {u : Text} (hu : u ∈ r.openers) :
    r.start.length + 1 ≤ u.length ∧ u.length ≤ r.start.length + 2 := by
  simp only [openers, List.mem_cons, List.not_mem_nil, or_false] at hu
  rcases hu with rfl | rfl <;> simp

/-- An opener and a closing that share a character share one of the start token: the closing bracket is
neither the opening bracket nor a backslash. -/
lemma lt_of_shared {u t : Text} {i j : Nat} (hu : u ∈ r.openers) (hut : Text.At u t i)
    (hct : Text.At r.closer t j) (hlt : j < i + u.length) : j < i + r.start.length := by
  by_contra hcon
  have hclosing : t[j]? = some r.kind.closing := by
    simpa [closer] using hct.getElem? (i := 0) (by simp)
  have hopener := hut.getElem? (i := j - i) (by omega)
  rw [Nat.add_sub_cancel' (by omega), hclosing] at hopener
  simp only [openers, List.mem_cons, List.not_mem_nil, or_false] at hu
  rcases hu with rfl | rfl <;> rw [List.getElem?_append_right (by omega)] at hopener <;>
    have hmem := List.mem_of_getElem? hopener.symm <;>
    simp only [List.mem_cons, List.not_mem_nil, or_false] at hmem
  · exact opening_ne_closing _ hmem.symm
  · rcases hmem with hmem | hmem
    · exact closing_ne_backslash _ hmem
    · exact opening_ne_closing _ hmem.symm

/-! ### A shared text twice behind a start token -/

/-- A marker whose payload holds a text twice, with carriage returns around it. -/
def twice (r : Rule) (t : Text) : Text :=
  r.start ++ r.kind.opening :: '\r' :: (t ++ '\r' :: (t ++ '\r' :: r.closer))

section Twice

variable (r) (t : Text)

lemma at_first_twice : Text.At t (r.twice t) (r.start.length + 2) :=
  Text.at_of_eq (u := r.start ++ [r.kind.opening, '\r']) (by simp [twice]; rfl) (by simp)

lemma at_second_twice : Text.At t (r.twice t) (r.start.length + 2 + t.length + 1) :=
  Text.at_of_eq (u := r.start ++ r.kind.opening :: '\r' :: (t ++ ['\r'])) (by simp [twice]; rfl)
    (by simp; omega)

lemma at_closer_twice :
    Text.At r.closer (r.twice t) (r.start.length + 2 + t.length + 1 + t.length + 1) :=
  Text.at_of_eq (u := r.start ++ r.kind.opening :: '\r' :: (t ++ '\r' :: (t ++ ['\r']))) (v := [])
    (by simp [twice]) (by simp; omega)

lemma return_twice : (r.twice t)[r.start.length + 1]? = some '\r' :=
  Text.getElem?_of_eq (u := r.start ++ [r.kind.opening]) (by simp [twice]; rfl) (by simp)

lemma return_middle_twice : (r.twice t)[r.start.length + 2 + t.length]? = some '\r' :=
  Text.getElem?_of_eq (u := r.start ++ r.kind.opening :: '\r' :: t) (by simp [twice]; rfl)
    (by simp; omega)

variable {r t}

lemma newline_not_mem_twice (hr : r.OneLine) (ht : '\n' ∉ t) : '\n' ∉ r.twice t := by
  simp only [twice, List.mem_append, List.mem_cons, not_or]
  exact ⟨fun h => (hr _ (Or.inl h)).1 rfl, (bracket_ne_lineBreak r.kind).1.1.symm, by decide, ht,
    by decide, ht, by decide, fun h => (hr.of_mem_closer h).1 rfl⟩

end Twice

/-- A marker that begins with its start token and bracket. -/
lemma exists_markerAt_zero (hopen : r.start ++ [r.kind.opening] <+: s)
    (hclose : Text.At r.closer s q) (hle : r.start.length + 1 ≤ q) (hline : '\n' ∉ s) :
    r.MarkerAt s 0 r.start.length q := by
  obtain ⟨b, hb, h⟩ := markerAt_of_opener (r := r) (k := 0) (u := r.start ++ [r.kind.opening])
    (by simp [openers]) (Text.at_zero.2 hopen) hclose (by simp; omega) hline
  obtain rfl : b = r.start.length := by simpa using hb
  exact h

/-- Where the rule is kept, no opener overlaps the closing of a marker. -/
lemma openersApart_of_takesLast (hs : r.start ≠ []) (he : r.stop ≠ []) (hr : r.OneLine)
    (htake : ∀ s f, r.find? s = some f → r.TakesLast s f) : r.openersApart = true := by
  rw [openersApart, List.all_eq_true]
  intro u hu
  rw [Bool.not_eq_true']
  by_contra hover
  have hpos := List.length_pos_iff.2 hs
  have hpos' := List.length_pos_iff.2 he
  have hclen := length_closer (r := r)
  obtain ⟨hulow, huhigh⟩ := length_of_mem_openers hu
  have hune : u ≠ [] := List.length_pos_iff.1 (by omega)
  obtain ⟨t, i, j, hut, hct, hij, hji, hzero, htlen, hchars⟩ :=
    Text.exists_of_overlaps hune (closer_ne_nil (r := r)) (by simpa using hover)
  have hule := hut.add_length_le hune
  have hcle := hct.add_length_le closer_ne_nil
  have hjs := lt_of_shared hu hut hct hji
  have hline : '\n' ∉ r.twice t := by
    refine newline_not_mem_twice hr fun hmem => ?_
    rcases hchars _ hmem with h | h
    · exact (hr.of_mem_opener hu h).1 rfl
    · exact (hr.of_mem_closer h).1 rfl
  have hend := r.at_closer_twice t
  have hfirst : r.MarkerAt (r.twice t) 0 r.start.length _ :=
    exists_markerAt_zero ⟨_, by simp [twice]; rfl⟩ hend (by omega) hline
  obtain ⟨b₁, hb₁, hm₁⟩ :=
    markerAt_of_opener hu ((r.at_first_twice t).sub hut hule) hend (by omega) hline
  obtain ⟨b₂, hb₂, hm₂⟩ :=
    markerAt_of_opener hu ((r.at_second_twice t).sub hut hule) hend (by omega) hline
  obtain ⟨q₀, h₀, hq₀, hlater⟩ := exists_later hs hr (htake _) hfirst (r.return_twice t)
  have hq₀' := h₀.shortest _ (by omega) ((r.at_first_twice t).sub hct hcle)
  obtain ⟨k, b', q', hfound, hk, hinner, hrule⟩ := hlater _ _ _ hm₁ (by omega) (by omega)
  have hkhigh := (at_of_mem_inner hs hinner).2
  have hend₂ := hrule _ _ _ hm₂ (by omega)
  have hstart := hfound.start_le
  have hlt := hfound.lt
  -- the marker found would end inside the first shared text, behind the closing in it
  rcases hr.closer_apart hfound.closing (r.return_middle_twice t) with h | h <;> omega

/-! ### A start token that overlaps a copy of itself -/

/-- The start tokens that the search looks at share no character. -/
lemma inner_apart (hs : r.start ≠ []) {a i j : Nat} (hi : i ∈ r.inner s a q)
    (hj : j ∈ r.inner s a q) (hij : i < j) : i + r.start.length ≤ j := by
  have : Std.Symm fun i j => i + r.start.length ≤ j ∨ j + r.start.length ≤ i := ⟨fun _ _ h => h.symm⟩
  have hspaced := (inner_spaced (q := q) (s := s) (a := a) hs).imp
    (S := fun i j => i + r.start.length ≤ j ∨ j + r.start.length ≤ i) fun h => Or.inl h
  have := hspaced.forall hi hj (by omega)
  omega

/-- A marker whose payload holds, behind a carriage return, the start of the start token and then a start
token that opens a marker. -/
def stacked (r : Rule) (x : Text) : Text :=
  r.start ++ r.kind.opening :: '\r' :: (x ++ (r.start ++ r.kind.opening :: '\r' :: r.closer))

section Stacked

variable (r) (x : Text)

lemma at_closer_stacked :
    Text.At r.closer (r.stacked x) (r.start.length + 2 + x.length + r.start.length + 2) :=
  Text.at_of_eq
    (u := r.start ++ r.kind.opening :: '\r' :: (x ++ (r.start ++ [r.kind.opening, '\r']))) (v := [])
    (by simp [stacked]) (by simp; omega)

lemma at_opener_stacked :
    Text.At (r.start ++ [r.kind.opening]) (r.stacked x) (r.start.length + 2 + x.length) :=
  Text.at_of_eq (u := r.start ++ r.kind.opening :: '\r' :: x) (by simp [stacked]; rfl)
    (by simp; omega)

lemma return_stacked : (r.stacked x)[r.start.length + 1]? = some '\r' :=
  Text.getElem?_of_eq (u := r.start ++ [r.kind.opening]) (by simp [stacked]; rfl) (by simp)

lemma return_last_stacked :
    (r.stacked x)[r.start.length + 2 + x.length + r.start.length + 1]? = some '\r' :=
  Text.getElem?_of_eq (u := r.start ++ r.kind.opening :: '\r' :: (x ++ (r.start ++ [r.kind.opening])))
    (by simp [stacked]; rfl) (by simp; omega)

lemma length_stacked : (r.stacked x).length =
    r.start.length + 2 + x.length + r.start.length + 2 + r.closer.length := by
  simp [stacked]
  omega

end Stacked

/-- Where the rule is kept, the start token overlaps no copy of itself. -/
lemma startsApart_of_takesLast (hs : r.start ≠ []) (hr : r.OneLine)
    (htake : ∀ s f, r.find? s = some f → r.TakesLast s f) (hopeners : r.openersApart = true) :
    r.startsApart = true := by
  rw [startsApart, Bool.not_eq_true']
  by_contra hover
  have hpos := List.length_pos_iff.2 hs
  -- the start token is `x ++ t` and begins with `t`, so it begins in `x ++ r.start` twice
  obtain ⟨x, t, w, hx, ht, hxt, htw⟩ : ∃ x t w : Text, x ≠ [] ∧ t ≠ [] ∧ r.start = x ++ t ∧
      r.start = t ++ w := by
    obtain ⟨x, t, hx, ht, hagree⟩ := Text.runsInto_iff.1 (by simpa using hover)
    obtain ⟨c, start, hstart⟩ := List.exists_cons_of_ne_nil hs
    rw [hstart, List.tail_cons] at hx
    have hlen := congrArg List.length hx
    rcases hagree with ⟨w, hw⟩ | hpre
    · exact ⟨c :: x, t, w, by simp, ht, by simp [hstart, hx], hw.symm⟩
    · have := hpre.length_le
      simp only [hstart, List.length_cons, List.length_append] at this hlen
      omega
  have hxpos := List.length_pos_iff.2 hx
  have htpos := List.length_pos_iff.2 ht
  have hlen : r.start.length = x.length + t.length := by simp [hxt]
  have hclen := length_closer (r := r)
  have hopener := r.at_opener_stacked x
  have hlow : Text.At r.start (r.stacked x) (r.start.length + 2) := by
    refine Text.at_of_eq (u := r.start ++ [r.kind.opening, '\r'])
      (v := w ++ r.kind.opening :: '\r' :: r.closer) ?_ (by simp)
    have : x ++ r.start = r.start ++ w := by
      conv_lhs => rw [htw, ← List.append_assoc, ← hxt]
    simp only [stacked, List.append_assoc, List.cons_append, List.nil_append]
    rw [← List.append_assoc x, this, List.append_assoc]
  have hhigh : Text.At r.start (r.stacked x) (r.start.length + 2 + x.length) :=
    (List.prefix_append _ _).trans hopener
  have hline : '\n' ∉ r.stacked x := by
    have hstart : '\n' ∉ r.start := fun h => (hr _ (Or.inl h)).1 rfl
    have hxline : '\n' ∉ x := fun h => hstart (by rw [hxt]; simp [h])
    simp only [stacked, List.mem_append, List.mem_cons, not_or]
    exact ⟨hstart, (bracket_ne_lineBreak r.kind).1.1.symm, by decide, hxline, hstart,
      (bracket_ne_lineBreak r.kind).1.1.symm, by decide, fun h => (hr.of_mem_closer h).1 rfl⟩
  have hend := r.at_closer_stacked x
  have hfirst : r.MarkerAt (r.stacked x) 0 r.start.length _ :=
    exists_markerAt_zero ⟨_, by simp [stacked]; rfl⟩ hend (by omega) hline
  obtain ⟨b₁, hb₁, hm₁⟩ := markerAt_of_opener (by simp [openers]) hopener hend
    (by simp; omega) hline
  simp only [List.length_append, List.length_singleton] at hb₁
  obtain ⟨q₀, h₀, hq₀, hlater⟩ := exists_later hs hr (htake _) hfirst (r.return_stacked x)
  -- the leftmost marker reaches beyond the second start token
  have hreach : b₁ < q₀ := by
    refine (opener_apart hopeners hm₁ h₀.closing).resolve_right fun hbefore => ?_
    have hpart := hlow.restrict h₀.closing hq₀ (by omega)
    have := opener_apart hopeners hm₁ (hhigh.sub hpart (by omega))
    omega
  obtain ⟨k, b', q', hfound, hk, hinner, -⟩ := hlater _ _ _ hm₁ (by omega) (by omega)
  have hstop := hfound.stop_le
  rw [length_stacked] at hstop
  have hstart := hfound.start_le
  have hle := hfound.le_start
  have hlt := hfound.lt
  -- the only start token that opens a marker there is the second one
  have hk' : k = r.start.length + 2 + x.length := by
    by_contra hne
    have hb' : b' = r.start.length + 2 + x.length + r.start.length + 1 := by omega
    have := hfound.opening
    rw [hb', return_last_stacked, Option.some.injEq] at this
    exact (bracket_ne_lineBreak r.kind).1.2 this.symm
  -- the search takes the first of the two, so it does not look at the second
  have htaken : r.start.length + 2 - (0 + r.start.length) ∈ r.inner (r.stacked x) 0 q₀ := by
    refine mem_inner hs hlow (by omega) (by omega) fun j hj _ hover' hat => ?_
    have hnoret : '\r' ∉ r.start := fun h => (hr _ (Or.inl h)).2 rfl
    rcases apart_of_return hnoret hat (r.return_stacked x) with h | h <;> omega
  have := inner_apart hs htaken hinner (by omega)
  omega

/-! ## The rule in bytes -/

/-- The rule on the place of a match: no well-formed marker begins behind the first byte of the match
and before its end. -/
def NoneInside (r : Rule) (s : Text) (m : Span) : Prop :=
  ∀ before rest : Text, s = before ++ rest → m.start < Text.byteLength before →
    Text.byteLength before < m.stop → ¬ r.Opens rest

/-- A match is the marker found in the text behind what is skipped. -/
lemma exists_find_of_findFrom {offset : Nat} {m : Span} (h : r.findFrom? s offset = some m) :
    ∃ skipped rest f, s = skipped ++ rest ∧ r.find? rest = some f ∧
      m = r.spanOf (Text.byteLength skipped) f := by
  rw [findFrom?] at h
  split at h
  · simp at h
  · obtain ⟨f, hf, rfl⟩ := Option.map_eq_some_iff.1 h
    exact ⟨_, _, f, (Text.splitAtByte_append offset s).symm, hf, rfl⟩

lemma findFrom_zero (s : Text) : r.findFrom? s 0 = (r.find? s).map (r.spanOf 0) := by
  cases s <;> simp [findFrom?, Text.splitAtByte]

/-- Places between the ends of a match in bytes are places between its ends in characters. -/
lemma noneInside_iff {skipped : Text} {f : Found} (hf : r.find? s = some f) :
    r.NoneInside (skipped ++ s) (r.spanOf (Text.byteLength skipped) f) ↔ r.TakesLast s f := by
  have hparts := (eq_of_find? hf).1
  have hlen := congrArg List.length hparts
  simp only [List.length_append] at hlen
  -- both ends of the match are byte lengths of beginnings of the text
  have hstart : (r.spanOf (Text.byteLength skipped) f).start =
      Text.byteLength ((skipped ++ s).take (skipped.length + f.before.length)) := by
    rw [List.take_length_add_append, hparts, List.append_assoc, List.take_left]
    simp [spanOf]
  have hstop : (r.spanOf (Text.byteLength skipped) f).stop =
      Text.byteLength ((skipped ++ s).take (skipped.length + (s.length - f.after.length))) := by
    have : s.length - f.after.length = (f.before ++ r.written f.payload).length := by
      rw [List.length_append]
      omega
    rw [List.take_length_add_append, this, hparts, List.take_left]
    simp [spanOf, Nat.add_assoc]
  constructor
  · intro hnone k hlow hhigh
    have hcut : skipped ++ s = (skipped ++ s.take k) ++ s.drop k := by simp
    have htake : skipped ++ s.take k = (skipped ++ s).take (skipped.length + k) := by
      rw [List.take_length_add_append]
    refine hnone _ _ hcut ?_ ?_
    · rw [hstart, htake]
      exact Text.byteLength_take_lt (by omega) (by simp; omega)
    · rw [hstop, htake]
      exact Text.byteLength_take_lt (by omega) (by simp; omega)
  · intro hlast before rest hcut hlow hhigh
    have htake : before = (skipped ++ s).take before.length := by simp [hcut]
    rw [hstart, htake] at hlow
    rw [hstop, htake] at hhigh
    have hlow := Text.lt_of_byteLength_take_lt hlow
    have hhigh := Text.lt_of_byteLength_take_lt hhigh
    have hrest : rest = s.drop (before.length - skipped.length) := by
      have hdrop := congrArg (List.drop before.length) hcut
      rw [List.drop_left, List.drop_append, List.drop_eq_nil_of_le (by omega)] at hdrop
      simpa using hdrop.symm
    rw [hrest]
    exact hlast _ (by omega) (by omega)

end Rule

namespace Grammar

lemma oneLine (g : Grammar) (kind : Kind) : (g.rule kind).OneLine := by
  rintro c (hc | hc)
  · exact g.ne_lineBreak_of_mem_start kind hc
  · exact g.ne_lineBreak_of_mem_stop kind hc

/-- **The rule of the shortest run.** The search for a marker, from any place of any text, never takes a
match with a well-formed marker beginning inside it exactly when the tokens keep apart. -/
theorem shortest_run_iff (g : Grammar) (kind : Kind) :
    (∀ s offset m, (g.rule kind).findFrom? s offset = some m → (g.rule kind).NoneInside s m) ↔
      (g.rule kind).keepsApart = true := by
  have hs := g.start_ne_nil kind
  constructor
  · intro hrule
    have htake : ∀ s f, (g.rule kind).find? s = some f → (g.rule kind).TakesLast s f := by
      intro s f hf
      have hnone : (g.rule kind).NoneInside ([] ++ s) ((g.rule kind).spanOf 0 f) := by
        refine hrule s 0 _ ?_
        rw [Rule.findFrom_zero, hf]
        rfl
      exact (Rule.noneInside_iff hf).1 hnone
    have hopeners := Rule.openersApart_of_takesLast hs (g.stop_ne_nil kind) (g.oneLine kind) htake
    have hstarts := Rule.startsApart_of_takesLast hs (g.oneLine kind) htake hopeners
    rw [Rule.keepsApart, hstarts, hopeners]
    rfl
  · intro hapart s offset m hm
    obtain ⟨skipped, rest, f, rfl, hf, rfl⟩ := Rule.exists_find_of_findFrom hm
    exact (Rule.noneInside_iff hf).2 (Rule.takesLast_of_keepsApart hs hapart hf)

lemma keepsApart_standard (kind : Kind) : (standard.rule kind).keepsApart = true := by
  cases kind <;> decide

/-- Angle brackets around inline payloads and square brackets around display payloads. -/
def angled : Grammar :=
  ⟨⟨"<<", ">>", "[[", "]]"⟩, by decide⟩

/-- The start token of two equal characters overlaps itself. In `<<(a) <<<(b)>>` the search finds the whole
text, and the marker `<<(b)>>` begins inside it. -/
theorem marker_inside_match :
    (angled.rule .inline).findFrom? "<<(a) <<<(b)>>".toList 0 =
        some ⟨.inline, 0, 14, "(a) <<<(b)".toList⟩ ∧
      ¬ (angled.rule .inline).NoneInside "<<(a) <<<(b)>>".toList
        ⟨.inline, 0, 14, "(a) <<<(b)".toList⟩ := by
  refine ⟨by decide, fun hnone => ?_⟩
  have hopens : (angled.rule .inline).Opens "<<(b)>>".toList :=
    ⟨_, ⟨[], ['b'], [], Or.inl rfl, Or.inl rfl, by decide, rfl⟩, List.prefix_rfl⟩
  exact hnone "<<(a) <".toList "<<(b)>>".toList rfl (by decide) (by decide) hopens

end Grammar

end MarkedMath
