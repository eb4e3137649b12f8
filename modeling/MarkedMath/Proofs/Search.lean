import MarkedMath.Proofs.Reading

/-!
# What the search for a marker finds

The functions that read markers, in terms of the places of `Rule.MarkerAt`: a marker is read at a place
exactly when one stands there, and up to its first end; the leftmost marker has none before it; the search
ends at the leftmost marker or at the last start token inside it that opens a marker.
-/

namespace MarkedMath

namespace Rule

variable {r : Rule} {s t : Text} {k b q : Nat}

/-! ## Reading at a place -/

lemma at_closer_cons {c : Char} :
    Text.At r.closer (c :: s) 0 ↔
      c = r.kind.closing ∧ ∃ rest, Text.afterToken? r.stop s = some rest := by
  rw [Text.at_zero, closer, List.cons_prefix_cons, List.prefix_iff_exists_eq_append]
  simp only [Text.afterToken?_eq_some_iff]
  exact and_congr_left fun _ => eq_comm

/-- A payload is read up to the first closing. -/
lemma close?_some {payload rest : Text} (h : r.close? s = some (payload, rest)) :
    ∃ run, payload = run ++ [r.kind.closing] ∧ s = run ++ (r.closer ++ rest) ∧ '\n' ∉ run ∧
      ∀ i < run.length, ¬ Text.At r.closer s i := by
  induction s generalizing payload with
  | nil => simp [close?] at h
  | cons c s ih =>
    rw [close?] at h
    split at h
    · next found =>
      split at found
      · next hc =>
        obtain ⟨rfl, rfl⟩ := by simpa using h
        refine ⟨[], by simp [hc], ?_, by simp, by simp⟩
        simp [closer, hc, Text.afterToken?_eq_some_iff.1 found]
      · simp at found
    · next found =>
      split at h
      · simp at h
      · next hline =>
        obtain ⟨⟨p, q⟩, hp, heq⟩ := Option.map_eq_some_iff.1 h
        obtain ⟨rfl, rfl⟩ := by simpa using heq
        obtain ⟨run, rfl, rfl, hrun, hfirst⟩ := ih hp
        refine ⟨c :: run, rfl, rfl, by simp [hrun, Ne.symm hline], fun i hi => ?_⟩
        cases i with
        | zero =>
          rw [at_closer_cons]
          rintro ⟨rfl, rest, hrest⟩
          simp [hrest] at found
        | succ i =>
          simp only [List.length_cons] at hi
          exact hfirst i (by omega)

/-- Every closing on the line is a reason to read a payload. -/
lemma close?_isSome {i : Nat} (hat : Text.At r.closer s i) (hline : ∀ j < i, s[j]? ≠ some '\n') :
    (r.close? s).isSome = true := by
  induction s generalizing i with
  | nil => simp [Text.At] at hat
  | cons c s ih =>
    rw [close?]
    split
    · rfl
    · next found =>
      cases i with
      | zero =>
        obtain ⟨rfl, rest, hrest⟩ := at_closer_cons.1 hat
        simp [hrest] at found
      | succ i =>
        have hc : c ≠ '\n' := fun hc => hline 0 (by omega) (by simp [hc])
        rw [if_neg hc, Option.isSome_map]
        exact ih hat fun j hj => hline (j + 1) (by omega)

lemma body?_escape {first : Text} (hfirst : IsEscape first) (u : Text) :
    r.body? (first ++ r.kind.opening :: u) =
      (r.close? u).map fun (payload, rest) => (first ++ r.kind.opening :: payload, rest) := by
  rcases hfirst with rfl | rfl
  · simp [body?]
  · simp [body?, (opening_ne_backslash r.kind).symm]

lemma body?_some {payload rest : Text} (h : r.body? t = some (payload, rest)) :
    ∃ first u, IsEscape first ∧ t = first ++ r.kind.opening :: u := by
  unfold body? at h
  split at h
  · simp at h
  · next c u =>
    split at h
    · next hc => exact ⟨[], u, Or.inl rfl, by simp [hc]⟩
    · split at h
      · next hc =>
        subst hc
        split at h
        · simp at h
        · next d u =>
          split at h
          · next hd => exact ⟨['\\'], u, Or.inr rfl, by simp [hd]⟩
          · simp at h
      · simp at h

/-- What is read at a place is the marker with the first end. -/
lemma payload?_some {payload rest : Text} (h : r.payload? (s.drop k) = some (payload, rest)) :
    ∃ b q, r.ReadAt s k b q ∧ rest = s.drop (q + r.closer.length) ∧
      k + r.start.length + payload.length = q + 1 := by
  obtain ⟨t, ht, hbody⟩ := Option.bind_eq_some_iff.1 h
  obtain ⟨first, u, hfirst, rfl⟩ := body?_some hbody
  rw [body?_escape hfirst] at hbody
  obtain ⟨⟨p, rest'⟩, hclose, heq⟩ := Option.map_eq_some_iff.1 hbody
  obtain ⟨rfl, rfl⟩ := by simpa using heq
  obtain ⟨run, rfl, rfl, hrun, hshort⟩ := close?_some hclose
  have hdrop := Text.afterToken?_eq_some_iff.1 ht
  refine ⟨_, _, ⟨markerAt_of_drop_eq hfirst hrun hdrop, fun q' hb hq' => ?_⟩, ?_, ?_⟩
  · -- an earlier closing would stand inside the run
    by_contra hlt
    obtain ⟨i, rfl⟩ : ∃ i, q' = k + ((r.start ++ (first ++ [r.kind.opening])).length + i) :=
      ⟨q' - (k + r.start.length + first.length + 1), by simp; omega⟩
    rw [← Text.at_drop, hdrop] at hq'
    have hsplit : r.start ++ (first ++ r.kind.opening :: (run ++ (r.closer ++ rest'))) =
        (r.start ++ (first ++ [r.kind.opening])) ++ (run ++ (r.closer ++ rest')) := by simp
    rw [hsplit, Text.at_append_right] at hq'
    refine hshort i ?_ hq'
    simp at hlt
    omega
  · -- what is left begins behind the end token
    have hlen : r.start.length + first.length + 1 + run.length + r.closer.length =
        (r.start ++ (first ++ r.kind.opening :: (run ++ r.closer))).length := by
      simp
      omega
    have hall : s.drop k = (r.start ++ (first ++ r.kind.opening :: (run ++ r.closer))) ++ rest' := by
      rw [hdrop]
      simp
    have : s.drop (k + (r.start.length + first.length + 1 + run.length + r.closer.length)) =
        rest' := by
      rw [← List.drop_drop, hall, hlen, List.drop_left]
    rw [← this]
    congr 1
    omega
  · simp
    omega

/-- A marker is read at a place exactly when one stands there. -/
lemma payload?_isSome_iff :
    (r.payload? (s.drop k)).isSome = true ↔ ∃ b q, r.MarkerAt s k b q := by
  constructor
  · intro h
    obtain ⟨⟨payload, rest⟩, hread⟩ := Option.isSome_iff_exists.1 h
    obtain ⟨b, q, hat, -⟩ := payload?_some hread
    exact ⟨b, q, hat.toMarkerAt⟩
  · rintro ⟨b, q, h⟩
    obtain ⟨first, run, rest, hfirst, hrun, hdrop⟩ := h.drop_eq
    have hclose : (r.close? (run ++ (r.closer ++ rest))).isSome = true := by
      refine close?_isSome (i := run.length) (Text.at_append run r.closer rest) fun j hj hget => ?_
      rw [List.getElem?_append_left hj] at hget
      exact hrun (List.mem_of_getElem? hget)
    rw [payload?, Text.afterToken?_eq_some_iff.2 hdrop, Option.bind_some, body?_escape hfirst,
      Option.isSome_map, hclose]

lemma payload?_eq_none_iff :
    r.payload? (s.drop k) = none ↔ ∀ b q, ¬ r.MarkerAt s k b q := by
  rw [← Option.not_isSome_iff_eq_none, payload?_isSome_iff]
  simp

@[simp] lemma payload?_nil : r.payload? [] = none := by
  cases h : r.start <;> simp [payload?, Text.afterToken?, body?, h]

/-- Two readings at one place are the same. -/
lemma ReadAt.unique {b' q' : Nat} (h : r.ReadAt s k b q) (h' : r.ReadAt s k b' q') :
    b = b' ∧ q = q' := by
  obtain rfl := h.bracket_eq h'.toMarkerAt
  exact ⟨rfl, Nat.le_antisymm (h.shortest q' h'.lt h'.closing) (h'.shortest q h.lt h.closing)⟩

/-! ## The leftmost marker -/

lemma leftmost?_some {f : Found} (h : r.leftmost? s = some f) :
    r.payload? (s.drop f.before.length) = some (f.payload, f.after) ∧
      ∀ k < f.before.length, r.payload? (s.drop k) = none := by
  induction s generalizing f with
  | nil => simp [leftmost?] at h
  | cons c s ih =>
    rw [leftmost?] at h
    split at h
    · next hread =>
      obtain rfl := by simpa using h
      exact ⟨hread, by simp⟩
    · next hnone =>
      obtain ⟨g, hg, rfl⟩ := Option.map_eq_some_iff.1 h
      refine ⟨(ih hg).1, fun k hk => ?_⟩
      cases k with
      | zero => exact hnone
      | succ k =>
        simp only [List.length_cons] at hk
        exact (ih hg).2 k (by omega)

lemma leftmost?_eq_none (h : r.leftmost? s = none) (k : Nat) : r.payload? (s.drop k) = none := by
  induction s generalizing k with
  | nil => simp
  | cons c s ih =>
    rw [leftmost?] at h
    split at h
    · simp at h
    · next hnone =>
      cases k with
      | zero => exact hnone
      | succ k => exact ih (Option.map_eq_none_iff.1 h) k

/-! ## The marker that is found -/

/-- What the last place of an increasing list yields, when some place yields anything. -/
lemma findSome?_reverse_cases {α : Type*} {l : List Nat} (hl : l.Pairwise (· < ·))
    (f : Nat → Option α) :
    (l.reverse.findSome? f = none ∧ ∀ j ∈ l, f j = none) ∨
      ∃ j ∈ l, ∃ a, f j = some a ∧ l.reverse.findSome? f = some a ∧
        ∀ j' ∈ l, j < j' → f j' = none := by
  induction l using List.reverseRecOn with
  | nil => simp
  | append_singleton l x ih =>
    obtain ⟨hl, -, hx⟩ := List.pairwise_append.1 hl
    rw [List.reverse_append, List.reverse_singleton, List.singleton_append, List.findSome?_cons]
    cases hfx : f x with
    | some a =>
      refine Or.inr ⟨x, by simp, a, hfx, rfl, fun j' hj' hlt => ?_⟩
      rcases List.mem_append.1 hj' with hj' | hj'
      · have := hx j' hj' x (by simp)
        omega
      · simp only [List.mem_singleton] at hj'
        omega
    | none =>
      rcases ih hl with ⟨hnone, hall⟩ | ⟨j, hj, a, hfj, hfound, hlater⟩
      · refine Or.inl ⟨hnone, fun j hj => ?_⟩
        rcases List.mem_append.1 hj with hj | hj
        · exact hall j hj
        · rw [List.mem_singleton.1 hj, hfx]
      · refine Or.inr ⟨j, by simp [hj], a, hfj, hfound, fun j' hj' hlt => ?_⟩
        rcases List.mem_append.1 hj' with hj' | hj'
        · exact hlater j' hj' hlt
        · rw [List.mem_singleton.1 hj', hfx]

/-- The start tokens inside a marker that begins at `a` and has its closing bracket at `q`: how many
characters they stand behind its own start token. -/
def inner (r : Rule) (s : Text) (a q : Nat) : List Nat :=
  Text.occurrences r.start ((s.take (q + r.closer.length)).drop (a + r.start.length))

lemma at_of_mem_inner {a j : Nat} (hs : r.start ≠ []) (h : j ∈ r.inner s a q) :
    Text.At r.start s (a + r.start.length + j) ∧
      a + r.start.length + j + r.start.length ≤ q + r.closer.length := by
  have hat := Text.at_of_mem_occurrences h
  rw [Text.at_drop] at hat
  have hle := hat.add_length_le hs
  rw [List.length_take] at hle
  have hfull := hat.append_left hs (s.drop (q + r.closer.length))
  rw [List.take_append_drop] at hfull
  exact ⟨hfull, by omega⟩

/-- A start token inside the marker that no other one overlaps is found. -/
lemma mem_inner {a i : Nat} (hs : r.start ≠ []) (hat : Text.At r.start s i)
    (hlow : a + r.start.length ≤ i) (hhigh : i + r.start.length ≤ q + r.closer.length)
    (hfree : ∀ j < i, a + r.start.length ≤ j → i < j + r.start.length → ¬ Text.At r.start s j) :
    i - (a + r.start.length) ∈ r.inner s a q := by
  have hlen := hat.add_length_le hs
  refine Text.mem_occurrences hs ?_ fun j hj hover hat' => ?_
  · rw [Text.at_drop, Nat.add_sub_cancel' hlow]
    rw [← List.take_append_drop (q + r.closer.length) s] at hat
    refine hat.of_append ?_
    rw [List.length_take]
    omega
  · rw [Text.at_drop] at hat'
    have := hat'.append_left hs (s.drop (q + r.closer.length))
    rw [List.take_append_drop] at this
    exact hfree _ (by omega) (by omega) (by omega) this

lemma inner_spaced {a : Nat} (hs : r.start ≠ []) :
    (r.inner s a q).Pairwise fun i j => i + r.start.length ≤ j :=
  Text.occurrences_spaced hs _

/-! ### The parts of a text around a piece of it -/

lemma drop_within {u w v : Text} {j : Nat} (hj : j ≤ w.length) :
    w.drop j ++ v = (u ++ (w ++ v)).drop (u.length + j) := by
  rw [← List.drop_drop, List.drop_left, List.drop_append_of_le_length hj]

lemma take_within {u w v : Text} {j : Nat} (hj : j ≤ w.length) :
    u ++ w.take j = (u ++ (w ++ v)).take (u.length + j) := by
  rw [List.take_length_add_append, List.take_append_of_le_length hj]

/-- The marker found is the leftmost one, or the one that the last start token inside it opens. -/
theorem find?_cases (hs : r.start ≠ []) {f : Found} (h : r.find? s = some f) :
    ∃ a b₀ q₀, r.ReadAt s a b₀ q₀ ∧ (∀ i < a, ∀ b q, ¬ r.MarkerAt s i b q) ∧
      ∃ k b q, r.ReadAt s k b q ∧ f.before = s.take k ∧
        f.after = s.drop (q + r.closer.length) ∧
        (k = a ∧ (∀ j ∈ r.inner s a q₀, ∀ b q, ¬ r.MarkerAt s (a + r.start.length + j) b q) ∨
          ∃ j ∈ r.inner s a q₀, k = a + r.start.length + j ∧
            ∀ j' ∈ r.inner s a q₀, j < j' →
              ∀ b q, ¬ r.MarkerAt s (a + r.start.length + j') b q) := by
  obtain ⟨outer, houter, rfl⟩ := Option.map_eq_some_iff.1 h
  obtain ⟨hread, hbefore⟩ := leftmost?_some houter
  obtain ⟨b₀, q₀, hat, hafter, hlen⟩ := payload?_some hread
  -- the part in which start tokens are looked for
  set inside := outer.payload ++ r.stop with hinside_def
  set front := outer.before ++ r.start with hfront_def
  have hs_eq : s = front ++ (inside ++ outer.after) := by
    rw [(eq_of_leftmost? houter).1, hfront_def, hinside_def]
    simp [written]
  have hfront : front.length = outer.before.length + r.start.length := by simp [hfront_def]
  have hinside_len : front.length + inside.length = q₀ + r.closer.length := by
    rw [hfront, hinside_def, List.length_append, length_closer]
    omega
  have hinner : Text.occurrences r.start inside = r.inner s outer.before.length q₀ := by
    rw [inner, ← hfront, ← hinside_len, hs_eq, ← take_within le_rfl, List.take_length,
      List.drop_left]
  have hbound : ∀ j ∈ r.inner s outer.before.length q₀, j ≤ inside.length := by
    intro j hj
    have := (at_of_mem_inner hs hj).2
    omega
  have hdrop : ∀ j ∈ r.inner s outer.before.length q₀, inside.drop j ++ outer.after =
      s.drop (outer.before.length + r.start.length + j) := by
    intro j hj
    rw [drop_within (u := front) (hbound j hj), ← hs_eq, hfront]
  have hsorted : (r.inner s outer.before.length q₀).Pairwise (· < ·) :=
    (inner_spaced hs).imp fun hij => by
      have := List.length_pos_iff.2 hs
      omega
  refine ⟨outer.before.length, b₀, q₀, hat, fun i hi => payload?_eq_none_iff.1 (hbefore i hi), ?_⟩
  simp only [tighten, ← hinside_def, hinner]
  -- the start tokens inside are tried from the last one on
  rcases findSome?_reverse_cases hsorted (fun skipped =>
      (r.payload? (inside.drop skipped ++ outer.after)).map fun p =>
        (⟨outer.before ++ r.start ++ inside.take skipped, p.1, p.2⟩ : Found))
    with ⟨hnone, hall⟩ | ⟨j, hj, found, hfound, hsome, hlater⟩
  · refine ⟨_, b₀, q₀, hat, ?_, ?_, Or.inl ⟨rfl, fun j hj => ?_⟩⟩
    · rw [hnone, hs_eq, hfront_def, List.append_assoc]
      simp
    · rw [hnone]
      exact hafter
    · rw [← payload?_eq_none_iff, ← hdrop j hj]
      exact Option.map_eq_none_iff.1 (hall j hj)
  · obtain ⟨⟨payload, rest⟩, hp, rfl⟩ := Option.map_eq_some_iff.1 hfound
    rw [hdrop j hj] at hp
    obtain ⟨b, q, hat', hafter', -⟩ := payload?_some hp
    refine ⟨_, b, q, hat', ?_, ?_, Or.inr ⟨j, hj, rfl, fun j' hj' hlt => ?_⟩⟩
    · rw [hsome, hs_eq, ← hfront, ← take_within (hbound j hj)]
      rfl
    · rw [hsome]
      exact hafter'
    · rw [← payload?_eq_none_iff, ← hdrop j' hj']
      exact Option.map_eq_none_iff.1 (hlater j' hj' hlt)

/-- What is read is a well-formed marker. -/
lemma isMarker_of_payload? {payload rest : Text} (h : r.payload? s = some (payload, rest)) :
    r.IsMarker (r.written payload) := by
  obtain ⟨t, -, hbody⟩ := Option.bind_eq_some_iff.1 h
  obtain ⟨first, u, hfirst, rfl⟩ := body?_some hbody
  rw [body?_escape hfirst] at hbody
  obtain ⟨⟨p, rest'⟩, hclose, heq⟩ := Option.map_eq_some_iff.1 hbody
  obtain ⟨rfl, rfl⟩ := by simpa using heq
  obtain ⟨run, rfl, -, hrun, -⟩ := close?_some hclose
  exact ⟨first, run, [], hfirst, Or.inl rfl, hrun, by simp [written, closer]⟩

/-- What is found is a well-formed marker, the leftmost one or one inside it. -/
lemma isMarker_of_find? {f : Found} (h : r.find? s = some f) : r.IsMarker (r.written f.payload) := by
  obtain ⟨outer, houter, rfl⟩ := Option.map_eq_some_iff.1 h
  simp only [tighten]
  generalize hfound : List.findSome? _ (Text.occurrences r.start _).reverse = found
  cases found with
  | none => exact isMarker_of_payload? (leftmost?_some houter).1
  | some inner =>
    obtain ⟨skipped, -, hs⟩ := List.exists_of_findSome?_eq_some hfound
    obtain ⟨⟨payload, after⟩, hread, rfl⟩ := Option.map_eq_some_iff.1 hs
    exact isMarker_of_payload? hread

lemma find?_eq_none_iff : r.find? s = none ↔ ¬ r.Holds s := by
  rw [find?, Option.map_eq_none_iff, holds_iff]
  constructor
  · rintro h ⟨k, b, q, hat⟩
    exact payload?_eq_none_iff.1 (leftmost?_eq_none h k) b q hat
  · intro h
    by_contra hne
    obtain ⟨f, hf⟩ := Option.ne_none_iff_exists'.1 hne
    have hread := (leftmost?_some hf).1
    obtain ⟨b, q, hat, -⟩ := payload?_some hread
    exact h ⟨_, b, q, hat.toMarkerAt⟩

/-- Whether a text holds a marker is decided by searching for one. -/
instance (r : Rule) (s : Text) : Decidable (r.Holds s) :=
  decidable_of_iff ((r.find? s).isSome = true) (by
    rw [← not_iff_not, ← find?_eq_none_iff, Option.not_isSome_iff_eq_none])

end Rule

end MarkedMath
