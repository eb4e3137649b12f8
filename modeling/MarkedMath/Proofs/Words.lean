import Mathlib.Data.List.Infix
import Mathlib.Tactic.Common
import MarkedMath.Text

/-!
# Words in texts

Where a word stands in a text, and when two words can stand in one text so that they share a character.
Places are counted in characters. The occurrences that a search from left to right finds are at least
the length of the word apart; an occurrence that overlaps no earlier one is among them.
-/

namespace MarkedMath.Text

/-- The word stands in the text behind its first `k` characters. -/
def At (w s : Text) (k : Nat) : Prop :=
  w <+: s.drop k

lemma at_zero {w s : Text} : At w s 0 ↔ w <+: s := by
  simp [At]

lemma at_append (u w v : Text) : At w (u ++ (w ++ v)) u.length := by
  simp [At]

lemma at_of_eq {u w v s : Text} {k : Nat} (hs : s = u ++ (w ++ v)) (hk : k = u.length) :
    At w s k := by
  subst hs hk
  exact at_append u w v

lemma At.add_length_le {w s : Text} {k : Nat} (h : At w s k) (hw : w ≠ []) :
    k + w.length ≤ s.length := by
  have hlen := List.IsPrefix.length_le h
  have hpos := List.length_pos_iff.2 hw
  rw [List.length_drop] at hlen
  omega

lemma At.getElem? {w s : Text} {k i : Nat} (h : At w s k) (hi : i < w.length) :
    s[k + i]? = w[i]? := by
  obtain ⟨t, ht⟩ := h
  rw [← List.getElem?_drop, ← ht, List.getElem?_append_left hi]

/-- A word stands where its characters stand. -/
lemma at_of_getElem? {w s : Text} {k : Nat} (h : ∀ i < w.length, s[k + i]? = w[i]?) : At w s k := by
  refine List.prefix_iff_getElem?.2 fun i hi => ?_
  rw [List.getElem?_drop, h i hi, List.getElem?_eq_getElem hi]

lemma at_drop {w s : Text} {j k : Nat} : At w (s.drop j) k ↔ At w s (j + k) := by
  simp [At]

lemma at_append_right {w s t : Text} {k : Nat} : At w (t ++ s) (t.length + k) ↔ At w s k := by
  simp [At, List.drop_append, List.drop_eq_nil_of_le]

/-- A word that stands in the front part of a text stands in the text. -/
lemma At.append_left {w s : Text} {k : Nat} (h : At w s k) (hw : w ≠ []) (t : Text) :
    At w (s ++ t) k := by
  have hlen := h.add_length_le hw
  rw [At, List.drop_append_of_le_length (by omega)]
  exact List.prefix_append_of_prefix h

/-- A word that ends within the front part of a text stands in that part. -/
lemma At.of_append {w s t : Text} {k : Nat} (h : At w (s ++ t) k) (hk : k + w.length ≤ s.length) :
    At w s k := by
  refine at_of_getElem? fun i hi => ?_
  rw [← h.getElem? hi, List.getElem?_append_left (by omega)]

/-- The part of a word stands where the word puts it. -/
lemma At.sub {u w s : Text} {j k : Nat} (hw : At w s k) (hu : At u w j)
    (hj : j + u.length ≤ w.length) : At u s (k + j) := by
  refine at_of_getElem? fun i hi => ?_
  rw [Nat.add_assoc, hw.getElem? (by omega), hu.getElem? hi]

lemma getElem?_of_eq {u v s : Text} {c : Char} {k : Nat} (hs : s = u ++ c :: v)
    (hk : k = u.length) : s[k]? = some c := by
  subst hs hk
  simp

/-- A word that stands within another one is a part of it. -/
lemma At.restrict {u w s : Text} {j k : Nat} (hw : At w s k) (hu : At u s j) (hkj : k ≤ j)
    (hj : j + u.length ≤ k + w.length) : At u w (j - k) := by
  refine at_of_getElem? fun i hi => ?_
  rw [← hu.getElem? hi, ← hw.getElem? (by omega)]
  congr 1
  omega

/-- A word stands in a text exactly when the text mentions it. -/
lemma mentions_iff_isInfix {w s : Text} : mentions w s = true ↔ w <:+: s := by
  induction s with
  | nil => simp [mentions]
  | cons c s ih =>
    have hhead : (afterToken? w (c :: s)).isSome = true ↔ w <+: c :: s := by
      simp only [Option.isSome_iff_exists, afterToken?_eq_some_iff]
      exact List.prefix_iff_exists_eq_append.symm
    rw [mentions, Bool.or_eq_true, hhead, ih, List.infix_cons_iff]

lemma isInfix_iff_exists_at {w s : Text} : w <:+: s ↔ ∃ k, k ≤ s.length ∧ At w s k := by
  constructor
  · rintro ⟨u, v, rfl⟩
    exact ⟨u.length, by simp, by simpa using at_append u w v⟩
  · rintro ⟨k, -, t, ht⟩
    exact ⟨s.take k, t, by rw [List.append_assoc, ht, List.take_append_drop]⟩

/-! ## Occurrences from left to right -/

lemma afterToken?_isSome_iff {w s : Text} : (afterToken? w s).isSome = true ↔ At w s 0 := by
  simp only [Option.isSome_iff_exists, afterToken?_eq_some_iff, at_zero]
  exact List.prefix_iff_exists_eq_append.symm

/-- What the walk finds stands in the text, behind the characters that are still busy. -/
lemma at_of_mem_occurrencesFrom {w s : Text} {index busy k : Nat}
    (h : k ∈ occurrencesFrom w index busy s) :
    ∃ j, k = index + j ∧ busy ≤ j ∧ At w s j := by
  induction s generalizing index busy with
  | nil => cases busy <;> simp [occurrencesFrom] at h
  | cons c s ih =>
    cases busy with
    | succ busy =>
      obtain ⟨j, rfl, hj, hat⟩ := ih h
      exact ⟨j + 1, by omega, by omega, hat⟩
    | zero =>
      rw [occurrencesFrom] at h
      split at h
      · next hhead =>
        rcases List.mem_cons.1 h with rfl | h
        · exact ⟨0, rfl, le_rfl, afterToken?_isSome_iff.1 hhead⟩
        · obtain ⟨j, rfl, hj, hat⟩ := ih h
          exact ⟨j + 1, by omega, by omega, hat⟩
      · obtain ⟨j, rfl, hj, hat⟩ := ih h
        exact ⟨j + 1, by omega, by omega, hat⟩

lemma occurrencesFrom_spaced {w s : Text} {index busy : Nat} (hw : w ≠ []) :
    (occurrencesFrom w index busy s).Pairwise fun i j => i + w.length ≤ j := by
  have hpos := List.length_pos_iff.2 hw
  induction s generalizing index busy with
  | nil => cases busy <;> simp [occurrencesFrom]
  | cons c s ih =>
    cases busy with
    | succ busy => exact ih
    | zero =>
      rw [occurrencesFrom]
      split
      · refine List.pairwise_cons.2 ⟨fun k hk => ?_, ih⟩
        obtain ⟨j, rfl, hj, -⟩ := at_of_mem_occurrencesFrom hk
        omega
      · exact ih

/-- An occurrence behind the busy characters is found when no earlier one reaches into it. -/
lemma mem_occurrencesFrom {w s : Text} {index busy k : Nat} (hw : w ≠ []) (hat : At w s k)
    (hbusy : busy ≤ k) (hfree : ∀ j < k, busy ≤ j → k < j + w.length → ¬ At w s j) :
    index + k ∈ occurrencesFrom w index busy s := by
  have hpos := List.length_pos_iff.2 hw
  induction s generalizing index busy k with
  | nil => simp [At] at hat; exact absurd hat hw
  | cons c s ih =>
    -- the rest of the text, once the head of the text is behind
    have step (busy' k' : Nat) (hk : k = k' + 1) (hle : busy' ≤ k')
        (hge : ∀ j < k', busy' ≤ j → busy ≤ j + 1) :
        index + k ∈ occurrencesFrom w (index + 1) busy' s := by
      subst hk
      have hmem : index + 1 + k' ∈ occurrencesFrom w (index + 1) busy' s :=
        ih hat hle fun j hj hb hover => hfree (j + 1) (by omega) (hge j hj hb) (by omega)
      rwa [Nat.add_assoc, Nat.add_comm 1] at hmem
    cases busy with
    | succ busy =>
      cases k with
      | zero => omega
      | succ k => exact step busy k rfl (by omega) fun j _ hb => by omega
    | zero =>
      rw [occurrencesFrom]
      split
      · next hhead =>
        cases k with
        | zero => simp
        | succ k =>
          -- the occurrence at the head ends before the one that is looked for
          have hend : w.length ≤ k + 1 := by
            by_contra hlt
            exact hfree 0 (by omega) le_rfl (by omega) (afterToken?_isSome_iff.1 hhead)
          exact List.mem_cons_of_mem _ (step _ k rfl (by omega) fun j _ _ => by omega)
      · next hhead =>
        cases k with
        | zero => exact absurd (afterToken?_isSome_iff.2 hat) hhead
        | succ k => exact step 0 k rfl (by omega) fun j _ _ => by omega

lemma at_of_mem_occurrences {w s : Text} {k : Nat} (h : k ∈ occurrences w s) : At w s k := by
  obtain ⟨j, rfl, -, hat⟩ := at_of_mem_occurrencesFrom h
  simpa using hat

lemma occurrences_spaced {w : Text} (hw : w ≠ []) (s : Text) :
    (occurrences w s).Pairwise fun i j => i + w.length ≤ j :=
  occurrencesFrom_spaced hw

lemma mem_occurrences {w s : Text} {k : Nat} (hw : w ≠ []) (hat : At w s k)
    (hfree : ∀ j < k, k < j + w.length → ¬ At w s j) : k ∈ occurrences w s := by
  have hmem : 0 + k ∈ occurrencesFrom w 0 0 s :=
    mem_occurrencesFrom hw hat (Nat.zero_le k) fun j hj _ => hfree j hj
  rwa [Nat.zero_add] at hmem

/-! ## Overlapping words -/

/-- One of the texts starts with the other. -/
def agree (u v : Text) : Bool :=
  u.isPrefixOf v || v.isPrefixOf u

lemma agree_iff {u v : Text} : agree u v = true ↔ u <+: v ∨ v <+: u := by
  simp [agree]

/-- Some non-empty end part of `u` and the text `v` agree: `v` can begin within `u`. -/
def runsInto : (u v : Text) → Bool
  | [], _ => false
  | c :: u, v => agree (c :: u) v || runsInto u v

/-- Whether the two words can stand in one text so that they share a character. -/
def overlaps (u v : Text) : Bool :=
  runsInto u v || runsInto v u

lemma runsInto_iff {u v : Text} :
    runsInto u v = true ↔ ∃ x t, u = x ++ t ∧ t ≠ [] ∧ (t <+: v ∨ v <+: t) := by
  induction u with
  | nil => simp [runsInto]
  | cons c u ih =>
    rw [runsInto, Bool.or_eq_true, agree_iff, ih]
    constructor
    · rintro (h | ⟨x, t, rfl, ht, h⟩)
      · exact ⟨[], c :: u, rfl, by simp, h⟩
      · exact ⟨c :: x, t, rfl, ht, h⟩
    · rintro ⟨x, t, hx, ht, h⟩
      cases x with
      | nil =>
        obtain rfl : c :: u = t := hx
        exact Or.inl h
      | cons d x =>
        obtain ⟨rfl, rfl⟩ := List.cons.inj hx
        exact Or.inr ⟨x, t, rfl, ht, h⟩

/-- A word that begins within another one in some text runs into it. -/
lemma runsInto_of_at {u v s : Text} {j k : Nat} (hu : At u s j) (hv : At v s k) (hjk : j ≤ k)
    (hk : k < j + u.length) : runsInto u v = true := by
  refine runsInto_iff.2 ⟨u.take (k - j), u.drop (k - j), by simp, ?_, ?_⟩
  · rw [Ne, List.drop_eq_nil_iff]
    omega
  · obtain ⟨t, ht⟩ := hu
    have hrest : u.drop (k - j) <+: s.drop k := by
      refine ⟨t, ?_⟩
      rw [← List.drop_append_of_le_length (by omega), ht, List.drop_drop]
      congr 1
      omega
    exact List.prefix_or_prefix_of_prefix hrest hv

/-- Words that do not overlap share no character in any text. -/
lemma apart_of_not_overlaps {u v s : Text} {j k : Nat} (h : overlaps u v = false) (hu : At u s j)
    (hv : At v s k) : j + u.length ≤ k ∨ k + v.length ≤ j := by
  rw [overlaps, Bool.or_eq_false_iff] at h
  by_contra hcon
  rcases Nat.le_total j k with hjk | hkj
  · exact absurd (runsInto_of_at hu hv hjk (by omega)) (by simp [h.1])
  · exact absurd (runsInto_of_at hv hu hkj (by omega)) (by simp [h.2])

/-- Words of which one runs into the other stand in a text that holds nothing else. -/
lemma exists_of_runsInto {u v : Text} (h : runsInto u v = true) :
    ∃ (s : Text) (k : Nat), At u s 0 ∧ At v s k ∧ k < u.length ∧
      (s.length = u.length ∨ s.length = k + v.length) ∧ ∀ c ∈ s, c ∈ u ∨ c ∈ v := by
  obtain ⟨x, t, rfl, ht, hagree⟩ := runsInto_iff.1 h
  have hpos := List.length_pos_iff.2 ht
  have hin : x.length < (x ++ t).length := by
    rw [List.length_append]
    omega
  rcases hagree with ⟨w, rfl⟩ | ⟨w, rfl⟩
  · -- `v` reaches beyond the end of `u`
    refine ⟨x ++ (t ++ w), x.length, ?_, ?_, hin, Or.inr (by simp), fun c hc => ?_⟩
    · simp [At]
    · simp [At]
    · simp only [List.mem_append] at hc ⊢
      tauto
  · -- `v` stands inside `u`
    refine ⟨x ++ (v ++ w), x.length, by simp [At], at_append x v w, hin, Or.inl rfl,
      fun c hc => Or.inl hc⟩

/-- Words that overlap stand in a text that holds nothing else, one of them at its start. -/
lemma exists_of_overlaps {u v : Text} (hu : u ≠ []) (hv : v ≠ []) (h : overlaps u v = true) :
    ∃ (s : Text) (j k : Nat), At u s j ∧ At v s k ∧ j < k + v.length ∧ k < j + u.length ∧
      (j = 0 ∨ k = 0) ∧ (s.length = j + u.length ∨ s.length = k + v.length) ∧
      ∀ c ∈ s, c ∈ u ∨ c ∈ v := by
  have hu := List.length_pos_iff.2 hu
  have hv := List.length_pos_iff.2 hv
  rw [overlaps, Bool.or_eq_true] at h
  rcases h with h | h
  · obtain ⟨s, k, hus, hvs, hk, hlen, hmem⟩ := exists_of_runsInto h
    exact ⟨s, 0, k, hus, hvs, by omega, by omega, Or.inl rfl, by omega, hmem⟩
  · obtain ⟨s, j, hvs, hus, hj, hlen, hmem⟩ := exists_of_runsInto h
    exact ⟨s, j, 0, hus, hvs, by omega, by omega, Or.inr rfl, by omega,
      fun c hc => (hmem c hc).symm⟩

/-! ## Places in bytes -/

lemma splitAtByte_append (bytes : Nat) (s : Text) :
    (splitAtByte bytes s).1 ++ (splitAtByte bytes s).2 = s := by
  induction s generalizing bytes with
  | nil => rfl
  | cons c s ih =>
    rw [splitAtByte]
    split
    · rfl
    · simp [ih]

lemma byteLength_take_lt {s : Text} {i j : Nat} (hij : i < j) (hi : i < s.length) :
    byteLength (s.take i) < byteLength (s.take j) := by
  obtain ⟨n, rfl⟩ := Nat.exists_eq_add_of_lt hij
  obtain ⟨c, rest, hdrop⟩ : ∃ c rest, s.drop i = c :: rest :=
    ⟨_, _, List.drop_eq_getElem_cons hi⟩
  have htake : s.take (i + n + 1) = s.take i ++ c :: rest.take n := by
    rw [Nat.add_assoc, List.take_add, hdrop, List.take_succ_cons]
  have hpos := c.utf8Size_pos
  rw [htake, byteLength_append, byteLength_cons]
  omega

lemma lt_of_byteLength_take_lt {s : Text} {i j : Nat}
    (h : byteLength (s.take i) < byteLength (s.take j)) : i < j := by
  by_contra hle
  obtain ⟨n, rfl⟩ := Nat.exists_eq_add_of_le (Nat.le_of_not_lt hle)
  rw [List.take_add, byteLength_append] at h
  omega

end MarkedMath.Text
