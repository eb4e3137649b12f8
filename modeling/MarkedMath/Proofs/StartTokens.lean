import Mathlib.Algebra.GroupWithZero.Nat
import MarkedMath.Census
import MarkedMath.Proofs.Numbering
import MarkedMath.Proofs.Pieces
import MarkedMath.Proofs.ShortestRun

/-!
# Counting start tokens

How often a token occurs in a text is counted from left to right, and an occurrence that begins within the one
before it does not count. No choice of occurrences that share no character is larger
(`Text.length_le_tokenCount`). So a text holds at least as many start tokens as it has markers, whatever the
tokens are.

Where no token begins within another one (`Grammar.TokensApart`), no start token is cut in two when a text is
cut into pieces. Then those that open no marker are the ones that are left in the pieces.

The census holds these numbers in words, which begin anew when they are full. So it is exact as long as the
start tokens and the markers have filled their words equally often (`Grammar.census_exact_iff`), as they have
in every text with fewer than 2³² start tokens.
-/

namespace MarkedMath

namespace Text

/-- How often a token occurs in a text, read from left to right. -/
def tokenCount (token s : Text) : Nat :=
  (occurrences token s).length

/-- No copy of the word stands across the seam between two texts. -/
def Seam (w u v : Text) : Prop :=
  ∀ k, At w (u ++ v) k → k + w.length ≤ u.length ∨ u.length ≤ k

/-- A copy of `w` and a copy of `x` in one text are the same copy of one word or share no character. -/
def StandApart (w x : Text) : Prop :=
  ∀ s j k, At w s j → At x s k → j = k ∧ w = x ∨ j + w.length ≤ k ∨ k + x.length ≤ j

variable {w x s u v : Text}

/-! ## No choice of occurrences is larger -/

/-- Places behind a place, seen from there. -/
lemma exists_eq_map_add {n : Nat} {l : List Nat} (h : ∀ k ∈ l, n ≤ k) : ∃ l' : List Nat, l = l'.map (n + ·) := by
  induction l with
  | nil => exact ⟨[], rfl⟩
  | cons k l ih =>
    obtain ⟨hk, hl⟩ := List.forall_mem_cons.1 h
    obtain ⟨l', rfl⟩ := ih hl
    exact ⟨(k - n) :: l', by simp [Nat.add_sub_cancel' hk]⟩

/-- Places behind the busy characters at which a word stands without sharing a character are no more than those
that are found. -/
lemma length_le_occurrencesFrom {index busy : Nat} {l : List Nat} (hw : w ≠ [])
    (hl : l.Pairwise fun i j => i + w.length ≤ j) (hat : ∀ k ∈ l, At w s k) (hbusy : ∀ k ∈ l, busy ≤ k) :
    l.length ≤ (occurrencesFrom w index busy s).length := by
  have hpos := List.length_pos_iff.2 hw
  induction s generalizing index busy l with
  | nil =>
    cases l with
    | nil => exact Nat.zero_le _
    | cons k l =>
      have := (hat k (List.mem_cons_self ..)).add_length_le hw
      simp only [List.length_nil] at this
      omega
  | cons c s ih =>
    -- places that all lie behind the head of the text, seen from there
    have step (busy' : Nat) {l : List Nat} (hl : l.Pairwise fun i j => i + w.length ≤ j)
        (hat : ∀ k ∈ l, At w (c :: s) k) (hbehind : ∀ k ∈ l, busy' + 1 ≤ k) :
        l.length ≤ (occurrencesFrom w (index + 1) busy' s).length := by
      obtain ⟨l, rfl⟩ := exists_eq_map_add fun k hk => (Nat.le_add_left 1 busy').trans (hbehind k hk)
      rw [List.length_map]
      refine ih ?_ (fun k hk => ?_) fun k hk => ?_
      · exact (List.pairwise_map.1 hl).imp fun h => by omega
      · exact (at_append_right (t := [c])).1 (hat (1 + k) (List.mem_map_of_mem hk))
      · have := hbehind (1 + k) (List.mem_map_of_mem hk)
        omega
    cases busy with
    | succ busy => exact step busy hl hat hbusy
    | zero =>
      rw [occurrencesFrom]
      split
      · cases l with
        | nil => exact Nat.zero_le _
        | cons k l =>
          obtain ⟨hk, hl⟩ := List.pairwise_cons.1 hl
          rw [List.length_cons, List.length_cons]
          refine Nat.succ_le_succ (step _ hl (fun j hj => hat j (List.mem_cons_of_mem _ hj)) fun j hj => ?_)
          have := hk j hj
          omega
      · next hhead =>
        refine step 0 hl hat fun k hk => Nat.pos_of_ne_zero ?_
        rintro rfl
        exact hhead (afterToken?_isSome_iff.2 (hat 0 hk))

lemma length_le_tokenCount {l : List Nat} (hw : w ≠ []) (hl : l.Pairwise fun i j => i + w.length ≤ j)
    (hat : ∀ k ∈ l, At w s k) : l.length ≤ tokenCount w s :=
  length_le_occurrencesFrom hw hl hat fun k _ => Nat.zero_le k

/-! ## Counting in joined texts -/

/-- A text holds at least the occurrences in its parts. -/
lemma tokenCount_add_le (hw : w ≠ []) (u v : Text) :
    tokenCount w u + tokenCount w v ≤ tokenCount w (u ++ v) := by
  have hlen : tokenCount w u + tokenCount w v =
      (occurrences w u ++ (occurrences w v).map (u.length + ·)).length := by
    simp [tokenCount]
  rw [hlen]
  refine length_le_tokenCount hw ?_ fun k hk => ?_
  · refine List.pairwise_append.2 ⟨occurrences_spaced hw u, ?_, fun i hi j hj => ?_⟩
    · exact List.pairwise_map.2 ((occurrences_spaced hw v).imp fun h => by omega)
    · obtain ⟨k, -, rfl⟩ := List.mem_map.1 hj
      have := (at_of_mem_occurrences hi).add_length_le hw
      omega
  · rcases List.mem_append.1 hk with hk | hk
    · exact (at_of_mem_occurrences hk).append_left hw v
    · obtain ⟨j, hj, rfl⟩ := List.mem_map.1 hk
      exact at_append_right.2 (at_of_mem_occurrences hj)

/-- Places that end within the front part of a text are no more than the occurrences in it. -/
lemma length_le_tokenCount_front {l : List Nat} (hw : w ≠ []) (hl : l.Pairwise fun i j => i + w.length ≤ j)
    (hat : ∀ k ∈ l, At w (u ++ v) k) (hfront : ∀ k ∈ l, k + w.length ≤ u.length) : l.length ≤ tokenCount w u :=
  length_le_tokenCount hw hl fun k hk => (hat k hk).of_append (hfront k hk)

/-- Places in the back part of a text are no more than the occurrences in it. -/
lemma length_le_tokenCount_back {l : List Nat} (hw : w ≠ []) (hl : l.Pairwise fun i j => i + w.length ≤ j)
    (hat : ∀ k ∈ l, At w (u ++ v) k) (hback : ∀ k ∈ l, u.length ≤ k) : l.length ≤ tokenCount w v := by
  obtain ⟨l, rfl⟩ := exists_eq_map_add hback
  rw [List.length_map]
  refine length_le_tokenCount hw ((List.pairwise_map.1 hl).imp fun h => by omega) fun k hk => ?_
  exact at_append_right.1 (hat _ (List.mem_map_of_mem hk))

/-- Where no copy stands across the seam, a text holds just the occurrences in its parts. -/
lemma tokenCount_append (hw : w ≠ []) (hseam : Seam w u v) :
    tokenCount w (u ++ v) = tokenCount w u + tokenCount w v := by
  refine le_antisymm ?_ (tokenCount_add_le hw u v)
  have hat : ∀ k ∈ occurrences w (u ++ v), At w (u ++ v) k := fun k hk => at_of_mem_occurrences hk
  have hspaced := occurrences_spaced hw (u ++ v)
  -- the occurrences that end within the front part, and the others
  have hsplit := List.length_eq_length_filter_add (l := occurrences w (u ++ v)) fun k => k + w.length ≤ u.length
  have hfront : ((occurrences w (u ++ v)).filter fun k => k + w.length ≤ u.length).length ≤ tokenCount w u := by
    refine length_le_tokenCount_front hw (hspaced.filter _) (fun k hk => hat k (List.mem_filter.1 hk).1) fun k hk => ?_
    simpa using (List.mem_filter.1 hk).2
  have hback : ((occurrences w (u ++ v)).filter fun k => !(k + w.length ≤ u.length)).length ≤ tokenCount w v := by
    refine length_le_tokenCount_back hw (hspaced.filter _) (fun k hk => hat k (List.mem_filter.1 hk).1) fun k hk => ?_
    obtain ⟨hk, hnot⟩ := List.mem_filter.1 hk
    exact (hseam k (hat k hk)).resolve_left (by simpa using hnot)
  rw [tokenCount]
  omega

/-- A word with a character that a text does not hold does not occur in it. -/
lemma tokenCount_eq_zero {c : Char} (hw : c ∈ w) (hs : c ∉ s) : tokenCount w s = 0 := by
  refine List.length_eq_zero_iff.2 (List.eq_nil_iff_forall_not_mem.2 fun k hk => hs ?_)
  exact (List.mem_of_mem_drop ((at_of_mem_occurrences hk).subset hw))

/-- A word occurs in itself once. -/
lemma tokenCount_self (hw : w ≠ []) : tokenCount w w = 1 := by
  have hpos := List.length_pos_iff.2 hw
  have hzero : ∀ k ∈ occurrences w w, k = 0 := fun k hk => by
    have := (at_of_mem_occurrences hk).add_length_le hw
    omega
  refine le_antisymm ?_ (length_le_tokenCount (l := [0]) hw (List.pairwise_singleton _ _) fun k hk => ?_)
  · have hspaced := occurrences_spaced hw w
    rw [tokenCount]
    match hl : occurrences w w with
    | [] | [_] => simp
    | i :: j :: l =>
      -- a second occurrence would lie behind the whole word
      rw [hl] at hspaced hzero
      have hle := (List.pairwise_cons.1 hspaced).1 j (List.mem_cons_self ..)
      have := hzero j (by simp)
      omega
  · rw [List.mem_singleton.1 hk, at_zero]

/-- A word of one character occurs as often as the character. -/
lemma tokenCount_singleton (c : Char) (s : Text) : tokenCount [c] s = s.count c := by
  have hwalk : ∀ index, (occurrencesFrom [c] index 0 s).length = s.count c := by
    induction s with
    | nil => exact fun _ => rfl
    | cons d s ih =>
      intro index
      by_cases hd : c = d
      · subst hd
        simp [occurrencesFrom, afterToken?, ih]
      · simp [occurrencesFrom, afterToken?, hd, Ne.symm hd, ih]
  exact hwalk 0

/-- A word does not occur in a word that it does not overlap. -/
lemma tokenCount_of_not_overlaps (hw : w ≠ []) (h : overlaps w x = false) : tokenCount w x = 0 := by
  have hpos := List.length_pos_iff.2 hw
  refine List.length_eq_zero_iff.2 (List.eq_nil_iff_forall_not_mem.2 fun k hk => ?_)
  have hat := at_of_mem_occurrences hk
  have hle := hat.add_length_le hw
  rcases apart_of_not_overlaps h hat (at_zero.2 List.prefix_rfl) with hfront | hbehind <;> omega

/-! ## Seams -/

lemma seam_nil_right (hw : w ≠ []) : Seam w u [] := fun k hk => by
  have := hk.add_length_le hw
  rw [List.append_nil] at this
  exact Or.inl this

lemma standApart_of_not_overlaps (h : overlaps w x = false) : StandApart w x := fun _ _ _ hw hx =>
  Or.inr (apart_of_not_overlaps h hw hx)

lemma standApart_singleton {c : Char} (hc : c ∉ w) : StandApart w [c] := by
  intro s j k hw hx
  by_contra hcon
  rw [List.length_singleton] at hcon
  have hget := hw.getElem? (i := k - j) (by omega)
  have hchar := hx.getElem? (i := 0) (by simp)
  rw [Nat.add_sub_cancel' (by omega), ← Nat.add_zero k, hchar] at hget
  exact hc (List.mem_of_getElem? hget.symm)

/-- In front of a word that stands apart nothing stands across the seam. -/
lemma StandApart.seam_before (h : StandApart w x) (u v : Text) : Seam w u (x ++ v) := by
  intro k hk
  rcases h _ _ _ hk (at_append u x v) with ⟨rfl, -⟩ | hfront | hbehind
  · exact Or.inr le_rfl
  · exact Or.inl hfront
  · exact Or.inr (by omega)

/-- Behind a word that stands apart nothing stands across the seam. -/
lemma StandApart.seam_behind (h : StandApart w x) (u v : Text) : Seam w (u ++ x) v := by
  intro k hk
  rw [List.append_assoc] at hk
  rw [List.length_append]
  rcases h _ _ _ hk (at_append u x v) with ⟨rfl, rfl⟩ | hfront | hbehind
  · exact Or.inl le_rfl
  · exact Or.inl (by omega)
  · exact Or.inr hbehind

/-- The word is counted part by part in a text in which, of two parts side by side, one is marked and nothing
stands across the ends of marked parts. -/
lemma tokenCount_flatMap {α : Type} (marked : α → Prop) {f : α → Text} (hw : w ≠ [])
    (hbefore : ∀ a, marked a → ∀ u v, Seam w u (f a ++ v)) (hbehind : ∀ a, marked a → ∀ v, Seam w (f a) v)
    {l : List α} (hl : l.IsChain fun a b => marked a ∨ marked b) :
    tokenCount w (l.flatMap f) = (l.map fun a => tokenCount w (f a)).sum := by
  induction l with
  | nil => rfl
  | cons a l ih =>
    have hseam : Seam w (f a) (l.flatMap f) := by
      cases l with
      | nil => exact seam_nil_right hw
      | cons b l =>
        rcases hl.rel with ha | hb
        · exact hbehind a ha _
        · exact hbefore b hb _ _
    rw [List.flatMap_cons, tokenCount_append hw hseam, ih hl.of_cons, List.map_cons, List.sum_cons]

end Text

/-! ## Start tokens in the pieces of a text -/

/-- Whether the piece is a marker of a kind. -/
def Piece.isOf (kind : Kind) : Piece → Bool
  | text _ => false
  | marker kind' _ => kind' = kind

/-- The inventory of a kind. -/
def Census.get (c : Census) : Kind → KindCensus
  | .inline => c.inline
  | .display => c.display

lemma Counts.get_empty (kind : Kind) : ({} : Counts).get kind = 0 := by
  cases kind <;> rfl

/-- Every marker of a kind among the pieces uses up one number of the kind. -/
lemma Segment.get_number (counts : Counts) (pieces : List Piece) (kind : Kind) :
    (number counts pieces).2.get kind = counts.get kind + pieces.countP (Piece.isOf kind) := by
  induction pieces generalizing counts with
  | nil => rfl
  | cons p pieces ih =>
    cases p with
    | text t => simpa [number, Piece.isOf] using ih counts
    | marker kind' payload =>
      have hnext := ih (counts.advance kind')
      rw [Counts.get_advance] at hnext
      simp only [number, List.countP_cons, Piece.isOf, decide_eq_true_eq]
      omega

namespace Grammar

variable (g : Grammar)

/-- No start token begins within another token, and no other token within it. -/
structure TokensApart : Prop where
  /-- Copies of a start token share no character. -/
  starts (kind : Kind) : (g.rule kind).startsApart = true
  /-- Nor do the start tokens of the two kinds. -/
  kinds (kind kind' : Kind) : kind ≠ kind' → Text.overlaps (g.rule kind).start (g.rule kind').start = false
  /-- Nor do a start token and an end token. -/
  stops (kind kind' : Kind) : Text.overlaps (g.rule kind).start (g.rule kind').stop = false

lemma tokensApart_standard : standard.TokensApart where
  starts kind := by cases kind <;> decide
  kinds kind kind' := by cases kind <;> cases kind' <;> decide
  stops kind kind' := by cases kind <;> cases kind' <;> decide

/-- A text that is not cut has no marker of either kind among its pieces. -/
lemma countP_isOf_of_segment?_eq_none {counts : Counts} {s : Text} (h : g.segment? counts s = none) (kind : Kind) :
    (g.pieces s).countP (Piece.isOf kind) = 0 := by
  have hnone : ¬ (g.pieces s).any Piece.isMarker = true := by
    rw [g.any_marker_iff, not_exists]
    exact g.segment?_eq_none_iff.1 h
  refine List.countP_eq_zero.2 fun p hp => ?_
  cases p with
  | text t => simp [Piece.isOf]
  | marker kind' payload => exact absurd (List.any_eq_true.2 ⟨_, hp, rfl⟩) hnone

/-- How many markers of a kind a text is cut at. -/
def markerCount (kind : Kind) (s : Text) : Nat :=
  (g.pieces s).countP (Piece.isOf kind)

/-- What the inventory of a kind counts. -/
lemma get_census (s : Text) (kind : Kind) : (g.census s).get kind =
    ⟨(Text.tokenCount (g.rule kind).start s).toUInt32, (g.markerCount kind s).toUInt32⟩ := by
  have hcounts : ((g.segment? {} s).map Prod.snd).getD {} = (Segment.number {} (g.pieces s)).2 := by
    by_cases h : (g.pieces s).any Piece.isMarker = true
    · simp [segment?, scan, h]
    · simp [segment?, scan, h, Segment.number_of_texts {} (by simpa using h)]
  have hnumber := Segment.get_number {} (g.pieces s) kind
  rw [Counts.get_empty, Nat.zero_add] at hnumber
  rw [census, hcounts, markerCount, ← hnumber]
  cases kind <;> rfl

/-- A text holds at least the start tokens of the markers among its pieces. -/
lemma countP_le_tokenCount (kind : Kind) (pieces : List Piece) :
    pieces.countP (Piece.isOf kind) ≤ Text.tokenCount (g.rule kind).start (pieces.flatMap g.writtenPiece) := by
  have hs := g.start_ne_nil kind
  induction pieces with
  | nil => exact Nat.zero_le _
  | cons p pieces ih =>
    have hadd := Text.tokenCount_add_le hs (g.writtenPiece p) (pieces.flatMap g.writtenPiece)
    rw [List.flatMap_cons, List.countP_cons]
    split
    · next hp =>
      -- the start token of the marker is one, and begins the piece
      have hone : 1 ≤ Text.tokenCount (g.rule kind).start (g.writtenPiece p) := by
        cases p with
        | text t => simp [Piece.isOf] at hp
        | marker kind' payload =>
          obtain rfl : kind' = kind := by simpa [Piece.isOf] using hp
          refine Text.length_le_tokenCount (l := [0]) hs (List.pairwise_singleton _ _) fun k hk => ?_
          rw [List.mem_singleton.1 hk, Text.at_zero, writtenPiece, Rule.written, List.append_assoc]
          exact List.prefix_append _ _
      omega
    · omega

/-- A text is cut at no more markers of a kind than it holds start tokens. -/
lemma markerCount_le (kind : Kind) (s : Text) : g.markerCount kind s ≤ Text.tokenCount (g.rule kind).start s := by
  have hle := g.countP_le_tokenCount kind (g.pieces s)
  rwa [g.flatMap_written_pieces] at hle

variable {g}

/-- Start tokens that stand apart. -/
lemma TokensApart.start (h : g.TokensApart) (kind kind' : Kind) :
    Text.StandApart (g.rule kind).start (g.rule kind').start := by
  by_cases hkind : kind = kind'
  · subst hkind
    intro s j k hj hk
    rcases Nat.lt_trichotomy j k with hlt | rfl | hlt
    · exact Or.inr (Or.inl (Rule.start_apart (h.starts kind) hj hk hlt))
    · exact Or.inl ⟨rfl, rfl⟩
    · exact Or.inr (Or.inr (Rule.start_apart (h.starts kind) hk hj hlt))
  · exact Text.standApart_of_not_overlaps (h.kinds kind kind' hkind)

lemma TokensApart.stop (h : g.TokensApart) (kind kind' : Kind) :
    Text.StandApart (g.rule kind).start (g.rule kind').stop :=
  Text.standApart_of_not_overlaps (h.stops kind kind')

/-- A marker holds its own start token and those in its payload. -/
lemma TokensApart.tokenCount_written (h : g.TokensApart) (kind kind' : Kind) (payload : Text) :
    Text.tokenCount (g.rule kind).start ((g.rule kind').written payload) =
      (if kind' = kind then 1 else 0) + Text.tokenCount (g.rule kind).start payload := by
  have hs := g.start_ne_nil kind
  have hstart : Text.tokenCount (g.rule kind).start (g.rule kind').start = if kind' = kind then 1 else 0 := by
    by_cases hkind : kind' = kind
    · subst hkind
      rw [if_pos rfl, Text.tokenCount_self hs]
    · rw [if_neg hkind, Text.tokenCount_of_not_overlaps hs (h.kinds kind kind' (Ne.symm hkind))]
  have hstop : Text.tokenCount (g.rule kind).start (g.rule kind').stop = 0 :=
    Text.tokenCount_of_not_overlaps hs (h.stops kind kind')
  have hbehind : Text.Seam (g.rule kind).start (g.rule kind').start (payload ++ (g.rule kind').stop) :=
    (h.start kind kind').seam_behind [] _
  have hbefore : Text.Seam (g.rule kind).start payload (g.rule kind').stop := by
    simpa using (h.stop kind kind').seam_before payload []
  rw [Rule.written, List.append_assoc, Text.tokenCount_append hs hbehind, Text.tokenCount_append hs hbefore,
    hstart, hstop, Nat.add_zero]

lemma TokensApart.sum_writtenPiece (h : g.TokensApart) (kind : Kind) (pieces : List Piece) :
    (pieces.map fun p => Text.tokenCount (g.rule kind).start (g.writtenPiece p)).sum =
      pieces.countP (Piece.isOf kind) +
        (pieces.map fun p => Text.tokenCount (g.rule kind).start p.content).sum := by
  induction pieces with
  | nil => rfl
  | cons p pieces ih =>
    rw [List.map_cons, List.sum_cons, ih, List.countP_cons, List.map_cons, List.sum_cons]
    cases p with
    | text t =>
      simp only [writtenPiece, Piece.content, Piece.isOf, Bool.false_eq_true, if_false]
      omega
    | marker kind' payload =>
      simp only [writtenPiece, Piece.content, Piece.isOf, h.tokenCount_written, decide_eq_true_eq]
      omega

/-- The start tokens of a text are those of its markers and those that are left in its pieces. -/
lemma TokensApart.tokenCount_eq (h : g.TokensApart) (kind : Kind) (s : Text) :
    Text.tokenCount (g.rule kind).start s = g.markerCount kind s +
      ((g.pieces s).map fun p => Text.tokenCount (g.rule kind).start p.content).sum := by
  have hparts : Text.tokenCount (g.rule kind).start ((g.pieces s).flatMap g.writtenPiece) =
      ((g.pieces s).map fun p => Text.tokenCount (g.rule kind).start (g.writtenPiece p)).sum := by
    refine Text.tokenCount_flatMap (fun p : Piece => p.isMarker = true) (g.start_ne_nil kind) ?_ ?_ (g.apart_pieces s)
    · rintro (t | ⟨kind', payload⟩) hp u v
      · simp [Piece.isMarker] at hp
      · rw [writtenPiece, Rule.written, List.append_assoc, List.append_assoc]
        exact (h.start kind kind').seam_before u _
    · rintro (t | ⟨kind', payload⟩) hp v
      · simp [Piece.isMarker] at hp
      · exact (h.stop kind kind').seam_behind _ v
  rw [g.flatMap_written_pieces] at hparts
  rw [hparts, h.sum_writtenPiece, markerCount]

variable (g)

/-- The start tokens of a kind that are left in what a text was cut into: in the segments of text and in the
contents of equations, or in the whole text when it was not cut. -/
def startTokensLeft (kind : Kind) (s : Text) : Option (List Segment × Counts) → Nat
  | some (segments, _) => (segments.map fun x => Text.tokenCount (g.rule kind).start x.piece.content).sum
  | none => Text.tokenCount (g.rule kind).start s

variable {g}

lemma TokensApart.startTokensLeft_eq (h : g.TokensApart) (kind : Kind) (counts : Counts) (s : Text) :
    g.startTokensLeft kind s (g.segment? counts s) + g.markerCount kind s =
      Text.tokenCount (g.rule kind).start s := by
  cases hsegment : g.segment? counts s with
  | some outcome =>
    obtain ⟨segments, after⟩ := outcome
    have hpieces := Segment.map_piece_of_number (g.segment?_eq_some_iff.1 hsegment).2
    have hsum : g.startTokensLeft kind s (some (segments, after)) =
        ((g.pieces s).map fun p => Text.tokenCount (g.rule kind).start p.content).sum := by
      rw [← hpieces, List.map_map]
      rfl
    rw [hsum, h.tokenCount_eq, Nat.add_comm]
  | none =>
    rw [markerCount, g.countP_isOf_of_segment?_eq_none hsegment kind]
    rfl

/-- The words of two numbers are as far apart as the numbers exactly when both have filled their words equally
often. -/
lemma sub_mod_size_iff {m n : Nat} (hle : m ≤ n) :
    n % UInt32.size - m % UInt32.size = n - m ↔ n / UInt32.size = m / UInt32.size := by
  simp only [UInt32.size]
  omega

lemma toNat_startTokens (g : Grammar) (s : Text) (kind : Kind) :
    ((g.census s).get kind).startTokens.toNat = Text.tokenCount (g.rule kind).start s % UInt32.size := by
  rw [get_census]
  exact UInt32.toNat_ofNat'

lemma toNat_wellFormed (g : Grammar) (s : Text) (kind : Kind) :
    ((g.census s).get kind).wellFormed.toNat = g.markerCount kind s % UInt32.size := by
  rw [get_census]
  exact UInt32.toNat_ofNat'

/-- In a text with fewer than 2³² start tokens of a kind both numbers are as they are, and what is malformed are
the start tokens that open no marker. -/
lemma census_of_lt {g : Grammar} {kind : Kind} {s : Text}
    (h : Text.tokenCount (g.rule kind).start s < UInt32.size) :
    let census := (g.census s).get kind
    census.startTokens.toNat = Text.tokenCount (g.rule kind).start s ∧
      census.wellFormed.toNat = g.markerCount kind s ∧ census.wellFormed ≤ census.startTokens ∧
      census.malformed.toNat = Text.tokenCount (g.rule kind).start s - g.markerCount kind s := by
  intro census
  have hle := g.markerCount_le kind s
  have htokens : census.startTokens.toNat = Text.tokenCount (g.rule kind).start s := by
    rw [toNat_startTokens, Nat.mod_eq_of_lt h]
  have hmarkers : census.wellFormed.toNat = g.markerCount kind s := by
    rw [toNat_wellFormed, Nat.mod_eq_of_lt (hle.trans_lt h)]
  refine ⟨htokens, hmarkers, ?_, ?_⟩
  · rwa [UInt32.le_iff_toNat_le, htokens, hmarkers]
  · rw [KindCensus.toNat_malformed, htokens, hmarkers]

/-- **When the census is exact.** Whatever the tokens are, a text is cut at no more markers of a kind than it
holds start tokens of the kind. The census has both numbers as words, so it has no more markers than start
tokens exactly when the words tell the same, as they do in every text with fewer than 2³² start tokens. With the
tokens that are set when nothing else is, the start tokens that open no well-formed marker are those that are
left in the segments of text and in the contents of equations when the text is cut, or in the whole text when it
holds no marker: the census has their number exactly when the start tokens and the markers have filled their
words equally often. In a text with fewer than 2³² start tokens nothing is lost (`census_of_lt`). -/
theorem census_exact_iff (g : Grammar) (kind : Kind) (counts : Counts) (s : Text) :
    (let tokens := Text.tokenCount (g.rule kind).start s
      let markers := g.markerCount kind s
      let census := (g.census s).get kind
      markers ≤ tokens ∧
        census.startTokens.toNat = tokens % UInt32.size ∧ census.wellFormed.toNat = markers % UInt32.size ∧
        (census.wellFormed ≤ census.startTokens ↔ markers % UInt32.size ≤ tokens % UInt32.size)) ∧
      (let tokens := Text.tokenCount (standard.rule kind).start s
      let markers := standard.markerCount kind s
      ((standard.census s).get kind).malformed.toNat =
          standard.startTokensLeft kind s (standard.segment? counts s) ↔
        tokens / UInt32.size = markers / UInt32.size) := by
  constructor
  · intro tokens markers census
    have htokens : census.startTokens.toNat = tokens % UInt32.size := g.toNat_startTokens s kind
    have hmarkers : census.wellFormed.toNat = markers % UInt32.size := g.toNat_wellFormed s kind
    refine ⟨g.markerCount_le kind s, htokens, hmarkers, ?_⟩
    rw [UInt32.le_iff_toNat_le, htokens, hmarkers]
  · intro tokens markers
    have hleft := tokensApart_standard.startTokensLeft_eq kind counts s
    have hle : markers ≤ tokens := standard.markerCount_le kind s
    have hmalformed : ((standard.census s).get kind).malformed.toNat =
        tokens % UInt32.size - markers % UInt32.size := by
      rw [KindCensus.toNat_malformed, toNat_startTokens, toNat_wellFormed]
    have hrest : standard.startTokensLeft kind s (standard.segment? counts s) = tokens - markers :=
      Nat.eq_sub_of_add_eq hleft
    rw [hmalformed, hrest, sub_mod_size_iff hle]

/-! ## A text with more start tokens than a word can count -/

/-- Inline tokens of one letter each. -/
def lettered : Grammar :=
  ⟨{ inlineStart := "a", inlineEnd := "b" }, by decide⟩

lemma tokensApart_lettered : lettered.TokensApart where
  starts kind := by cases kind <;> decide
  kinds kind kind' := by cases kind <;> cases kind' <;> decide
  stops kind kind' := by cases kind <;> cases kind' <;> decide

/-- One marker behind so many start tokens. -/
def behindStarts (n : Nat) : Text :=
  List.replicate n 'a' ++ "a(x)b".toList

lemma leftmost?_behindStarts (n : Nat) :
    (lettered.rule .inline).leftmost? (behindStarts n) = some ⟨List.replicate n 'a', "(x)".toList, []⟩ := by
  induction n with
  | zero => rfl
  | succ n ih =>
    -- another start token stands behind the first one, which opens no marker then
    have hnone : (lettered.rule .inline).payload? ('a' :: behindStarts n) = none := by
      cases n <;> rfl
    rw [show behindStarts (n + 1) = 'a' :: behindStarts n from rfl, Rule.leftmost?, hnone]
    simp [ih, List.replicate_succ]

lemma pieces_behindStarts (n : Nat) :
    lettered.pieces (behindStarts n) = Piece.ofText (List.replicate n 'a') ++ [.marker .inline "(x)".toList] := by
  have hfind : (lettered.rule .inline).find? (behindStarts n) = some ⟨List.replicate n 'a', "(x)".toList, []⟩ := by
    rw [Rule.find?, leftmost?_behindStarts]
    rfl
  have hdisplay : (lettered.rule .display).find? (List.replicate n 'a') = none := by
    rw [Rule.find?_eq_none_iff, Rule.holds_iff]
    rintro ⟨k, b, q, hat⟩
    have hopening := List.eq_of_mem_replicate (List.mem_of_getElem? hat.opening)
    exact absurd hopening (by decide)
  rw [pieces, Rule.pieces_of_some hfind, Rule.pieces_of_none rfl, List.flatMap_append]
  congr 1
  cases n with
  | zero => rfl
  | succ n => exact (List.flatMap_singleton _ _).trans (Rule.pieces_of_none hdisplay)

lemma markerCount_behindStarts (n : Nat) : lettered.markerCount .inline (behindStarts n) = 1 := by
  have htext : (Piece.ofText (List.replicate n 'a')).countP (Piece.isOf .inline) = 0 :=
    List.countP_eq_zero.2 fun p hp => by simp [(Piece.mem_ofText.1 hp).1, Piece.isOf]
  rw [markerCount, pieces_behindStarts, List.countP_append, htext]
  rfl

lemma tokenCount_behindStarts (n : Nat) :
    Text.tokenCount (lettered.rule .inline).start (behindStarts n) = n + 1 := by
  refine (Text.tokenCount_singleton 'a' _).trans ?_
  rw [behindStarts, List.count_append, List.count_replicate_self]
  rfl

/-- In a text of 2³² start tokens of which the last one opens a marker, the census finds no start token and one
marker. So it has none left that opens no marker, where all but one are left. -/
theorem census_of_full_word :
    let s := behindStarts (UInt32.size - 1)
    let census := (lettered.census s).get .inline
    census.startTokens = 0 ∧ census.wellFormed = 1 ∧ ¬ census.wellFormed ≤ census.startTokens ∧
      census.malformed = 0 ∧
      lettered.startTokensLeft .inline s (lettered.segment? {} s) = UInt32.size - 1 := by
  intro s census
  have htokens : Text.tokenCount (lettered.rule .inline).start s = UInt32.size := tokenCount_behindStarts _
  have hmarkers : lettered.markerCount .inline s = 1 := markerCount_behindStarts _
  have hcensus : census = ⟨0, 1⟩ := by
    refine (lettered.get_census s .inline).trans ?_
    rw [htokens, hmarkers]
    rfl
  have hleft := tokensApart_lettered.startTokensLeft_eq .inline {} s
  rw [htokens, hmarkers] at hleft
  rw [hcensus]
  exact ⟨rfl, rfl, by decide, rfl, Nat.eq_sub_of_add_eq hleft⟩

end Grammar

end MarkedMath
