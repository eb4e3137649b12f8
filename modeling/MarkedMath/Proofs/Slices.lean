import MarkedMath.Proofs.Search
import MarkedMath.Proofs.Tokens

/-!
# Cutting a text at places in bytes

Places in a text are counted in bytes, and a text can be cut only where a character begins or at its end.
`Text.slice?` cuts out the part between two places and has no answer where one of them is no such place.

The search for a marker goes by places: it reads the leftmost marker from a place, cuts out what stands behind
its start token, looks for start tokens in it, and reads again from each of them. `Rule.findByPlace?` is the
search told in this way, with every cut checked. No check ever fails, and the search finds what `Rule.findFrom?`
finds (`Rule.findByPlace?_eq`).
-/

namespace MarkedMath

namespace Text

/-- The two parts of a text around a place. There are none when the place lies beyond the end of the text or
inside a character. -/
def cutAtByte? (place : Nat) (s : Text) : Option (Text × Text) :=
  let parts := splitAtByte place s
  if byteLength parts.1 = place then some parts else none

/-- The part of a text between two places. There is none when one of them lies beyond the end or inside a
character, or when they are out of order. -/
def slice? (s : Text) (start stop : Nat) : Option Text :=
  (cutAtByte? stop s).bind fun parts => (cutAtByte? start parts.1).map Prod.snd

variable {s u v : Text} {place start stop : Nat}

/-! ## Places where a character begins -/

/-- Where a text falls in two parts it is split into them. -/
lemma splitAtByte_byteLength (u v : Text) : splitAtByte (byteLength u) (u ++ v) = (u, v) := by
  induction u with
  | nil => cases v <;> simp [splitAtByte]
  | cons c u ih =>
    have hpos := c.utf8Size_pos
    rw [List.cons_append, splitAtByte, byteLength_cons, if_neg (by omega), Nat.add_sub_cancel_left, ih]

lemma le_byteLength_splitAtByte (h : place ≤ byteLength s) : place ≤ byteLength (splitAtByte place s).1 := by
  induction s generalizing place with
  | nil => exact h
  | cons c s ih =>
    rw [splitAtByte]
    split
    · omega
    · rw [byteLength_cons] at h
      have hle : place - c.utf8Size ≤ byteLength s := by omega
      have := ih hle
      simp only [byteLength_cons]
      omega

/-- A text that reaches up to the place is what is split off and a rest of its own. -/
lemma exists_splitAtByte_eq (v : Text) (hplace : place ≤ byteLength u) :
    ∃ between, u = (splitAtByte place (u ++ v)).1 ++ between ∧
      (splitAtByte place (u ++ v)).2 = between ++ v := by
  induction u generalizing place with
  | nil =>
    obtain rfl : place = 0 := by simpa using hplace
    cases v <;> simp [splitAtByte]
  | cons c u ih =>
    rw [List.cons_append, splitAtByte]
    split
    · exact ⟨c :: u, by simp⟩
    · rw [byteLength_cons] at hplace
      have hle : place - c.utf8Size ≤ byteLength u := by omega
      obtain ⟨between, hu, hrest⟩ := ih hle
      exact ⟨between, congrArg (c :: ·) hu, hrest⟩

lemma cutAtByte?_eq_some_iff : cutAtByte? place s = some (u, v) ↔ s = u ++ v ∧ byteLength u = place := by
  constructor
  · intro h
    rw [cutAtByte?] at h
    split at h
    · next hplace =>
      have hparts := splitAtByte_append place s
      rw [Option.some.inj h] at hparts hplace
      exact ⟨hparts.symm, hplace⟩
    · simp at h
  · rintro ⟨rfl, rfl⟩
    rw [cutAtByte?, splitAtByte_byteLength, if_pos rfl]

/-- What is cut out of a text stands there between the two places. -/
lemma slice?_eq_some_iff {m : Text} : s.slice? start stop = some m ↔
    ∃ before after, s = before ++ (m ++ after) ∧ byteLength before = start ∧ start + byteLength m = stop := by
  constructor
  · intro h
    obtain ⟨⟨front, after⟩, hstop, hm⟩ := Option.bind_eq_some_iff.1 h
    obtain ⟨⟨before, m'⟩, hstart, rfl⟩ := Option.map_eq_some_iff.1 hm
    obtain ⟨rfl, rfl⟩ := cutAtByte?_eq_some_iff.1 hstop
    obtain ⟨rfl, rfl⟩ := cutAtByte?_eq_some_iff.1 hstart
    exact ⟨before, after, by simp, rfl, by simp⟩
  · rintro ⟨before, after, rfl, rfl, rfl⟩
    have hstop : cutAtByte? (byteLength before + byteLength m) (before ++ (m ++ after)) =
        some (before ++ m, after) := cutAtByte?_eq_some_iff.2 ⟨by simp, by simp⟩
    have hstart : cutAtByte? (byteLength before) (before ++ m) = some (before, m) :=
      cutAtByte?_eq_some_iff.2 ⟨rfl, rfl⟩
    rw [slice?, hstop, Option.bind_some, hstart]
    rfl

/-- Beginnings of a text are as long in bytes as they are in characters. -/
lemma byteLength_take_le_iff {i j : Nat} (hi : i ≤ s.length) :
    byteLength (s.take i) ≤ byteLength (s.take j) ↔ i ≤ j := by
  constructor
  · intro hle
    by_contra hlt
    have hless : byteLength (s.take j) < byteLength (s.take i) := byteLength_take_lt (by omega) (by omega)
    omega
  · intro hij
    by_contra hless
    have hlt := lt_of_byteLength_take_lt (Nat.lt_of_not_le hless)
    omega

example : slice? "aé b".toList 1 4 = some "é ".toList ∧ slice? "aé b".toList 2 4 = none := by decide

end Text

namespace Rule

variable {r : Rule} {s : Text} {offset : Nat}

/-! ## The search by places -/

/-- The marker that starts first among those that start at a place or behind it. There is no answer when the
place lies beyond the end of the text. -/
def leftmostFrom? (r : Rule) (s : Text) (offset : Nat) : Option (Option Span) :=
  if Text.byteLength s < offset then none
  else
    let parts := Text.splitAtByte offset s
    some ((r.leftmost? parts.2).map (r.spanOf (Text.byteLength parts.1)))

/-- The first of the places at which the leftmost marker from there begins. There is no answer when one of the
places that are tried lies beyond the end of the text. -/
def firstOpening? (r : Rule) (s : Text) : List Nat → Option (Option Span)
  | [] => some none
  | place :: rest => do
    match ← r.leftmostFrom? s place with
    | some m => if m.start = place then some (some m) else r.firstOpening? s rest
    | none => r.firstOpening? s rest

/-- The marker that the last start token inside `outer` opens, and `outer` itself when none does, by places in
the whole text. -/
def tightenByPlace? (r : Rule) (s : Text) (outer : Span) : Option Span := do
  let behind := outer.start + Text.byteLength r.start
  let inside ← s.slice? behind outer.stop
  let places := (Text.occurrences r.start inside).map fun i => behind + Text.byteLength (inside.take i)
  let inner ← r.firstOpening? s places.reverse
  some (inner.getD outer)

/-- The first marker that starts `offset` or more bytes into the text, found by places. There is no answer when
the text would have to be cut where it cannot be cut. -/
def findByPlace? (r : Rule) (s : Text) (offset : Nat) : Option (Option Span) :=
  if Text.byteLength s < offset then some none
  else do
    match ← r.leftmostFrom? s offset with
    | none => some none
    | some outer => (r.tightenByPlace? s outer).map some

/-- A marker at the head of a text is the leftmost one. -/
lemma leftmost?_of_payload? {payload after : Text} (h : r.payload? s = some (payload, after)) :
    r.leftmost? s = some ⟨[], payload, after⟩ := by
  cases s with
  | nil => simp at h
  | cons c s => simp only [leftmost?, h]

/-- Where no marker stands at the head of a text the leftmost one begins behind it. -/
lemma before_ne_nil_of_leftmost? {f : Found} (hnone : r.payload? s = none) (h : r.leftmost? s = some f) :
    f.before ≠ [] := by
  intro hnil
  have hread := (leftmost?_some h).1
  rw [hnil, List.length_nil, List.drop_zero, hnone] at hread
  simp at hread

/-- The leftmost marker from a place where a character begins. -/
lemma leftmostFrom?_byteLength (u v : Text) : r.leftmostFrom? (u ++ v) (Text.byteLength u) =
    some ((r.leftmost? v).map (r.spanOf (Text.byteLength u))) := by
  rw [leftmostFrom?, if_neg (by simp), Text.splitAtByte_byteLength]

/-- Places inside a part of the text are tried as the search by parts tries them. -/
lemma firstOpening?_places {u inside after : Text} (places : List Nat) :
    r.firstOpening? (u ++ (inside ++ after))
        (places.map fun i => Text.byteLength u + Text.byteLength (inside.take i)) =
      some (places.findSome? fun i => (r.payload? (inside.drop i ++ after)).map fun p =>
        r.spanOf 0 ⟨u ++ inside.take i, p.1, p.2⟩) := by
  induction places with
  | nil => rfl
  | cons i places ih =>
    have hparts : u ++ (inside ++ after) = (u ++ inside.take i) ++ (inside.drop i ++ after) := by
      rw [List.append_assoc, ← List.append_assoc (inside.take i), List.take_append_drop]
    have hleftmost : r.leftmostFrom? (u ++ (inside ++ after))
        (Text.byteLength u + Text.byteLength (inside.take i)) =
        some ((r.leftmost? (inside.drop i ++ after)).map
          (r.spanOf (Text.byteLength u + Text.byteLength (inside.take i)))) := by
      rw [hparts, ← Text.byteLength_append, leftmostFrom?_byteLength]
    rw [List.map_cons, firstOpening?, hleftmost, List.findSome?_cons]
    cases hread : r.payload? (inside.drop i ++ after) with
    | some p =>
      -- a marker stands at the place, so the leftmost one from there is this one
      simp [leftmost?_of_payload? hread, spanOf]
    | none =>
      cases hnext : r.leftmost? (inside.drop i ++ after) with
      | none => simpa using ih
      | some f =>
        have hpos : Text.byteLength f.before ≠ 0 := by
          obtain ⟨c, before, hbefore⟩ := List.exists_cons_of_ne_nil (before_ne_nil_of_leftmost? hread hnext)
          have := c.utf8Size_pos
          rw [hbefore, Text.byteLength_cons]
          omega
        simpa [spanOf, hpos] using ih

/-- Inside a marker of the text every place can be cut at. -/
lemma tightenByPlace?_spanOf {skipped rest : Text} {outer : Found}
    (hrest : rest = outer.before ++ r.written outer.payload ++ outer.after) :
    r.tightenByPlace? (skipped ++ rest) (r.spanOf (Text.byteLength skipped) outer) =
      some (r.spanOf (Text.byteLength skipped) (r.tighten outer)) := by
  have hparts : skipped ++ rest =
      skipped ++ (outer.before ++ r.start) ++ ((outer.payload ++ r.stop) ++ outer.after) := by
    simp [hrest, written]
  have hbehind : (r.spanOf (Text.byteLength skipped) outer).start + Text.byteLength r.start =
      Text.byteLength (skipped ++ (outer.before ++ r.start)) := by
    simp [spanOf, Nat.add_assoc]
  have hslice : (skipped ++ rest).slice? (Text.byteLength (skipped ++ (outer.before ++ r.start)))
      (r.spanOf (Text.byteLength skipped) outer).stop = some (outer.payload ++ r.stop) :=
    Text.slice?_eq_some_iff.2 ⟨_, outer.after, hparts, rfl, by simp [spanOf, written, Nat.add_assoc]⟩
  simp only [tightenByPlace?, hbehind, hslice, Option.bind_eq_bind, Option.bind_some, ← List.map_reverse]
  rw [hparts, firstOpening?_places]
  simp only [Option.bind_some, tighten]
  -- a marker found inside lies at the same place whether the text before it is written in one or in two parts
  rw [← Option.getD_map (r.spanOf (Text.byteLength skipped)), List.map_findSome?]
  congr 3
  funext i
  rw [Function.comp_apply, Option.map_map]
  congr 1
  funext p
  simp [spanOf, Nat.add_assoc]

/-- **The search can always cut the text where it has to,** and finds what the search by parts finds. -/
lemma findByPlace?_eq (r : Rule) (s : Text) (offset : Nat) :
    r.findByPlace? s offset = some (r.findFrom? s offset) := by
  rw [findByPlace?, findFrom?]
  split
  · rfl
  · next hoffset =>
    have hs := Text.splitAtByte_append offset s
    rw [leftmostFrom?, if_neg hoffset]
    generalize Text.splitAtByte offset s = parts at hs ⊢
    obtain ⟨skipped, rest⟩ := parts
    simp only at hs ⊢
    subst hs
    cases houter : r.leftmost? rest with
    | none => simp [find?, houter]
    | some outer => simp [find?, houter, tightenByPlace?_spanOf (eq_of_leftmost? houter).1]

end Rule

end MarkedMath
