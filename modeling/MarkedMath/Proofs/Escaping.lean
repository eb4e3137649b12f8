import MarkedMath.Layout
import MarkedMath.Proofs.Patterns
import MarkedMath.Proofs.Pieces

/-!
# Markers in escaped texts

Escaping a text for markup neither makes nor hides nor moves a marker, when the tokens have only characters in
them that escaping leaves alone and never writes: then the pieces of the escaped text are the escaped pieces
of the text (`Rule.pieces_escapeText`). Every step of the search is compared with itself on the escaped text.
A character that is escaped, and every character that is written for it, can neither begin a token nor be a
bracket, so the search walks over all of them alike.
-/

namespace MarkedMath

/-! ## Characters that escaping is not concerned with -/

/-- A character that is written as it is and never written for another one. -/
def isInert (c : Char) : Bool :=
  !"&<>ampltg;".toList.contains c

/-- A text of such characters. -/
def Text.Inert (t : Text) : Prop :=
  ∀ c ∈ t, isInert c = true

/-- A text without any such character. -/
def Text.Reactive (t : Text) : Prop :=
  ∀ c ∈ t, isInert c = false

instance (t : Text) : Decidable t.Inert :=
  List.decidableBAll _ t

instance (t : Text) : Decidable t.Reactive :=
  List.decidableBAll _ t

lemma escapeMarkup_of_ne {c : Char} (hamp : c ≠ '&') (hlt : c ≠ '<') (hgt : c ≠ '>') : escapeMarkup c = [c] := by
  rw [escapeMarkup]
  · exact hamp
  · exact hlt
  · exact hgt

lemma escapeMarkup_of_isInert {c : Char} (h : isInert c = true) : escapeMarkup c = [c] := by
  refine escapeMarkup_of_ne ?_ ?_ ?_ <;> rintro rfl <;> cases h

lemma reactive_escapeMarkup {c : Char} (h : isInert c = false) : Text.Reactive (escapeMarkup c) := by
  by_cases hamp : c = '&'
  · subst hamp
    show Text.Reactive "&amp;".toList
    decide
  by_cases hlt : c = '<'
  · subst hlt
    show Text.Reactive "&lt;".toList
    decide
  by_cases hgt : c = '>'
  · subst hgt
    show Text.Reactive "&gt;".toList
    decide
  rw [escapeMarkup_of_ne hamp hlt hgt]
  simpa [Text.Reactive] using h

lemma escapeMarkup_ne_nil (c : Char) : escapeMarkup c ≠ [] := by
  rw [escapeMarkup.eq_def]
  split <;> simp

lemma escapeText_cons (c : Char) (s : Text) : escapeText (c :: s) = escapeMarkup c ++ escapeText s := rfl

lemma escapeText_cons_of_isInert {c : Char} (hc : isInert c = true) (s : Text) :
    escapeText (c :: s) = c :: escapeText s := by
  rw [escapeText_cons, escapeMarkup_of_isInert hc]
  rfl

lemma escapeText_of_inert {t : Text} (h : t.Inert) : escapeText t = t := by
  induction t with
  | nil => rfl
  | cons c t ih =>
    obtain ⟨hc, ht⟩ := List.forall_mem_cons.1 h
    rw [escapeText_cons_of_isInert hc, ih ht]

@[simp] lemma escapeText_eq_nil_iff {t : Text} : escapeText t = [] ↔ t = [] := by
  cases t with
  | nil => simp [escapeText]
  | cons c t => simp [escapeText_cons, escapeMarkup_ne_nil]

/-- What is written for a character that is escaped begins with no inert character. -/
lemma exists_cons_of_not_isInert {c : Char} (hc : isInert c = false) (s : Text) :
    ∃ d u, escapeText (c :: s) = d :: u ∧ isInert d = false := by
  have hreactive := reactive_escapeMarkup hc
  obtain ⟨d, u, hchars⟩ := List.exists_cons_of_ne_nil (escapeMarkup_ne_nil c)
  exact ⟨d, u ++ escapeText s, by rw [escapeText_cons, hchars]; rfl, hreactive d (hchars ▸ List.mem_cons_self)⟩

/-- Induction on a text along its inert characters. -/
lemma inert_induction {P : Text → Prop} (nil : P []) (inert : ∀ c s, isInert c = true → P s → P (c :: s))
    (reactive : ∀ c s, isInert c = false → P s → P (c :: s)) (s : Text) : P s := by
  induction s with
  | nil => exact nil
  | cons c s ih =>
    cases hc : isInert c with
    | true => exact inert c s hc ih
    | false => exact reactive c s hc ih

/-! ## Tokens -/

namespace Text

variable {token : Text}

/-- A token does not begin with a character that it cannot have in it. -/
lemma afterToken?_of_not_isInert (htoken : token.Inert) (hne : token ≠ []) {c : Char}
    (hc : isInert c = false) (s : Text) : afterToken? token (c :: s) = none := by
  cases token with
  | nil => exact absurd rfl hne
  | cons t token =>
    have ht : isInert t = true := htoken t List.mem_cons_self
    rw [afterToken?, if_neg]
    rintro rfl
    rw [ht] at hc
    cases hc

lemma afterToken?_escapeText (htoken : token.Inert) (s : Text) :
    afterToken? token (escapeText s) = (afterToken? token s).map escapeText := by
  induction token generalizing s with
  | nil => rfl
  | cons t token ih =>
    obtain ⟨ht, htoken'⟩ := List.forall_mem_cons.1 htoken
    cases s with
    | nil => rfl
    | cons c s =>
      cases hc : isInert c with
      | true =>
        rw [escapeText_cons_of_isInert hc, afterToken?, afterToken?]
        split
        · exact ih htoken' s
        · rfl
      | false =>
        obtain ⟨d, u, hescaped, hd⟩ := exists_cons_of_not_isInert hc s
        rw [hescaped, afterToken?_of_not_isInert htoken (List.cons_ne_nil _ _) hc,
          afterToken?_of_not_isInert htoken (List.cons_ne_nil _ _) hd]
        rfl

/-- A text cut in two at a place. -/
def cutAt (s : Text) (i : Nat) : Text × Text :=
  (s.take i, s.drop i)

lemma occurrencesFrom_of_reactive (htoken : token.Inert) (hne : token ≠ []) {u : Text} (hu : u.Reactive)
    (index : Nat) (s : Text) :
    occurrencesFrom token index 0 (u ++ s) = occurrencesFrom token (index + u.length) 0 s := by
  induction u generalizing index with
  | nil => rfl
  | cons c u ih =>
    obtain ⟨hc, hu'⟩ := List.forall_mem_cons.1 hu
    rw [List.cons_append, occurrencesFrom, afterToken?_of_not_isInert htoken hne hc]
    simp only [Option.isSome_none, Bool.false_eq_true, if_false]
    rw [ih hu', List.length_cons]
    congr 1
    omega

/-- The places of a token cut an escaped text as they cut the text. -/
lemma cutAt_occurrencesFrom (htoken : token.Inert) (hne : token ≠ []) (done s : Text) (busy : Nat)
    (hbusy : Text.Inert (s.take busy)) :
    (occurrencesFrom token (escapeText done).length busy (escapeText s)).map
        (cutAt (escapeText done ++ escapeText s)) =
      (occurrencesFrom token done.length busy s).map
        (Prod.map escapeText escapeText ∘ cutAt (done ++ s)) := by
  induction s generalizing done busy with
  | nil => rfl
  | cons c s ih =>
    -- one more character is done
    have hstep : ∀ busy', Text.Inert (s.take busy') →
        (occurrencesFrom token ((escapeText done).length + (escapeMarkup c).length) busy' (escapeText s)).map
            (cutAt (escapeText done ++ escapeText (c :: s))) =
          (occurrencesFrom token (done.length + 1) busy' s).map
            (Prod.map escapeText escapeText ∘ cutAt (done ++ c :: s)) := by
      intro busy' hbusy'
      have hdone := ih (done ++ [c]) busy' hbusy'
      rw [escapeText_append, List.append_assoc, List.append_assoc, List.length_append, List.length_append] at hdone
      have hsingle : escapeText [c] = escapeMarkup c := List.append_nil _
      rwa [hsingle, ← escapeText_cons] at hdone
    cases hc : isInert c with
    | false =>
      -- the walk goes over all that is written for the character
      have hidle : busy = 0 := by
        cases busy with
        | zero => rfl
        | succ busy =>
          have hinert := hbusy c (by simp)
          rw [hc] at hinert
          cases hinert
      subst hidle
      rw [escapeText_cons, occurrencesFrom_of_reactive htoken hne (reactive_escapeMarkup hc), ← escapeText_cons,
        occurrencesFrom, afterToken?_of_not_isInert htoken hne hc]
      exact hstep 0 (by simp [Inert])
    | true =>
      have hescaped := escapeText_cons_of_isInert hc s
      rw [escapeMarkup_of_isInert hc] at hstep
      rw [hescaped] at hstep ⊢
      cases busy with
      | succ busy =>
        rw [occurrencesFrom, occurrencesFrom]
        exact hstep busy fun d hd => hbusy d (by simp [hd])
      | zero =>
        have hfound := afterToken?_escapeText htoken (c :: s)
        rw [hescaped] at hfound
        rw [occurrencesFrom, occurrencesFrom, hfound, Option.isSome_map]
        split
        · next hsome =>
          obtain ⟨rest, hrest⟩ := Option.isSome_iff_exists.1 hsome
          rw [List.map_cons, List.map_cons]
          congr 1
          · simp [cutAt, hescaped]
          · -- the rest of the occurrence is made of characters of the token
            refine hstep (token.length - 1) fun d hd => ?_
            obtain ⟨t, token', rfl⟩ := List.exists_cons_of_ne_nil hne
            have hs := (List.cons.inj (afterToken?_eq_some_iff.1 hrest)).2
            rw [hs] at hd
            exact htoken d (List.mem_cons_of_mem _ (by simpa using hd))
        · exact hstep 0 (by simp [Inert])

lemma cutAt_occurrences (htoken : token.Inert) (hne : token ≠ []) (s : Text) :
    (occurrences token (escapeText s)).map (cutAt (escapeText s)) =
      (occurrences token s).map (Prod.map escapeText escapeText ∘ cutAt s) :=
  cutAt_occurrencesFrom htoken hne [] s 0 (by simp [Inert])

end Text

/-! ## The search -/

/-- A marker that was found, with all texts escaped. -/
def Found.escape (f : Found) : Found :=
  ⟨escapeText f.before, escapeText f.payload, escapeText f.after⟩

/-- A piece with its text escaped. -/
def Piece.escape : Piece → Piece
  | text t => text (escapeText t)
  | marker kind payload => marker kind (escapeText payload)

namespace Rule

/-- The tokens of the rule have only characters in them that escaping is not concerned with. -/
structure Inert (r : Rule) : Prop where
  /-- The start token. -/
  start : r.start.Inert
  /-- The end token. -/
  stop : r.stop.Inert
  /-- There is a start token. -/
  ne_nil : r.start ≠ []

variable {r : Rule} {s : Text}

lemma isInert_closing (kind : Kind) : isInert kind.closing = true := by
  cases kind <;> decide

lemma isInert_opening (kind : Kind) : isInert kind.opening = true := by
  cases kind <;> decide

/-- Characters that are no brackets are read as part of a payload. -/
lemma close?_of_reactive {u : Text} (hu : u.Reactive) (s : Text) :
    r.close? (u ++ s) = (r.close? s).map fun (payload, rest) => (u ++ payload, rest) := by
  induction u with
  | nil => simp
  | cons c u ih =>
    obtain ⟨hc, hu'⟩ := List.forall_mem_cons.1 hu
    have hclosing : c ≠ r.kind.closing := by
      rintro rfl
      rw [isInert_closing] at hc
      cases hc
    have hline : c ≠ '\n' := by
      rintro rfl
      cases hc
    rw [List.cons_append, close?, if_neg hclosing, if_neg hline, ih hu', Option.map_map]
    rfl

lemma close?_escapeText (hr : r.Inert) (s : Text) :
    r.close? (escapeText s) = (r.close? s).map (Prod.map escapeText escapeText) := by
  induction s using inert_induction with
  | nil => rfl
  | inert c s hc ih =>
    rw [escapeText_cons_of_isInert hc, close?, close?, Text.afterToken?_escapeText hr.stop]
    have hlater : (if c = '\n' then none
        else (r.close? (escapeText s)).map fun (payload, rest) => (c :: payload, rest)) =
        (if c = '\n' then none
        else (r.close? s).map fun (payload, rest) => (c :: payload, rest)).map
          (Prod.map escapeText escapeText) := by
      rw [ih]
      split
      · rfl
      · rw [Option.map_map, Option.map_map]
        congr 1
        funext found
        simp [escapeText_cons_of_isInert hc]
    by_cases hclosing : c = r.kind.closing
    · rw [if_pos hclosing, if_pos hclosing]
      cases Text.afterToken? r.stop s with
      | none => exact hlater
      | some rest =>
        have hone : escapeText [c] = [c] := escapeText_cons_of_isInert hc []
        simp [hone]
    · rw [if_neg hclosing, if_neg hclosing]
      exact hlater
  | reactive c s hc ih =>
    have hcons : r.close? (c :: s) = (r.close? s).map fun (payload, rest) => (c :: payload, rest) :=
      close?_of_reactive (u := [c]) (by simpa [Text.Reactive] using hc) s
    rw [escapeText_cons, close?_of_reactive (reactive_escapeMarkup hc), ih, hcons, Option.map_map, Option.map_map]
    rfl

/-- What is read behind an opening bracket. -/
def opened? (r : Rule) (first s : Text) : Option (Text × Text) :=
  (r.close? s).map fun (payload, rest) => (first ++ payload, rest)

lemma opened?_escapeText (hr : r.Inert) {first : Text} (hfirst : first.Inert) (s : Text) :
    r.opened? first (escapeText s) = (r.opened? first s).map (Prod.map escapeText escapeText) := by
  rw [opened?, opened?, close?_escapeText hr, Option.map_map, Option.map_map]
  congr 1
  funext found
  simp [escapeText_append, escapeText_of_inert hfirst]

/-- A payload begins with its opening bracket or a backslash before it. -/
lemma body?_cons (c : Char) (s : Text) : r.body? (c :: s) =
    if c = r.kind.opening then r.opened? [c] s
    else if c = '\\' then
      match s with
      | [] => none
      | d :: s => if d = r.kind.opening then r.opened? [c, d] s else none
    else none := by
  cases s <;> rfl

lemma ne_opening_of_not_isInert {c : Char} (hc : isInert c = false) : c ≠ r.kind.opening := by
  rintro rfl
  rw [isInert_opening] at hc
  cases hc

lemma body?_of_not_isInert {c : Char} (hc : isInert c = false) (s : Text) : r.body? (c :: s) = none := by
  rw [body?_cons, if_neg (ne_opening_of_not_isInert hc), if_neg]
  rintro rfl
  cases hc

lemma body?_escapeText (hr : r.Inert) (s : Text) :
    r.body? (escapeText s) = (r.body? s).map (Prod.map escapeText escapeText) := by
  cases s with
  | nil => rfl
  | cons c s =>
    cases hc : isInert c with
    | false =>
      obtain ⟨d, u, hescaped, hd⟩ := exists_cons_of_not_isInert hc s
      rw [hescaped, body?_of_not_isInert hd, body?_of_not_isInert hc]
      rfl
    | true =>
      have hone : Text.Inert [c] := by simpa [Text.Inert] using hc
      rw [escapeText_cons_of_isInert hc, body?_cons, body?_cons, opened?_escapeText hr hone]
      split
      · rfl
      · split
        · cases s with
          | nil => rfl
          | cons d s =>
            cases hd : isInert d with
            | false =>
              obtain ⟨d', u, hescaped, hd'⟩ := exists_cons_of_not_isInert hd s
              simp only [hescaped, if_neg (ne_opening_of_not_isInert hd),
                if_neg (ne_opening_of_not_isInert hd'), Option.map_none]
            | true =>
              simp only [escapeText_cons_of_isInert hd]
              split
              · exact opened?_escapeText hr (by simpa [Text.Inert] using ⟨hc, hd⟩) s
              · rfl
        · rfl

lemma payload?_escapeText (hr : r.Inert) (s : Text) :
    r.payload? (escapeText s) = (r.payload? s).map (Prod.map escapeText escapeText) := by
  rw [payload?, payload?, Text.afterToken?_escapeText hr.start]
  cases Text.afterToken? r.start s with
  | none => rfl
  | some rest => exact body?_escapeText hr rest

lemma payload?_of_not_isInert (hr : r.Inert) {c : Char} (hc : isInert c = false) (s : Text) :
    r.payload? (c :: s) = none := by
  rw [payload?, Text.afterToken?_of_not_isInert hr.start hr.ne_nil hc]
  rfl

lemma leftmost?_of_reactive (hr : r.Inert) {u : Text} (hu : u.Reactive) (s : Text) :
    r.leftmost? (u ++ s) = (r.leftmost? s).map fun f => { f with before := u ++ f.before } := by
  induction u with
  | nil => simp
  | cons c u ih =>
    obtain ⟨hc, hu'⟩ := List.forall_mem_cons.1 hu
    rw [List.cons_append, leftmost?, payload?_of_not_isInert hr hc]
    simp only [ih hu', Option.map_map]
    rfl

lemma leftmost?_escapeText (hr : r.Inert) (s : Text) :
    r.leftmost? (escapeText s) = (r.leftmost? s).map Found.escape := by
  induction s using inert_induction with
  | nil => rfl
  | inert c s hc ih =>
    have hpayload := payload?_escapeText hr (c :: s)
    rw [escapeText_cons_of_isInert hc] at hpayload ⊢
    rw [leftmost?, leftmost?, hpayload]
    cases r.payload? (c :: s) with
    | some found => rfl
    | none =>
      simp only [Option.map_none, ih, Option.map_map]
      congr 1
      funext f
      simp [Found.escape, escapeText_cons_of_isInert hc]
  | reactive c s hc ih =>
    have hcons : r.leftmost? (c :: s) = (r.leftmost? s).map fun f => { f with before := c :: f.before } :=
      leftmost?_of_reactive hr (u := [c]) (by simpa [Text.Reactive] using hc) s
    rw [escapeText_cons, leftmost?_of_reactive hr (reactive_escapeMarkup hc), ih, hcons, Option.map_map,
      Option.map_map]
    rfl

/-- The marker that a start token opens, when it cuts what is inside another marker in two. -/
def laterAt (r : Rule) (outer : Found) (cut : Text × Text) : Option Found :=
  (r.payload? (cut.2 ++ outer.after)).map fun (payload, after) =>
    ⟨outer.before ++ r.start ++ cut.1, payload, after⟩

lemma tighten_eq (outer : Found) : r.tighten outer =
    ((((Text.occurrences r.start (outer.payload ++ r.stop)).map
      (Text.cutAt (outer.payload ++ r.stop))).reverse).findSome? (r.laterAt outer)).getD outer := by
  rw [tighten, ← List.map_reverse, List.findSome?_map]
  rfl

lemma laterAt_escape (hr : r.Inert) (outer : Found) (cut : Text × Text) :
    r.laterAt outer.escape (Prod.map escapeText escapeText cut) = (r.laterAt outer cut).map Found.escape := by
  rw [laterAt, laterAt, Option.map_map]
  show Option.map _ (r.payload? (escapeText cut.2 ++ escapeText outer.after)) = _
  rw [← escapeText_append, payload?_escapeText hr, Option.map_map]
  congr 1
  funext found
  simp [Found.escape, escapeText_append, escapeText_of_inert hr.start]

lemma tighten_escape (hr : r.Inert) (outer : Found) : r.tighten outer.escape = (r.tighten outer).escape := by
  have hinside : outer.escape.payload ++ r.stop = escapeText (outer.payload ++ r.stop) := by
    rw [escapeText_append, escapeText_of_inert hr.stop]
    rfl
  rw [tighten_eq, tighten_eq, hinside, Text.cutAt_occurrences hr.start hr.ne_nil, ← List.map_reverse,
    ← List.map_reverse, List.findSome?_map, List.findSome?_map]
  have hlater : r.laterAt outer.escape ∘ (Prod.map escapeText escapeText ∘ Text.cutAt (outer.payload ++ r.stop)) =
      Option.map Found.escape ∘ (r.laterAt outer ∘ Text.cutAt (outer.payload ++ r.stop)) := by
    funext i
    exact laterAt_escape hr outer _
  rw [hlater, ← List.map_findSome?]
  cases List.findSome? _ _ <;> rfl

/-- The marker that is found in an escaped text is the one of the text. -/
lemma find?_escapeText (hr : r.Inert) (s : Text) :
    r.find? (escapeText s) = (r.find? s).map Found.escape := by
  rw [find?, find?, leftmost?_escapeText hr, Option.map_map, Option.map_map]
  congr 1
  funext f
  exact tighten_escape hr f

lemma ofText_escapeText (s : Text) : Piece.ofText (escapeText s) = (Piece.ofText s).map Piece.escape := by
  cases s with
  | nil => rfl
  | cons c s =>
    have hne : (escapeText (c :: s)).isEmpty = false := by simp
    rw [Piece.ofText, Piece.ofText, hne]
    rfl

/-- The pieces of an escaped text are the escaped pieces of the text. -/
lemma pieces_escapeText (hr : r.Inert) (s : Text) :
    r.pieces (escapeText s) = (r.pieces s).map Piece.escape := by
  induction s using pieces_induction (r := r) with
  | none s hnone =>
    rw [pieces_of_none hnone, pieces_of_none (by rw [find?_escapeText hr, hnone]; rfl), ofText_escapeText]
  | some s f hf ih =>
    have hfound : r.find? (escapeText s) = some f.escape := by rw [find?_escapeText hr, hf]; rfl
    rw [pieces_of_some hf, pieces_of_some hfound, List.map_append, List.map_cons, ← ih, ← ofText_escapeText]
    rfl

end Rule

/-! ## Segments -/

/-- A segment with its text escaped. -/
def Segment.escape : Segment → Segment
  | text t => text (escapeText t)
  | equation e => equation { e with content := escapeText e.content }

lemma Segment.number_escape (counts : Counts) (pieces : List Piece) :
    number counts (pieces.map Piece.escape) =
      ((number counts pieces).1.map escape, (number counts pieces).2) := by
  induction pieces generalizing counts with
  | nil => rfl
  | cons p pieces ih =>
    cases p with
    | text t =>
      rw [List.map_cons, Piece.escape, number, number, ih]
      rfl
    | marker kind payload =>
      rw [List.map_cons, Piece.escape, number, number, ih]
      rfl

namespace Grammar

variable {g : Grammar}

/-- The tokens of both kinds have only characters in them that escaping is not concerned with. -/
def Inert (g : Grammar) : Prop :=
  ∀ kind, (g.rule kind).Inert

lemma inert_of_tokens (h : g.tokens = {}) : g.Inert := by
  obtain rfl : g = standard := by
    obtain ⟨tokens, valid⟩ := g
    subst h
    rfl
  intro kind
  cases kind <;> exact ⟨by decide, by decide, by decide⟩

lemma pieces_escapeText (hg : g.Inert) (s : Text) :
    g.pieces (escapeText s) = (g.pieces s).map Piece.escape := by
  rw [pieces, pieces, Rule.pieces_escapeText (hg .inline), List.flatMap_map, List.map_flatMap]
  congr 1
  funext p
  cases p with
  | text t => exact Rule.pieces_escapeText (hg .display) t
  | marker kind payload => rfl

/-- What becomes of an escaped text: the segments of the text are escaped and written. -/
lemma convert_escapeText (hg : g.Inert) (l : Layout) (counts : Counts) (s : Text) :
    g.convert l counts (escapeText s) =
      match g.segment? counts s with
      | some (segments, after) => (l.render (segments.map Segment.escape), after)
      | none => (escapeText s, counts) := by
  have hmarkers : ((g.pieces s).map Piece.escape).any Piece.isMarker = (g.pieces s).any Piece.isMarker := by
    rw [List.any_map]
    congr 1
    funext p
    cases p <;> rfl
  simp only [convert, segment?, scan, pieces_escapeText hg, Segment.number_escape, hmarkers]
  cases (g.pieces s).any Piece.isMarker <;> rfl

end Grammar

end MarkedMath
