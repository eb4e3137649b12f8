import Mathlib.Data.List.TakeWhile
import MarkedMath.Proofs.Html.Places

/-!
# How far a reader looks

What is read at the head of a text depends on the text up to the next closing bracket only. Two texts that agree
as far as that (`Agree`) end another text in the same way (`takeText_of_agree`), and markup that was read up to
its end is read so whatever stands behind it (`exists_readMarkup_append`). So a part of a document can be put
behind another one without being read differently.
-/

namespace MarkedMath.Html

/-! ## Where a text ends -/

section Texts

variable {w v s : Text} {ends : Text → Bool}

/-- A text ends where nothing comes or what comes ends it, and nowhere before. -/
lemma takeUntil_eq_iff :
    takeUntil ends (w ++ v) = (w, v) ↔
      (∀ b, b ≠ [] → b <:+ w → ends (b ++ v) = false) ∧ (v = [] ∨ ends v = true) := by
  induction w with
  | nil =>
    have hnone : ∀ b, b ≠ [] → b <:+ [] → ends (b ++ v) = false := fun b hb hsuffix =>
      absurd (List.suffix_nil.1 hsuffix) hb
    cases v with
    | nil => exact iff_of_true rfl ⟨hnone, Or.inl rfl⟩
    | cons c v =>
      rw [List.nil_append, takeUntil]
      split
      · next h => exact iff_of_true rfl ⟨hnone, Or.inr h⟩
      · next h => simp [h]
  | cons c w ih =>
    rw [List.cons_append, takeUntil]
    split
    · next h =>
      refine iff_of_false (by simp) fun hall => ?_
      have hwhole := hall.1 (c :: w) (by simp) (List.suffix_refl _)
      rw [List.cons_append, h] at hwhole
      cases hwhole
    · next h =>
      have hsplit : ((c :: (takeUntil ends (w ++ v)).1, (takeUntil ends (w ++ v)).2) = (c :: w, v)) ↔
          takeUntil ends (w ++ v) = (w, v) := by simp [Prod.ext_iff]
      refine hsplit.trans (ih.trans (and_congr_left' ⟨fun hall b hb hsuffix => ?_, fun hall b hb hsuffix => ?_⟩))
      · rcases List.suffix_cons_iff.1 hsuffix with rfl | hsuffix
        · simpa using h
        · exact hall b hb hsuffix
      · exact hall b hb (hsuffix.trans (List.suffix_cons c w))

/-- Where no text is read, what comes ends one. -/
lemma ends_of_takeUntil_nil (hs : s ≠ []) (h : takeUntil ends s = ([], s)) : ends s = true :=
  ((takeUntil_eq_iff (w := [])).1 h).2.resolve_left hs

end Texts

/-! ## Agreement -/

/-- The two texts are the same, or the same up to a closing bracket. -/
inductive Agree : Text → Text → Prop where
  /-- Both are over. -/
  | nil : Agree [] []
  /-- Behind a closing bracket anything may stand. -/
  | bracket (s u : Text) : Agree ('>' :: s) ('>' :: u)
  | cons (c : Char) {s u : Text} (h : Agree s u) : Agree (c :: s) (c :: u)

namespace Agree

variable {s u : Text} {p : Char → Bool}

lemma refl : (s : Text) → Agree s s
  | [] => .nil
  | c :: s => .cons c (refl s)

lemma append (x : Text) (h : Agree s u) : Agree (x ++ s) (x ++ u) := by
  induction x with
  | nil => exact h
  | cons c x ih => exact .cons c ih

/-- Behind a text with a closing bracket anything may stand. -/
lemma of_mem {x : Text} (h : '>' ∈ x) (s u : Text) : Agree (x ++ s) (x ++ u) := by
  obtain ⟨y, z, rfl⟩ := List.append_of_mem h
  rw [List.append_assoc, List.append_assoc]
  exact append y (.bracket (z ++ s) (z ++ u))

lemma head?_eq (h : Agree s u) : s.head? = u.head? := by
  cases h <;> rfl

lemma eq_nil (h : Agree [] u) : u = [] := by
  cases h
  rfl

/-- A run of characters that are no closing bracket can be left out. -/
lemma dropWhile (h : Agree s u) (hp : p '>' = false) : Agree (s.dropWhile p) (u.dropWhile p) := by
  induction h with
  | nil => exact .nil
  | bracket s u =>
    rw [List.dropWhile_cons_of_neg (by simp [hp]), List.dropWhile_cons_of_neg (by simp [hp])]
    exact .bracket s u
  | cons c h ih =>
    by_cases hc : p c = true
    · rwa [List.dropWhile_cons_of_pos hc, List.dropWhile_cons_of_pos hc]
    · rw [List.dropWhile_cons_of_neg hc, List.dropWhile_cons_of_neg hc]
      exact .cons c h

/-- A run of characters ends in the same place. -/
lemma span (h : Agree (s.dropWhile p) u) :
    (s.takeWhile p ++ u).takeWhile p = s.takeWhile p ∧ (s.takeWhile p ++ u).dropWhile p = u := by
  have hu : u.takeWhile p = [] ∧ u.dropWhile p = u := by
    cases u with
    | nil => exact ⟨rfl, rfl⟩
    | cons c u =>
      cases hdrop : s.dropWhile p with
      | nil =>
        rw [hdrop] at h
        cases h
      | cons d t =>
        rw [hdrop] at h
        obtain rfl : d = c := by simpa using h.head?_eq
        have hd : p d = false := by
          have hnot := List.head?_dropWhile_not p s
          simpa [hdrop] using hnot
        simp [hd]
  have hall : ∀ c ∈ s.takeWhile p, p c = true := fun c hc => List.mem_takeWhile_imp hc
  rw [List.takeWhile_append_of_pos hall, List.dropWhile_append_of_pos hall, hu.1, hu.2, List.append_nil]
  exact ⟨rfl, rfl⟩

/-! ### Tests at the head of a text -/

lemma isSome_afterToken? (h : Agree s u) {token : Text} (htoken : '>' ∉ token.dropLast) :
    (Text.afterToken? token s).isSome = (Text.afterToken? token u).isSome := by
  induction h generalizing token with
  | nil => rfl
  | bracket s u =>
    cases token with
    | nil => rfl
    | cons t token =>
      cases token with
      | nil => by_cases ht : t = '>' <;> simp [Text.afterToken?, ht]
      | cons t' token =>
        rw [List.dropLast_cons_cons, List.mem_cons, not_or] at htoken
        simp [Text.afterToken?, Ne.symm htoken.1]
  | cons c h ih =>
    cases token with
    | nil => rfl
    | cons t token =>
      have htail : '>' ∉ token.dropLast := by
        cases token with
        | nil => simp
        | cons t' token =>
          rw [List.dropLast_cons_cons, List.mem_cons, not_or] at htoken
          exact htoken.2
      rw [Text.afterToken?, Text.afterToken?]
      split
      · exact ih htail
      · rfl

lemma isSome_afterElement? (h : Agree s u) {element : Text} (helement : '>' ∉ element) :
    (afterElement? element s).isSome = (afterElement? element u).isSome := by
  induction element generalizing s u with
  | nil =>
    cases h with
    | nil => rfl
    | bracket s u => simp [afterElement?, Text.lower]
    | cons c h =>
      simp only [afterElement?, List.length_nil, List.drop_zero, List.take_zero, Text.lower, List.map_nil]
      split <;> rfl
  | cons e element ih =>
    rw [List.mem_cons, not_or] at helement
    cases h with
    | nil => rfl
    | bracket s u =>
      have hne : Text.lowerChar '>' ≠ e := helement.1
      simp [Place.isSome_afterElement?_cons, hne]
    | cons c h => rw [Place.isSome_afterElement?_cons, Place.isSome_afterElement?_cons, ih h helement.2]

lemma beginsEndTag (h : Agree s u) {element : Text} (helement : '>' ∉ element) :
    beginsEndTag element s = beginsEndTag element u := by
  cases h with
  | nil => rfl
  | bracket s u => rfl
  | cons c h =>
    cases h with
    | nil => rfl
    | bracket s u =>
      by_cases hc : c = '<' <;> simp [Html.beginsEndTag]
    | cons d h =>
      by_cases hc : c = '<'
      · by_cases hd : d = '/'
        · rw [hc, hd, Html.beginsEndTag, Html.beginsEndTag, h.isSome_afterElement? helement]
        · simp [Html.beginsEndTag, hd]
      · simp [Html.beginsEndTag, hc]

/-! ### Texts -/

lemma takeUntil {ends : Text → Bool} (hends : ∀ {s u}, Agree s u → ends s = ends u) (h : Agree s u) {x : Text}
    (hx : takeUntil ends (x ++ s) = (x, s)) : Html.takeUntil ends (x ++ u) = (x, u) := by
  obtain ⟨hinside, hend⟩ := takeUntil_eq_iff.1 hx
  refine takeUntil_eq_iff.2 ⟨fun b hb hsuffix => ?_, hend.imp (fun hnil => ?_) fun hstop => ?_⟩
  · rw [← hends (h.append b)]
    exact hinside b hb hsuffix
  · subst hnil
    exact h.eq_nil
  · rw [← hends h]
    exact hstop

lemma scriptStep (h : Agree s u) (c : Char) (part : ScriptPart) : part.step c s = part.step c u := by
  have hcomment : (Text.afterToken? "!--".toList s).isSome = (Text.afterToken? "!--".toList u).isSome :=
    h.isSome_afterToken? (by decide)
  have hscript : (afterElement? "script".toList s).isSome = (afterElement? "script".toList u).isSome :=
    h.isSome_afterElement? (by decide)
  have hend : Html.beginsEndTag "script".toList (c :: s) = Html.beginsEndTag "script".toList (c :: u) :=
    (h.cons c).beginsEndTag (by decide)
  cases part <;> simp only [ScriptPart.step, hcomment, hscript, hend]

lemma takeScript (h : Agree s u) {element x : Text} (helement : '>' ∉ element) {part : ScriptPart}
    (hx : takeScript element part (x ++ s) = (x, s)) : Html.takeScript element part (x ++ u) = (x, u) := by
  induction x generalizing part with
  | nil =>
    cases u with
    | nil => rfl
    | cons c u =>
      cases s with
      | nil => cases h
      | cons d s =>
        have hstop : (part.isClosable && Html.beginsEndTag element (d :: s)) = true := by
          by_contra hnot
          rw [List.nil_append, Html.takeScript, if_neg hnot] at hx
          cases hx
        rw [List.nil_append, Html.takeScript, if_pos (by rw [← h.beginsEndTag helement, hstop])]
  | cons c x ih =>
    have hgo : (part.isClosable && Html.beginsEndTag element (c :: (x ++ s))) = false := by
      by_contra hnot
      rw [List.cons_append, Html.takeScript, if_pos (by simpa using hnot)] at hx
      cases hx
    rw [List.cons_append, Html.takeScript, if_neg (by simp [hgo])] at hx
    have hagree := (h.append x).cons c
    have hrest : Html.takeScript element (part.step c (x ++ s)) (x ++ u) = (x, u) :=
      ih (by simpa [Prod.ext_iff] using hx)
    rw [List.cons_append, Html.takeScript, if_neg (by simp [← hagree.beginsEndTag helement, hgo]),
      ← (h.append x).scriptStep, hrest]

end Agree

/-- **A text that is not data ends where it ended**, if what stands behind it agrees up to a closing bracket. -/
lemma takeText_of_agree {mode : TextMode} {element : String} {s u x : Text} (hdata : mode ≠ .data) (h : Agree s u)
    (helement : '>' ∉ element.toList) (hx : takeText mode element (x ++ s) = (x, s)) :
    takeText mode element (x ++ u) = (x, u) := by
  cases mode with
  | data => exact absurd rfl hdata
  | escapable => exact h.takeUntil (fun hagree => hagree.beginsEndTag helement) hx
  | raw => exact h.takeUntil (fun hagree => hagree.beginsEndTag helement) hx
  | script => exact h.takeScript helement hx
  | plain =>
    obtain ⟨-, rfl⟩ := Prod.mk.inj hx
    rw [h.eq_nil, List.append_nil]
    rfl
  | cdata => exact h.takeUntil (fun hagree => hagree.isSome_afterToken? (by decide)) hx

/-! ## Tags -/

section Tags

variable {s rest u : Text}

lemma eq_of_readQuoted? {quote : Char} {s value rest : Text} (h : readQuoted? quote s = some (value, rest)) :
    s = value ++ quote :: rest ∧ quote ∉ value := by
  induction s generalizing value with
  | nil => simp [readQuoted?] at h
  | cons c s ih =>
    rw [readQuoted?] at h
    split at h
    · next hc =>
      obtain ⟨rfl, rfl⟩ := Prod.mk.inj (Option.some_inj.1 h)
      simp [hc]
    · next hc =>
      obtain ⟨⟨v, r⟩, hread, heq⟩ := Option.map_eq_some_iff.1 h
      obtain ⟨rfl, rfl⟩ := Prod.mk.inj heq
      obtain ⟨hs, hnot⟩ := ih hread
      exact ⟨by rw [hs, List.cons_append], by simp [hnot, Ne.symm hc]⟩

/-- A value is read up to its end, whatever stands behind it. -/
lemma readValue?_append {value : Option Text} (h : readValue? s = some (value, rest)) (hu : Agree rest u) :
    ∃ x, s = x ++ rest ∧ readValue? (x ++ u) = some (value, u) := by
  have hblanks := List.takeWhile_append_dropWhile (p := Text.isBlank) (l := s)
  rw [readValue?] at h
  cases hdrop : s.dropWhile Text.isBlank with
  | nil => simp [hdrop] at h
  | cons c t =>
    rw [hdrop] at hblanks
    simp only [hdrop] at h
    -- the blanks in front of a part of the rest are those of the whole
    have hspan : ∀ y, c :: t = y ++ rest → (s.takeWhile Text.isBlank ++ (y ++ u)).dropWhile Text.isBlank = y ++ u :=
      fun y hy => (Agree.span (by rw [hdrop, hy]; exact hu.append y)).2
    have hwhole : ∀ y, c :: t = y ++ rest → s = s.takeWhile Text.isBlank ++ y ++ rest := fun y hy => by
      rw [List.append_assoc, ← hy, hblanks]
    split at h
    · next hc =>
      obtain ⟨rfl, rfl⟩ := Prod.mk.inj (Option.some_inj.1 h)
      refine ⟨_, hwhole [] rfl, ?_⟩
      cases u with
      | nil => cases hu
      | cons d u =>
        obtain rfl : c = d := by simpa using hu.head?_eq
        rw [List.append_nil, readValue?, show (s.takeWhile Text.isBlank ++ c :: u).dropWhile Text.isBlank = c :: u from
          hspan [] rfl]
        exact if_pos hc
    · next hc =>
      split at h
      · next hquote =>
        obtain ⟨⟨v, r⟩, hread, heq⟩ := Option.map_eq_some_iff.1 h
        obtain ⟨rfl, rfl⟩ := Prod.mk.inj heq
        obtain ⟨rfl, hnot⟩ := eq_of_readQuoted? hread
        have hy : c :: (v ++ c :: r) = c :: (v ++ [c]) ++ r := by simp
        refine ⟨_, hwhole _ hy, ?_⟩
        have hchars : c :: (v ++ [c]) ++ u = c :: (v ++ c :: u) := by simp
        have hbehind := hspan _ hy
        rw [hchars] at hbehind
        rw [List.append_assoc, hchars]
        simp only [readValue?, hbehind, if_neg hc, if_pos hquote, readQuoted?_append hnot]
        rfl
      · next hquote =>
        obtain ⟨rfl, rfl⟩ := Prod.mk.inj (Option.some_inj.1 h)
        have hy := (List.takeWhile_append_dropWhile (p := isBareChar) (l := c :: t)).symm
        refine ⟨_, hwhole _ hy, ?_⟩
        obtain ⟨htake, hdrop'⟩ := Agree.span hu
        have hblank : Text.isBlank c = false := by
          have hnot := List.head?_dropWhile_not Text.isBlank s
          simpa [hdrop] using hnot
        have hbare : isBareChar c = true := by simp [isBareChar, hblank, hc]
        have hspan' := hspan _ hy
        rw [List.append_assoc]
        rw [List.takeWhile_cons_of_pos hbare] at htake hdrop' hspan' ⊢
        rw [List.cons_append] at htake hdrop' hspan' ⊢
        simp only [readValue?, hspan', if_neg hc, if_neg hquote, htake, hdrop']

/-- An attribute is read up to its end, whatever stands behind it. -/
lemma Attribute.read?_append {c : Char} {a : Attribute} (h : read? c s = some (a, rest)) (hu : Agree rest u) :
    ∃ x, s = x ++ rest ∧ read? c (x ++ u) = some (a, u) := by
  have hname := List.takeWhile_append_dropWhile (p := isAttributeChar) (l := s)
  have hblanks := List.takeWhile_append_dropWhile (p := Text.isBlank) (l := s.dropWhile isAttributeChar)
  simp only [read?] at h
  split at h
  · next t hequals =>
    rw [hequals] at hblanks
    obtain ⟨⟨v, r⟩, hread, heq⟩ := Option.map_eq_some_iff.1 h
    obtain rfl : r = rest := by cases v <;> exact congrArg Prod.snd heq
    obtain ⟨y, rfl, hvalue⟩ := readValue?_append hread hu
    obtain ⟨name, hname'⟩ : ∃ name, name = s.takeWhile isAttributeChar := ⟨_, rfl⟩
    obtain ⟨blanks, hblanks'⟩ : ∃ blanks, blanks = (s.dropWhile isAttributeChar).takeWhile Text.isBlank := ⟨_, rfl⟩
    have hagree : Agree (s.dropWhile isAttributeChar) (blanks ++ '=' :: (y ++ u)) := by
      rw [← hblanks, ← hblanks']
      exact ((hu.append y).cons '=').append blanks
    obtain ⟨htake, hdrop⟩ := Agree.span hagree
    have hequals' : (blanks ++ '=' :: (y ++ u)).dropWhile Text.isBlank = '=' :: (y ++ u) := by
      rw [hblanks']
      refine (Agree.span ?_).2
      rw [hequals]
      exact (hu.append y).cons '='
    have hs : s = name ++ blanks ++ '=' :: y ++ r := by
      rw [hname', hblanks', List.append_assoc, List.append_assoc, List.cons_append, hblanks, hname]
    refine ⟨name ++ blanks ++ '=' :: y, hs, ?_⟩
    have hchars : name ++ blanks ++ '=' :: y ++ u = name ++ (blanks ++ '=' :: (y ++ u)) := by simp
    rw [← hname'] at htake hdrop
    have hraw : spelling (c :: (name ++ blanks ++ '=' :: y ++ u)) u = spelling (c :: s) r := by
      rw [hs]
      exact (spelling_append_right (c :: (name ++ blanks ++ '=' :: y)) u).trans (spelling_append_right _ r).symm
    rw [← hchars] at htake hdrop
    subst hname'
    simp only [read?, htake, hdrop, hequals', hvalue]
    have ha := congrArg Prod.fst heq
    cases v with
    | none =>
      obtain rfl : _ = a := ha
      rfl
    | some value =>
      obtain rfl : _ = a := ha
      simp only [Option.map_some, hraw]
  · next hnone =>
    obtain ⟨rfl, rfl⟩ := Prod.mk.inj (Option.some_inj.1 h)
    obtain ⟨htake, hdrop⟩ := Agree.span hu
    refine ⟨_, hname.symm, ?_⟩
    have hhead := (hu.dropWhile (p := Text.isBlank) (by decide)).head?_eq
    simp only [read?, htake, hdrop]
    split
    · next t hequals =>
      rw [hequals] at hhead
      cases hbehind : (s.dropWhile isAttributeChar).dropWhile Text.isBlank with
      | nil => simp [hbehind] at hhead
      | cons d t' =>
        obtain rfl : d = '=' := by simpa [hbehind] using hhead
        exact absurd hbehind (hnone t')
    · rfl

lemma mem_of_closed {x : Text} (h : ['>'] <:+ x) : '>' ∈ x :=
  h.subset (List.mem_singleton.2 rfl)

lemma ne_nil_of_closed {x : Text} (h : ['>'] <:+ x) : x ≠ [] :=
  List.ne_nil_of_mem (mem_of_closed h)

/-- The attributes of a tag are read up to its closing bracket. -/
lemma readAttributes?_append {attributes : List Attribute} {slash : Bool}
    (h : readAttributes? s = some (attributes, slash, rest)) :
    ∃ x, s = x ++ rest ∧ ['>'] <:+ x ∧ ∀ t, readAttributes? (x ++ t) = some (attributes, slash, t) := by
  fun_induction readAttributes? s generalizing attributes with
  | case1 => cases h
  | case2 s =>
    obtain ⟨rfl, rfl, rfl⟩ := by simpa using h
    refine ⟨['>'], rfl, List.suffix_refl _, fun t => ?_⟩
    rw [List.cons_append, readAttributes?.eq_def]
    rfl
  | case3 c s hclose hblank ih =>
    obtain ⟨x, rfl, hend, hx⟩ := ih h
    refine ⟨c :: x, rfl, hend.trans (List.suffix_cons c x), fun t => ?_⟩
    rw [List.cons_append, readAttributes?.eq_def]
    simp only [hclose, hblank, if_true, if_false, hx]
  | case4 tail =>
    obtain ⟨rfl, rfl, rfl⟩ := by simpa using h
    refine ⟨['/', '>'], rfl, List.suffix_cons _ _, fun t => ?_⟩
    rw [List.cons_append, readAttributes?.eq_def]
    rfl
  | case5 s hslash hclose hblank ih =>
    obtain ⟨x, rfl, hend, hx⟩ := ih h
    refine ⟨'/' :: x, rfl, hend.trans (List.suffix_cons _ x), fun t => ?_⟩
    obtain ⟨c, x, rfl⟩ := List.exists_cons_of_ne_nil (ne_nil_of_closed hend)
    have hc : c ≠ '>' := by
      rintro rfl
      exact hslash (x ++ rest) rfl
    have hlater := hx t
    rw [List.cons_append] at hlater
    rw [List.cons_append, List.cons_append, readAttributes?.eq_def]
    simp only [if_neg (show '/' ≠ '>' by decide), show Text.isBlank '/' = false from rfl, Bool.false_eq_true, if_false,
      if_true]
    split
    · next heq => exact absurd (List.cons.inj heq).1 hc
    · exact hlater
  | case6 => cases h
  | case7 c s hclose hblank hslash a r hread _ ih =>
    obtain ⟨⟨as, b, r'⟩, hlater, heq⟩ := Option.map_eq_some_iff.1 h
    obtain ⟨rfl, rfl, rfl⟩ := by simpa using heq
    obtain ⟨x, rfl, hend, hx⟩ := ih hlater
    obtain ⟨y, hy, -⟩ := Attribute.read?_append hread (Agree.refl _)
    refine ⟨c :: (y ++ x), ?_, hend.trans (List.suffix_append (c :: y) x), fun t => ?_⟩
    · rw [hy, List.cons_append, List.append_assoc]
    · obtain ⟨y', hy', hread'⟩ := Attribute.read?_append hread (Agree.of_mem (mem_of_closed hend) r' t)
      obtain rfl := List.append_cancel_right (hy.symm.trans hy')
      rw [List.cons_append, List.append_assoc, readAttributes?.eq_def]
      simp only [hclose, hblank, hslash, if_false, Bool.false_eq_true]
      split
      · next hnone => simp [hread'] at hnone
      · next a' rest' hsome =>
        obtain ⟨rfl, rfl⟩ := Prod.mk.inj (Option.some_inj.1 (hread'.symm.trans hsome))
        rw [hx t]
        rfl

/-- A tag is read up to its closing bracket. -/
lemma Tag.read?_append {tag : Tag} (h : Tag.read? s = some (tag, rest)) :
    ∃ x, s = x ++ rest ∧ ['>'] <:+ x ∧ ∀ t, Tag.read? (x ++ t) = some (tag, t) := by
  obtain ⟨⟨as, b, r⟩, hread, heq⟩ := Option.map_eq_some_iff.1 h
  obtain ⟨htag, rfl⟩ := Prod.mk.inj heq
  obtain ⟨x, hx, hend, hread'⟩ := readAttributes?_append hread
  have hname := List.takeWhile_append_dropWhile (p := isTagChar) (l := s)
  refine ⟨s.takeWhile isTagChar ++ x, ?_, hend.trans (List.suffix_append _ x), fun t => ?_⟩
  · rw [List.append_assoc, ← hx, hname]
  · have hagree : Agree (s.dropWhile isTagChar) (x ++ t) := hx ▸ Agree.of_mem (mem_of_closed hend) r t
    obtain ⟨htake, hdrop⟩ := hagree.span
    rw [List.append_assoc, Tag.read?, hdrop, htake, hread', ← htag]
    rfl

end Tags

/-! ## Markup -/

section Markup

variable {s rest : Text}

/-- A comment that is closed is read up to its closing bracket. -/
lemma afterComment_append {part : CommentPart} (hne : afterComment part s ≠ []) :
    ∃ x, s = x ++ afterComment part s ∧ ['>'] <:+ x ∧ ∀ t, afterComment part (x ++ t) = t := by
  induction s generalizing part with
  | nil => exact absurd rfl hne
  | cons c s ih =>
    cases hstep : part.step? c with
    | none =>
      have hc : c = '>' := by
        by_contra hnot
        delta CommentPart.step? at hstep
        rw [if_neg hnot] at hstep
        split at hstep
        · split at hstep <;> cases hstep
        · split at hstep <;> cases hstep
      simp only [afterComment, hstep] at hne ⊢
      exact ⟨[c], rfl, hc ▸ List.suffix_refl _, fun t => by simp [afterComment, hstep]⟩
    | some part' =>
      simp only [afterComment, hstep] at hne ⊢
      obtain ⟨x, hx, hend, hread⟩ := ih hne
      refine ⟨c :: x, congrArg (c :: ·) hx, hend.trans (List.suffix_cons c x), fun t => ?_⟩
      simp only [List.cons_append, afterComment, hstep, hread]

/-- What reaches to the next closing bracket is read up to it. -/
lemma afterBracket_append (hne : afterBracket s ≠ []) :
    ∃ x, s = x ++ afterBracket s ∧ ['>'] <:+ x ∧ ∀ t, afterBracket (x ++ t) = t := by
  have hsplit := List.takeWhile_append_dropWhile (p := (· ≠ '>')) (l := s)
  cases hdrop : s.dropWhile (· ≠ '>') with
  | nil =>
    rw [afterBracket, hdrop] at hne
    exact absurd rfl hne
  | cons c t =>
    have hc : c = '>' := by
      have hnot := List.head?_dropWhile_not (fun c => decide (c ≠ '>')) s
      rw [hdrop] at hnot
      simpa using hnot
    subst hc
    have hafter : afterBracket s = t := by
      rw [afterBracket, hdrop]
      rfl
    rw [hafter]
    refine ⟨s.takeWhile (· ≠ '>') ++ ['>'], ?_, List.suffix_append _ _, fun t => ?_⟩
    · rw [List.append_assoc, List.singleton_append, ← hdrop, hsplit]
    · rw [List.append_assoc, List.singleton_append, afterBracket]
      have hspan := (Agree.span (p := (· ≠ '>')) (hdrop ▸ Agree.bracket _ t)).2
      rw [hspan]
      rfl

/-- Markup at the head of a text that is read as it is, whatever stands behind it. -/
def ReadAlone (sections : Bool) (s : Text) (markup : Markup) (rest : Text) : Prop :=
  ∃ x, s = x ++ rest ∧ (∀ t, readMarkup sections (x ++ t) = (markup, t)) ∧
    (['>'] <:+ x ∨ markup = .sectionStart ∧ 2 ≤ x.length)

variable {sections : Bool} {markup : Markup}

/-- Behind `</` stands an end tag or something that reaches to the next closing bracket. -/
lemma readAlone_stop (h : readMarkup sections ('/' :: s) = (markup, rest)) (hne : rest ≠ []) :
    ReadAlone sections ('/' :: s) markup rest := by
  cases s with
  | nil =>
    obtain ⟨-, rfl⟩ := Prod.mk.inj h
    exact absurd rfl hne
  | cons d s =>
    by_cases hd : d.isAlpha = true
    · cases hread : Tag.read? (d :: s) with
      | none =>
        simp only [readMarkup, hd, hread, if_true] at h
        obtain ⟨-, rfl⟩ := Prod.mk.inj h
        exact absurd rfl hne
      | some r =>
        simp only [readMarkup, hd, hread, if_true] at h
        obtain ⟨rfl, rfl⟩ := Prod.mk.inj h
        obtain ⟨x, hx, hend, hread'⟩ := Tag.read?_append hread
        obtain ⟨d', x, rfl⟩ := List.exists_cons_of_ne_nil (ne_nil_of_closed hend)
        obtain ⟨rfl, rfl⟩ := List.cons.inj hx
        refine ⟨'/' :: d :: x, rfl, fun t => ?_, Or.inl (hend.trans (List.suffix_cons _ _))⟩
        have hlater := hread' t
        rw [List.cons_append] at hlater
        simp only [List.cons_append, readMarkup, if_true, hd, hlater]
    · simp only [readMarkup, hd, if_true, if_false, Bool.false_eq_true] at h
      obtain ⟨rfl, rfl⟩ := Prod.mk.inj h
      obtain ⟨x, hx, hend, hread⟩ := afterBracket_append hne
      obtain ⟨d', x, rfl⟩ := List.exists_cons_of_ne_nil (ne_nil_of_closed hend)
      obtain ⟨rfl, -⟩ := List.cons.inj hx
      refine ⟨'/' :: d :: x, by rw [List.cons_append, ← hx], fun t => ?_, Or.inl (hend.trans (List.suffix_cons _ _))⟩
      have hlater := hread t
      rw [List.cons_append] at hlater
      simp only [List.cons_append, readMarkup, if_true, if_neg hd, hlater]

/-- A letter begins a start tag. -/
lemma readAlone_start {c : Char} (hc : c.isAlpha = true) (h : readMarkup sections (c :: s) = (markup, rest))
    (hne : rest ≠ []) : ReadAlone sections (c :: s) markup rest := by
  have hslash : c ≠ '/' := by
    rintro rfl
    exact absurd hc (by decide)
  cases hread : Tag.read? (c :: s) with
  | none =>
    simp only [readMarkup, if_neg hslash, hc, hread, if_true] at h
    obtain ⟨-, rfl⟩ := Prod.mk.inj h
    exact absurd rfl hne
  | some r =>
    simp only [readMarkup, if_neg hslash, hc, hread, if_true] at h
    obtain ⟨rfl, rfl⟩ := Prod.mk.inj h
    obtain ⟨x, hx, hend, hread'⟩ := Tag.read?_append hread
    obtain ⟨c', x, rfl⟩ := List.exists_cons_of_ne_nil (ne_nil_of_closed hend)
    obtain ⟨rfl, rfl⟩ := List.cons.inj hx
    refine ⟨c :: x, rfl, fun t => ?_, Or.inl hend⟩
    have hlater := hread' t
    rw [List.cons_append] at hlater
    simp only [List.cons_append, readMarkup, if_neg hslash, hc, if_true, hlater]

/-- Anything else begins a comment, a section, or something that reaches to the next closing bracket. -/
lemma readAlone_other {c : Char} (hslash : c ≠ '/') (hc : c.isAlpha = false)
    (h : readMarkup sections (c :: s) = (markup, rest)) (hne : rest ≠ []) :
    ReadAlone sections (c :: s) markup rest := by
  simp only [readMarkup, if_neg hslash, hc, Bool.false_eq_true, if_false] at h
  cases hcomment : Text.afterToken? "!--".toList (c :: s) with
  | some content =>
    simp only [hcomment] at h
    obtain ⟨rfl, rfl⟩ := Prod.mk.inj h
    obtain ⟨x, hx, hend, hread⟩ := afterComment_append hne
    refine ⟨"!--".toList ++ x, ?_, fun t => ?_, Or.inl (hend.trans (List.suffix_append _ x))⟩
    · rw [Text.afterToken?_eq_some_iff.1 hcomment, List.append_assoc, ← hx]
    · rw [List.append_assoc]
      exact congrArg (Markup.other, ·) (hread t)
  | none =>
    simp only [hcomment] at h
    cases hsection : (if sections then Text.afterToken? "![CDATA[".toList (c :: s) else none) with
    | some content =>
      simp only [hsection] at h
      obtain ⟨rfl, rfl⟩ := Prod.mk.inj h
      cases sections with
      | false => cases hsection
      | true =>
        refine ⟨"![CDATA[".toList, Text.afterToken?_eq_some_iff.1 hsection, fun t => rfl, Or.inr ⟨rfl, by decide⟩⟩
    | none =>
      simp only [hsection] at h
      obtain ⟨rfl, rfl⟩ := Prod.mk.inj h
      obtain ⟨x, hx, hend, hread⟩ := afterBracket_append hne
      obtain ⟨c', x, rfl⟩ := List.exists_cons_of_ne_nil (ne_nil_of_closed hend)
      obtain ⟨rfl, hs⟩ := List.cons.inj hx
      refine ⟨c :: x, hx, fun t => ?_, Or.inl hend⟩
      have hagree : Agree (c :: s) (c :: (x ++ t)) := hx ▸ Agree.of_mem (mem_of_closed hend) _ t
      have hcomment' : Text.afterToken? "!--".toList (c :: (x ++ t)) = none := by
        rw [← Option.not_isSome_iff_eq_none, ← hagree.isSome_afterToken? (by decide), hcomment]
        simp
      have hsection' : (if sections then Text.afterToken? "![CDATA[".toList (c :: (x ++ t)) else none) = none := by
        cases sections with
        | false => rfl
        | true =>
          rw [if_pos rfl] at hsection ⊢
          rw [← Option.not_isSome_iff_eq_none, ← hagree.isSome_afterToken? (by decide), hsection]
          simp
      have hlater := hread t
      rw [List.cons_append] at hlater
      simp only [List.cons_append, readMarkup, if_neg hslash, hc, Bool.false_eq_true, if_false, hcomment', hsection',
        hlater]

/-- **Markup is read up to its end.** What stands behind markup that does not reach to the end of the text does
not matter for it. -/
lemma readAlone (h : readMarkup sections s = (markup, rest)) (hne : rest ≠ []) : ReadAlone sections s markup rest := by
  cases s with
  | nil =>
    obtain ⟨-, rfl⟩ := Prod.mk.inj h
    exact absurd rfl hne
  | cons c s =>
    by_cases hslash : c = '/'
    · subst hslash
      exact readAlone_stop h hne
    · cases hc : c.isAlpha with
      | true => exact readAlone_start hc h hne
      | false => exact readAlone_other hslash hc h hne

end Markup

end MarkedMath.Html
