import MarkedMath.Proofs.Html.Locality
import MarkedMath.Proofs.Pieces

/-!
# Reading a document once more

A document is read token by token, and each token leads from a place to a place (`Place.Reads`). When a part of
the document is written anew, the tokens in front of it and behind it are read as before, provided that what
stands behind a token ends it as before (`Place.Carries`, `Place.Reads.kept`).

Two readings of a document can part: where a tag ends in an equals sign, and where a tag has to be weighed. In an
orderly document (`Orderly`) this does not happen, and a survey reads the tokens of a conversion
(`Place.tokens_survey`).
-/

namespace MarkedMath.Html

/-! ## Orderly documents -/

/-- The context behind a token. -/
def Token.behind (c : Context) : Token → Context
  | .start tag _ _ _ => (c.enter tag).toOption.getD c
  | .stop tag _ _ => c.leave tag
  | _ => c

/-- A token that is read in the same way for every purpose, and whose markers stand where elements of HTML may
stand: a text with markers is no text of a drawing or formula, the start tag of a special element does not end in
an equals sign, and no end tag has to be weighed. -/
def Token.Orderly (g : Grammar) (c : Context) : Token → Prop
  | .text mode content => mode = .data → (g.pieces content).any Piece.isMarker = true → c.vocabulary = .html
  | .start tag _ _ _ => tag.lacksValue = true → c.vocabulary = .html → isSpecial tag.element = false
  | .stop _ _ weighed => weighed = false
  | _ => True

/-- Tokens that are orderly where they stand. -/
def Orderly (g : Grammar) (c : Context) : List Token → Prop
  | [] => True
  | token :: rest => token.Orderly g c ∧ Orderly g (token.behind c) rest

instance (g : Grammar) (c : Context) : (token : Token) → Decidable (token.Orderly g c)
  | .text mode content => inferInstanceAs
      (Decidable (mode = .data → (g.pieces content).any Piece.isMarker = true → c.vocabulary = .html))
  | .start tag _ _ _ => inferInstanceAs
      (Decidable (tag.lacksValue = true → c.vocabulary = .html → isSpecial tag.element = false))
  | .stop _ _ weighed => inferInstanceAs (Decidable (weighed = false))
  | .other _ => isTrue trivial
  | .swallowed _ _ => isTrue trivial

instance decidableOrderly (g : Grammar) (c : Context) : (tokens : List Token) → Decidable (Orderly g c tokens)
  | [] => isTrue trivial
  | token :: rest =>
    have := decidableOrderly g (token.behind c) rest
    inferInstanceAs (Decidable (token.Orderly g c ∧ Orderly g (token.behind c) rest))

namespace Place

/-! ## Steps -/

/-- What the reader does at the head of a text, and where it is afterwards. -/
inductive Reads (r : Reading) (p : Place) (s : Text) : Token → Place → Text → Prop where
  /-- A text is read up to its end. -/
  | text {content rest : Text} (h : takeText p.mode p.element s = (content, rest)) (hne : content ≠ []) :
    Reads r p s (.text p.label content) p rest
  /-- The mark at the end of a section is read. -/
  | sectionEnd (h : takeText p.mode p.element s = ([], s)) (hmode : p.mode = .cdata) :
    Reads r p s (.other (s.take 3)) { p with mode := .data, label := .data } (s.drop 3)
  /-- Markup is read. -/
  | markup {m : Markup} {token : Token} {p' : Place} {rest : Text} (h : takeText p.mode p.element s = ([], s))
    (hmode : p.mode ≠ .cdata) (hread : readMarkup (p.context.vocabulary ≠ .html) (s.drop 1) = (m, rest))
    (hpass : p.pass r (spelling s rest) m = .ok (token, p')) : Reads r p s token p' rest

section Steps

variable {g : Grammar} {r : Reading} {p p' : Place} {s rest u : Text} {token : Token} {tokens : List Token}

lemma swallowed?_eq_none (hr : r ≠ .toggle) (p : Place) (m : Markup) : p.swallowed? r m = none :=
  if_neg (by simp [hr])

/-- The element of a start tag at the head of a text that is taken for text. -/
def swallows? (r : Reading) (p : Place) (s : Text) : Option String :=
  if takeText p.mode p.element s = ([], s) ∧ p.mode ≠ .cdata then
    p.swallowed? r (readMarkup (p.context.vocabulary ≠ .html) (s.drop 1)).1
  else none

lemma swallows?_eq_none (hr : r ≠ .toggle) (p : Place) (s : Text) : p.swallows? r s = none := by
  rw [swallows?, swallowed?_eq_none hr, ite_self]

/-- A start tag that is taken for text is read with the text behind it. -/
lemma next_of_swallows {element : String} (h : p.swallows? r s = some element) :
    p.next r s = .ok (.swallowed element (s.take 1 ++ (takeText p.label element (s.drop 1)).1),
      { p with mode := p.label, element }, (takeText p.label element (s.drop 1)).2) := by
  rw [swallows?] at h
  split at h
  · next hhead => simp only [next, hhead.1, hhead.2, if_false, h]
  · cases h

lemma next_iff_of_not_swallows (hnot : p.swallows? r s = none) :
    p.next r s = .ok (token, p', rest) ↔ p.Reads r s token p' rest := by
  have hwhole := takeText_append p.mode p.element s
  have hmarkup : takeText p.mode p.element s = ([], s) → p.mode ≠ .cdata →
      p.swallowed? r (readMarkup (p.context.vocabulary ≠ .html) (s.drop 1)).1 = none := fun htake hmode => by
    rwa [swallows?, if_pos ⟨htake, hmode⟩] at hnot
  constructor
  · intro h
    unfold next at h
    split at h
    · next c content after htake =>
      obtain ⟨rfl, rfl, rfl⟩ := by simpa using h
      exact .text htake (by simp)
    · next after htake =>
      rw [htake] at hwhole
      obtain rfl : after = s := hwhole
      split at h
      · next hmode =>
        obtain ⟨rfl, rfl, rfl⟩ := by simpa using h
        exact .sectionEnd htake hmode
      · next hmode =>
        simp only [hmarkup htake hmode] at h
        obtain ⟨⟨token', p''⟩, hpass, heq⟩ := exists_of_map_eq_ok h
        obtain ⟨rfl, rfl, rfl⟩ := Prod.mk.injEq .. ▸ Prod.mk.injEq .. ▸ heq
        exact .markup htake hmode rfl hpass
  · rintro (⟨htake, hne⟩ | ⟨htake, hmode⟩ | ⟨htake, hmode, hread, hpass⟩)
    · next content =>
      obtain ⟨c, content, rfl⟩ := List.exists_cons_of_ne_nil hne
      simp only [next, htake]
    · simp only [next, htake]
      exact if_pos hmode
    · have hfree := hmarkup htake hmode
      rw [hread] at hfree
      simp only [next, htake, hmode, if_false, hread, hfree, hpass]
      rfl

lemma next_iff (hr : r ≠ .toggle) : p.next r s = .ok (token, p', rest) ↔ p.Reads r s token p' rest :=
  next_iff_of_not_swallows (swallows?_eq_none hr p s)

lemma tokens_eq_cons_iff_next : p.tokens r s = .ok (token :: tokens) ↔
    s ≠ [] ∧ ∃ p' rest, p.next r s = .ok (token, p', rest) ∧ p'.tokens r rest = .ok tokens := by
  constructor
  · intro h
    have hs : s ≠ [] := by
      rintro rfl
      rw [Place.tokens, dif_pos rfl] at h
      cases h
    refine ⟨hs, ?_⟩
    cases hnext : p.next r s with
    | error e =>
      rw [tokens_of_error hs hnext] at h
      cases h
    | ok x =>
      obtain ⟨token', p', rest⟩ := x
      rw [tokens_of_next hs hnext] at h
      obtain ⟨more, hmore, heq⟩ := exists_of_map_eq_ok h
      obtain ⟨rfl, rfl⟩ := List.cons.inj heq
      exact ⟨p', rest, rfl, hmore⟩
  · rintro ⟨hs, p', rest, hnext, htokens⟩
    rw [tokens_of_next hs hnext, htokens]
    rfl

lemma tokens_eq_cons_iff (hr : r ≠ .toggle) : p.tokens r s = .ok (token :: tokens) ↔
    s ≠ [] ∧ ∃ p' rest, p.Reads r s token p' rest ∧ p'.tokens r rest = .ok tokens := by
  simp only [tokens_eq_cons_iff_next, next_iff hr]

lemma tokens_eq_nil_iff : p.tokens r s = .ok [] ↔ s = [] := by
  constructor
  · intro h
    simpa using (flatMap_raw_of_tokens h).symm
  · rintro rfl
    rw [Place.tokens, dif_pos rfl]

lemma tokens_of_reads (hr : r ≠ .toggle) (hs : s ≠ []) (h : p.Reads r s token p' rest) :
    p.tokens r s = (p'.tokens r rest).map (token :: ·) :=
  tokens_of_next hs ((next_iff hr).2 h)

lemma Reads.raw_append (h : p.Reads r s token p' rest) : token.raw ++ rest = s := by
  cases h with
  | text htake =>
    have hwhole := takeText_append p.mode p.element s
    rwa [htake] at hwhole
  | sectionEnd => exact List.take_append_drop 3 s
  | markup _ _ hread hpass =>
    rw [raw_of_pass hpass]
    refine spelling_append (List.IsSuffix.trans ?_ (List.drop_suffix 1 s))
    have hsuffix := isSuffix_readMarkup (p.context.vocabulary ≠ .html) (s.drop 1)
    rwa [hread] at hsuffix

/-! ## Places -/

/-- The element around has the name of one. -/
def Named (p : Place) : Prop :=
  ∀ c ∈ p.element.toList, isTagChar c = true

/-- Text counts as it is read, no tag is taken for an end tag, and the element around has the name of one. -/
structure Tidy (p : Place) : Prop where
  label : p.label = p.mode
  closing : p.closing = false
  letters : p.Named

lemma tidy_start : Tidy {} :=
  ⟨rfl, rfl, by simp [Named]⟩

lemma isTagChar_lowerChar (c : Char) : isTagChar (Text.lowerChar c) = isTagChar c := by
  rw [Text.lowerChar]
  split
  · next hc =>
    -- a capital letter is made a small one, and no letter ends a name
    have hletters : ∀ n < 91, 65 ≤ n → isTagChar (Char.ofNat (n + 32)) = true ∧ isTagChar (Char.ofNat n) = true := by
      decide
    have hlow : 65 ≤ c.toNat := UInt32.le_iff_toNat_le.1 hc.1
    have hhigh : c.toNat ≤ 90 := UInt32.le_iff_toNat_le.1 hc.2
    have hchar := hletters c.toNat (by omega) hlow
    rw [Char.ofNat_toNat] at hchar
    rw [hchar.1, hchar.2]
  · rfl

lemma isTagChar_of_mem_element {tag : Text} (h : ∀ c ∈ tag, isTagChar c = true) :
    ∀ c ∈ (String.ofList (Text.lower tag)).toList, isTagChar c = true := by
  intro c hc
  rw [String.toList_ofList] at hc
  obtain ⟨d, hd, rfl⟩ := List.mem_map.1 hc
  rw [isTagChar_lowerChar, h d hd]

lemma name_of_read? {tag : Tag} (h : Tag.read? s = some (tag, rest)) : tag.name = s.takeWhile isTagChar := by
  obtain ⟨x, -, heq⟩ := Option.map_eq_some_iff.1 h
  rw [← (Prod.mk.inj heq).1]

lemma read?_of_readMarkup_start {sections : Bool} {tag : Tag} (h : readMarkup sections s = (.start tag, rest)) :
    Tag.read? s = some (tag, rest) := by
  cases s with
  | nil => cases h
  | cons c s =>
    simp only [readMarkup] at h
    split at h
    · split at h
      · cases h
      · split at h
        · split at h <;> cases h
        · cases h
    · split at h
      · split at h
        · next hread =>
          cases h
          exact hread
        · rw [Markup.ofBroken] at h
          split at h <;> cases h
      · split at h
        · cases h
        · split at h <;> cases h

lemma read?_of_readMarkup_stop {sections : Bool} {tag : Tag} (h : readMarkup sections s = (.stop tag, rest)) :
    ∃ t, s = '/' :: t ∧ Tag.read? t = some (tag, rest) := by
  cases s with
  | nil => cases h
  | cons c s =>
    simp only [readMarkup] at h
    split at h
    · next hc =>
      split at h
      · cases h
      · split at h
        · split at h
          · next hread =>
            cases h
            exact ⟨_, by rw [hc], hread⟩
          · cases h
        · cases h
    · split at h
      · split at h
        · cases h
        · rw [Markup.ofBroken] at h
          split at h <;> cases h
      · split at h
        · cases h
        · split at h <;> cases h

lemma textMode_of_not_special {c : Context} {tag : Tag} (h : c.vocabulary = .html → isSpecial tag.element = false) :
    c.textMode tag = .data := by
  rw [Context.textMode]
  split
  · next hhtml =>
    have hnone := h hhtml
    rw [isSpecial, Option.isSome_eq_false_iff, Option.isNone_iff_eq_none] at hnone
    rw [TextMode.ofElement, hnone]
    rfl
  · rfl

/-- A start tag in an orderly document is read in the same way for every purpose. -/
lemma modeBehind_of_orderly {c : Context} {tag : Tag} {raw : Text} {vocabulary : Vocabulary} {weighed : Bool}
    (h : (Token.start tag raw vocabulary weighed).Orderly g c) :
    r.modeBehind tag (c.textMode tag) = c.textMode tag := by
  rw [Reading.modeBehind]
  split
  · next hlacks => exact (textMode_of_not_special (h (Bool.and_eq_true_iff.1 hlacks).1)).symm
  · rfl

lemma opening_eq_ok {raw : Text} {tag : Tag} (h : p.opening r raw tag = .ok (token, p')) :
    ∃ context, p.context.enter tag = .ok context ∧
      token = .start tag raw context.vocabulary (p.context.weighsStart tag.element) ∧
      p' = { mode := r.modeBehind tag (p.context.textMode tag), label := p.context.textMode tag,
             element := tag.element, context } := by
  obtain ⟨context, hcontext, heq⟩ := exists_of_map_eq_ok h
  obtain ⟨rfl, rfl⟩ := Prod.mk.inj heq
  exact ⟨context, hcontext, rfl, rfl⟩

/-- What markup with a spelling is taken for where no tag is taken for an end tag, and the place behind it. -/
inductive Passes (r : Reading) (p : Place) (raw : Text) : Markup → Token → Place → Prop where
  | start {tag : Tag} {context : Context} (h : p.context.enter tag = .ok context) :
    Passes r p raw (.start tag) (.start tag raw context.vocabulary (p.context.weighsStart tag.element))
      { mode := r.modeBehind tag (p.context.textMode tag), label := p.context.textMode tag,
        element := tag.element, context }
  | stop (tag : Tag) :
    Passes r p raw (.stop tag) (.stop tag raw (p.context.weighsStop tag.element)) (p.close r raw tag).2
  | sectionStart : Passes r p raw .sectionStart (.other raw) { p with mode := .cdata, label := .cdata }
  | other (m : Markup) : Passes r p raw m (.other raw) p

lemma passes_of_pass {raw : Text} {m : Markup} (hclosing : p.closing = false)
    (h : p.pass r raw m = .ok (token, p')) : p.Passes r raw m token p' := by
  cases m with
  | start tag =>
    rw [pass, if_neg (by simp [hclosing])] at h
    obtain ⟨context, hcontext, rfl, rfl⟩ := opening_eq_ok h
    exact .start hcontext
  | stop tag =>
    obtain ⟨rfl, rfl⟩ := Prod.mk.inj (Except.ok.inj h)
    exact .stop tag
  | broken element =>
    rw [pass] at h
    split at h
    · obtain ⟨doubt, -, heq⟩ := exists_of_map_eq_ok h
      obtain ⟨rfl, rfl⟩ := Prod.mk.inj heq
      exact .other _
    · obtain ⟨rfl, rfl⟩ := Prod.mk.inj (Except.ok.inj h)
      exact .other _
  | sectionStart =>
    obtain ⟨rfl, rfl⟩ := Prod.mk.inj (Except.ok.inj h)
    exact .sectionStart
  | other =>
    obtain ⟨rfl, rfl⟩ := Prod.mk.inj (Except.ok.inj h)
    exact .other _

lemma Reads.readMarkup_stop {tag : Tag} {raw : Text} {weighed : Bool} (hp : p.Tidy)
    (h : p.Reads r s (.stop tag raw weighed) p' rest) :
    readMarkup (p.context.vocabulary ≠ .html) (s.drop 1) = (.stop tag, rest) := by
  cases h with
  | markup _ _ hread hpass =>
    cases passes_of_pass hp.closing hpass with
    | stop => exact hread

lemma named_of_readMarkup {sections : Bool} {tag : Tag} (h : readMarkup sections s = (.start tag, rest)) :
    ∀ c ∈ tag.element.toList, isTagChar c = true := by
  refine isTagChar_of_mem_element fun c hc => ?_
  rw [name_of_read? (read?_of_readMarkup_start h)] at hc
  exact List.mem_takeWhile_imp hc

/-- The place behind a token of an orderly document. -/
lemma Reads.tidy (hp : p.Tidy) (h : p.Reads r s token p' rest) (ht : token.Orderly g p.context) :
    p'.Tidy ∧ p'.context = token.behind p.context := by
  cases h with
  | text => exact ⟨hp, rfl⟩
  | sectionEnd => exact ⟨⟨rfl, hp.closing, hp.letters⟩, rfl⟩
  | markup _ _ hread hpass =>
    cases passes_of_pass hp.closing hpass with
    | start hcontext =>
      exact ⟨⟨(modeBehind_of_orderly ht).symm, rfl, named_of_readMarkup hread⟩,
        by simp [Token.behind, hcontext, Except.toOption]⟩
    | stop tag =>
      have hweighed : p.context.weighsStop tag.element = false := ht
      exact ⟨⟨rfl, by simp [close, hweighed], hp.letters⟩, rfl⟩
    | sectionStart => exact ⟨⟨rfl, hp.closing, hp.letters⟩, rfl⟩
    | other => exact ⟨hp, rfl⟩

/-! ## Surveys -/

/-- A survey reads the tokens of a conversion, unless it fails. -/
lemma Reads.survey (hp : p.Tidy) (h : p.Reads .conversion s token p' rest) (ht : token.Orderly g p.context) :
    p.Reads .survey s token p' rest ∨ ∃ e, p.next .survey s = .error e := by
  cases h with
  | text htake hne => exact Or.inl (.text htake hne)
  | sectionEnd htake hmode => exact Or.inl (.sectionEnd htake hmode)
  | @markup m _ _ _ htake hmode hread hpass =>
    have hsame : p.pass .survey (spelling s rest) m = .ok (token, p') →
        p.Reads .survey s token p' rest ∨ ∃ e, p.next .survey s = .error e :=
      fun hpass' => Or.inl (.markup htake hmode hread hpass')
    cases m with
    | start tag =>
      refine hsame ?_
      rw [pass, if_neg (by simp [hp.closing])] at hpass ⊢
      obtain ⟨context, hcontext, rfl, rfl⟩ := opening_eq_ok hpass
      simp only [opening, hcontext, Except.map, modeBehind_of_orderly ht]
    | stop tag =>
      refine hsame ?_
      obtain ⟨rfl, rfl⟩ := Prod.mk.inj (Except.ok.inj hpass)
      have hweighed : p.context.weighsStop tag.element = false := ht
      simp [pass, close, hweighed]
    | broken element =>
      cases hdoubt : p.context.doubt.enter element with
      | ok doubt =>
        refine hsame ?_
        have hsurvey : p.pass .survey (spelling s rest) (.broken element) = .ok (.other (spelling s rest), p) := by
          simp [pass, hdoubt, Except.map]
        rw [hsurvey]
        exact hpass
      | error e =>
        refine Or.inr ⟨e, ?_⟩
        simp only [next, htake, hmode, if_false, hread, swallowed?_eq_none (r := .survey) (by decide), pass, hp.closing,
          hdoubt]
        rfl
    | sectionStart => exact hsame hpass
    | other => exact hsame hpass

lemma tokens_survey (hp : p.Tidy) (htokens : p.tokens .conversion s = .ok tokens) (hg : Orderly g p.context tokens)
    {surveyed : List Token} (h : p.tokens .survey s = .ok surveyed) : surveyed = tokens := by
  induction tokens generalizing p s surveyed with
  | nil =>
    obtain rfl := tokens_eq_nil_iff.1 htokens
    rw [tokens_eq_nil_iff.2 rfl] at h
    exact (Except.ok.inj h).symm
  | cons token tokens ih =>
    obtain ⟨hs, p', rest, hreads, hlater⟩ := (tokens_eq_cons_iff (by decide)).1 htokens
    obtain ⟨htoken, hg⟩ := hg
    obtain ⟨hp', hcontext⟩ := hreads.tidy hp htoken
    rcases hreads.survey hp htoken with hsurvey | ⟨e, he⟩
    · rw [tokens_of_reads (by decide) hs hsurvey] at h
      obtain ⟨more, hmore, rfl⟩ := exists_of_map_eq_ok h
      rw [ih hp' hlater (hcontext ▸ hg) hmore]
    · rw [tokens_of_error hs he] at h
      cases h

/-! ## What stands behind a token -/

/-- The text `u` may stand behind a place in the stead of `s`: it ends a text in front of it in the same way. -/
structure Carries (p : Place) (s u : Text) : Prop where
  /-- Behind the last token nothing is added. -/
  nil : s = [] → u = []
  /-- Markup stays markup. -/
  markup : p.mode = .data → beginsMarkup s = true → beginsMarkup u = true
  /-- What ends a text of another mode stays. -/
  agree : p.mode ≠ .data → Agree s u

lemma Carries.refl (p : Place) (s : Text) : p.Carries s s :=
  ⟨id, fun _ h => h, fun _ => .refl s⟩

lemma Named.not_mem (hp : p.Named) : '>' ∉ p.element.toList := fun h =>
  absurd (hp _ h) (by decide)

/-- No text stands at the head of the rest, so none stands at the head of what may stand there. -/
lemma Carries.takeText_nil (hp : p.Named) (h : p.Carries s u) (hs : s ≠ [])
    (htake : takeText p.mode p.element s = ([], s)) : takeText p.mode p.element u = ([], u) := by
  by_cases hdata : p.mode = .data
  · have hbegins : beginsMarkup s = true := by
      rw [hdata] at htake
      exact ends_of_takeUntil_nil hs htake
    rw [hdata]
    exact takeUntil_beginsMarkup (w := []) (by simp) (Or.inr (h.markup hdata hbegins))
  · exact takeText_of_agree (x := []) hdata (h.agree hdata) hp.not_mem htake

/-- A text that is not data is read up to what stands in the stead of the rest. -/
lemma Carries.takeText_kept (hp : p.Named) (h : p.Carries rest u) (hdata : p.mode ≠ .data) {content : Text}
    (htake : takeText p.mode p.element s = (content, rest)) :
    takeText p.mode p.element (content ++ u) = (content, u) := by
  have hwhole := takeText_append p.mode p.element s
  rw [htake] at hwhole
  rw [← hwhole] at htake
  exact takeText_of_agree hdata (h.agree hdata) hp.not_mem htake

lemma exists_of_beginsMarkup (h : beginsMarkup s = true) : ∃ t, s = '<' :: t := by
  unfold beginsMarkup at h
  split at h
  · exact ⟨_, rfl⟩
  · cases h

lemma exists_of_beginsEndTag {element : Text} (h : beginsEndTag element s = true) :
    ∃ t, s = '<' :: '/' :: t ∧ (afterElement? element t).isSome = true := by
  unfold beginsEndTag at h
  split at h
  · exact ⟨_, rfl, h⟩
  · cases h

/-- Markup begins with an opening bracket. -/
lemma exists_of_takeText_nil (hs : s ≠ []) (hmode : p.mode ≠ .cdata)
    (htake : takeText p.mode p.element s = ([], s)) :
    (∃ t, s = '<' :: t) ∧ (p.mode = .data → beginsMarkup s = true) ∧
      (p.mode ≠ .data → beginsEndTag p.element.toList s = true) := by
  have hdata : p.mode = .data → beginsMarkup s = true := by
    intro hdata
    rw [hdata] at htake
    exact ends_of_takeUntil_nil hs htake
  have hend : p.mode ≠ .data → beginsEndTag p.element.toList s = true := by
    intro hdata
    cases hother : p.mode with
    | data => exact absurd hother hdata
    | cdata => exact absurd hother hmode
    | plain =>
      rw [hother] at htake
      exact absurd (Prod.mk.inj htake).1 hs
    | script =>
      obtain ⟨c, s, rfl⟩ := List.exists_cons_of_ne_nil hs
      by_contra hnot
      rw [hother, takeText, takeScript, if_neg (by simp [hnot])] at htake
      cases htake
    | _ =>
      rw [hother] at htake
      exact ends_of_takeUntil_nil hs htake
  refine ⟨?_, hdata, hend⟩
  by_cases hmode' : p.mode = .data
  · exact exists_of_beginsMarkup (hdata hmode')
  · obtain ⟨t, ht, -⟩ := exists_of_beginsEndTag (hend hmode')
    exact ⟨'/' :: t, ht⟩

lemma beginsMarkup_of_append {x : Text} (h : beginsMarkup ('<' :: (x ++ rest)) = true) (hx : '>' ∈ x ∨ 2 ≤ x.length)
    (u : Text) : beginsMarkup ('<' :: (x ++ u)) = true := by
  cases x with
  | nil => rcases hx with hx | hx <;> simp at hx
  | cons c x =>
    have hc : c ≠ '>' := by
      rintro rfl
      simp [beginsMarkup] at h
    have hx' : x ≠ [] := by
      rintro rfl
      rcases hx with hx | hx
      · exact hc (List.mem_singleton.1 hx).symm
      · simp at hx
    obtain ⟨d, x, rfl⟩ := List.exists_cons_of_ne_nil hx'
    simpa [beginsMarkup] using h

/-- The mark at the end of a section. -/
lemma exists_of_sectionEnd {element : String} (hs : s ≠ []) (h : takeText .cdata element s = ([], s)) :
    ∃ t, s = ']' :: ']' :: '>' :: t := by
  have hsome : (Text.afterToken? "]]>".toList s).isSome = true := ends_of_takeUntil_nil hs h
  obtain ⟨t, ht⟩ := Option.isSome_iff_exists.1 hsome
  exact ⟨t, Text.afterToken?_eq_some_iff.1 ht⟩

lemma readMarkup_slash_ne (sections : Bool) (s : Text) : (readMarkup sections ('/' :: s)).1 ≠ .sectionStart := by
  intro h
  simp only [readMarkup, if_true] at h
  split at h
  · cases h
  · split at h
    · split at h <;> cases h
    · cases h

/-- **A token is read as before** when what stands behind it ends it as before, unless it is a text that is read
as data. -/
lemma Reads.kept (hp : p.Named) (hs : s ≠ []) (h : p.Reads r s token p' rest)
    (hkept : p.mode = .data → ∀ content, token ≠ .text p.label content) (hu : p'.Carries rest u) :
    p.Reads r (token.raw ++ u) token p' u ∧ p.Carries s (token.raw ++ u) ∧
      p.swallows? r (token.raw ++ u) = p.swallows? r s := by
  have hraw := h.raw_append
  cases h with
  | @text content _ htake hne =>
    have hdata : p.mode ≠ .data := fun hdata => hkept hdata content rfl
    have htake' := hu.takeText_kept hp hdata htake
    refine ⟨.text htake' hne, ⟨fun hnil => absurd hnil hs, fun h => absurd h hdata, fun _ => ?_⟩, ?_⟩
    · rw [← hraw]
      exact (hu.agree hdata).append content
    · rw [swallows?, swallows?, Token.raw, htake', htake, if_neg (by simp [hne]), if_neg (by simp [hne])]
  | sectionEnd htake hmode =>
    obtain ⟨t, ht⟩ := exists_of_sectionEnd hs (hmode ▸ htake)
    rw [ht] at hraw ⊢
    have hagree : Agree (']' :: ']' :: '>' :: t) (']' :: ']' :: '>' :: u) := .cons _ (.cons _ (.bracket t u))
    have htake' : takeText p.mode p.element (']' :: ']' :: '>' :: u) = ([], ']' :: ']' :: '>' :: u) := by
      rw [hmode]
      rfl
    refine ⟨.sectionEnd htake' hmode, ⟨fun hnil => (by cases hnil), fun hdata => ?_, fun _ => hagree⟩, ?_⟩
    · rw [hmode] at hdata
      cases hdata
    · rw [swallows?, swallows?, if_neg (by simp [hmode]), if_neg (by simp [hmode])]
  | @markup m _ _ _ htake hmode hread hpass =>
    have hspelling : token.raw = spelling s rest := raw_of_pass hpass
    by_cases hrest : rest = []
    · -- nothing stands behind the token, now as before
      obtain rfl := hu.nil hrest
      rw [hrest] at hraw
      rw [hraw]
      exact ⟨.markup htake hmode (hrest ▸ hread) (hrest ▸ hpass), .refl p s, rfl⟩
    · obtain ⟨⟨t, rfl⟩, hbegins, hends⟩ := exists_of_takeText_nil hs hmode htake
      obtain ⟨x, hx, hread', hlong⟩ := readAlone (s := t) hread hrest
      have htoken : token.raw = '<' :: x := by
        rw [hspelling, hx]
        exact spelling_append_right ('<' :: x) rest
      have hcarries : p.Carries ('<' :: t) ('<' :: (x ++ u)) := by
        refine ⟨fun hnil => absurd hnil hs, fun hdata _ => ?_, fun hdata => ?_⟩
        · exact beginsMarkup_of_append (hx ▸ hbegins hdata) (hlong.imp mem_of_closed And.right) u
        · rw [hx]
          rcases hlong with hend | ⟨rfl, hlong⟩
          · exact Agree.of_mem (x := '<' :: x) (List.mem_cons_of_mem _ (mem_of_closed hend)) rest u
          · -- an end tag is no section
            obtain ⟨t', ht', -⟩ := exists_of_beginsEndTag (hends hdata)
            obtain ⟨-, rfl⟩ := List.cons.inj ht'
            exact absurd (congrArg Prod.fst hread) (readMarkup_slash_ne _ _)
      have htake' := hcarries.takeText_nil hp hs htake
      rw [htoken]
      refine ⟨.markup htake' hmode (hread' u) ?_, hcarries, ?_⟩
      · rw [← hpass, ← hspelling, htoken]
        exact congrArg (p.pass r · m) (spelling_append_right ('<' :: x) u)
      · have hsame : readMarkup (p.context.vocabulary ≠ .html) ('<' :: (x ++ u) |>.drop 1) = (m, u) := hread' u
        rw [List.cons_append, swallows?, if_pos ⟨htake', hmode⟩, hsame, swallows?, if_pos ⟨htake, hmode⟩, hread]

/-- A token that is no text ends in a closing bracket where data comes behind it, unless nothing comes. -/
lemma Reads.closed (hs : s ≠ []) (h : p.Reads r s token p' rest) (hdata : p'.mode = .data)
    (hmarkup : ∀ mode content, token ≠ .text mode content) : rest = [] ∨ ['>'] <:+ token.raw := by
  have hraw := h.raw_append
  cases h with
  | text => exact absurd rfl (hmarkup _ _)
  | sectionEnd htake hmode =>
    obtain ⟨t, rfl⟩ := exists_of_sectionEnd hs (hmode ▸ htake)
    exact Or.inr ⟨[']', ']'], rfl⟩
  | @markup m _ _ _ htake hmode hread hpass =>
    refine or_iff_not_imp_left.2 fun hrest => ?_
    obtain ⟨⟨t, rfl⟩, -, -⟩ := exists_of_takeText_nil hs hmode htake
    obtain ⟨x, hx, -, hend⟩ := readAlone (s := t) hread hrest
    have htoken : token.raw = '<' :: x := by
      rw [raw_of_pass hpass, hx]
      exact spelling_append_right ('<' :: x) rest
    rcases hend with hend | ⟨rfl, -⟩
    · exact htoken ▸ hend.trans (List.suffix_cons _ x)
    · obtain ⟨-, rfl⟩ := Prod.mk.inj (Except.ok.inj hpass)
      cases hdata

/-! ## Elements whose end tags are not looked for -/

/-- The place without the name of an element whose end tag is not looked for. -/
def forget (p : Place) : Place :=
  if p.mode = .data ∨ p.mode = .cdata then { p with element := "" } else p

lemma takeText_forget (p : Place) (s : Text) :
    takeText p.forget.mode p.forget.element s = takeText p.mode p.element s := by
  rw [forget]
  split
  · next h => rcases h with h | h <;> simp only [h, takeText]
  · rfl

lemma forget_eq (p : Place) : ∃ element, p.forget = { p with element } := by
  rw [forget]
  split
  · exact ⟨"", rfl⟩
  · exact ⟨p.element, rfl⟩

lemma forget_forget (p : Place) : p.forget.forget = p.forget := by
  simp only [forget]
  split <;> simp [*]

lemma pass_forget (p : Place) (raw : Text) (m : Markup) :
    (p.forget.pass r raw m).map (fun x => (x.1, x.2.forget)) = (p.pass r raw m).map fun x => (x.1, x.2.forget) := by
  obtain ⟨element, helement⟩ := p.forget_eq
  have hagain := forget_forget p
  cases m with
  | start tag =>
    simp only [pass, helement]
    split
    · rfl
    · rfl
  | stop tag =>
    rw [helement]
    rfl
  | broken name =>
    simp only [pass]
    rw [show p.forget.closing = p.closing by rw [helement], show p.forget.context = p.context by rw [helement]]
    split
    · cases p.context.doubt.enter name with
      | error e => rfl
      | ok doubt => simp [Except.map, hagain]
    · simp [Except.map, hagain]
  | sectionStart =>
    rw [helement]
    rfl
  | other => simp [pass, Except.map, hagain]

lemma next_forget (hr : r ≠ .toggle) (p : Place) (s : Text) :
    (p.forget.next r s).map (fun x => (x.1, x.2.1.forget, x.2.2)) =
      (p.next r s).map fun x => (x.1, x.2.1.forget, x.2.2) := by
  obtain ⟨element, helement⟩ := p.forget_eq
  have hmode : p.forget.mode = p.mode := by rw [helement]
  have hlabel : p.forget.label = p.label := by rw [helement]
  have hcontext : p.forget.context = p.context := by rw [helement]
  have htake := takeText_forget p s
  rw [hmode] at htake
  simp only [next, swallowed?_eq_none hr, hmode, hlabel, hcontext, htake]
  cases takeText p.mode p.element s with
  | mk content rest =>
    cases content with
    | cons c content => simp [Except.map, forget_forget]
    | nil =>
      simp only
      split
      · rw [helement]
        rfl
      · have hpass := pass_forget (r := r) p (spelling rest (readMarkup (p.context.vocabulary ≠ .html) (rest.drop 1)).2)
          (readMarkup (p.context.vocabulary ≠ .html) (rest.drop 1)).1
        revert hpass
        cases p.forget.pass r _ _ <;> cases p.pass r _ _ <;> simp +contextual [Except.map]

/-- The name of an element whose end tag is not looked for does not matter. -/
lemma tokens_forget (hr : r ≠ .toggle) (p : Place) (s : Text) : p.forget.tokens r s = p.tokens r s := by
  induction hn : s.length using Nat.strong_induction_on generalizing p s with
  | h n ih =>
    by_cases hs : s = []
    · subst hs
      rw [tokens_eq_nil_iff.2 rfl, tokens_eq_nil_iff.2 rfl]
    · have hnext := next_forget hr p s
      cases hp : p.next r s with
      | error e =>
        cases hp' : p.forget.next r s with
        | error e' =>
          rw [hp, hp'] at hnext
          obtain rfl : e' = e := by simpa [Except.map] using hnext
          rw [tokens_of_error hs hp, tokens_of_error hs hp']
        | ok x => simp [hp, hp', Except.map] at hnext
      | ok x =>
        obtain ⟨token, q, rest⟩ := x
        cases hp' : p.forget.next r s with
        | error e => simp [hp, hp', Except.map] at hnext
        | ok y =>
          obtain ⟨token', q', rest'⟩ := y
          simp only [hp, hp', Except.map, Except.ok.injEq, Prod.mk.injEq] at hnext
          obtain ⟨rfl, hq, rfl⟩ := hnext
          have hshort := hn ▸ length_of_next hs hp
          rw [tokens_of_next hs hp, tokens_of_next hs hp', ← ih _ hshort q rest' rfl, ← ih _ hshort q' rest' rfl, hq]

lemma tokens_congr (hr : r ≠ .toggle) {q : Place} (h : p.forget = q.forget) (s : Text) :
    p.tokens r s = q.tokens r s := by
  rw [← tokens_forget hr p, h, tokens_forget hr q]

end Steps

end Place

end MarkedMath.Html
