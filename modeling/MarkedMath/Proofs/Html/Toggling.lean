import MarkedMath.Html.Process
import MarkedMath.Proofs.Html.Rereading
import MarkedMath.Proofs.Html.ToggledTags

/-!
# Showing and hiding identifiers in documents

To show the identifiers of equations a class is added to the tags of bodies, to hide them it is taken away. The
document that comes out is read token by token as the one that went in, with the tags of bodies changed
(`Place.tokens_toggled`). What a token leads to does not depend on the attributes of a body (`Place.opening_body`),
and what stands behind a token ends it as before (`Place.Carries`), so this holds token by token from the end on.
By induction over the calls only the last one counts (`shows_last_call`).

Two things can go wrong. A tag whose attributes do not stand apart is not read as it was written (`Tag.Editable`).
And where text is not read as what it counts as, the tag of a body is taken for text, and the class is added to the
next start tag (`Place.swallows?_kept` says what is read there). Neither happens to a token that is
`Token.Toggleable`.
-/

namespace MarkedMath.Html

/-! ## Start tags that are taken for text -/

section Begun

variable {s u : Text} {sections : Bool}

lemma Agree.takeWhile {p : Char → Bool} (h : Agree s u) (hp : p '>' = false) : s.takeWhile p = u.takeWhile p := by
  induction h with
  | nil => rfl
  | bracket s u => rw [List.takeWhile_cons_of_neg (by simp [hp]), List.takeWhile_cons_of_neg (by simp [hp])]
  | cons c h ih => rw [List.takeWhile_cons, List.takeWhile_cons, ih]

/-- Which element begins is told from the text up to a closing bracket. -/
lemma Agree.begun? (h : Agree s u) : (readMarkup sections s).1.begun? = (readMarkup sections u).1.begun? := by
  have hdrop : s.dropWhile isTagChar = [] ↔ u.dropWhile isTagChar = [] := by
    have hagree := h.dropWhile (p := isTagChar) (by decide)
    rw [← List.head?_eq_none_iff, ← List.head?_eq_none_iff, hagree.head?_eq]
  rw [begun?_readMarkup, begun?_readMarkup, h.head?_eq, h.takeWhile (by decide)]
  simp only [ne_eq, hdrop]

end Begun

namespace Place

section Swallowed

variable {p p' : Place} {s rest u : Text} {element : String}

/-- Start tags stand where text is read as data. -/
lemma mode_of_begun {t : Text} (hmode : p.mode ≠ .cdata) (htake : takeText p.mode p.element ('<' :: t) = ([], '<' :: t))
    {sections : Bool} (hbegun : (readMarkup sections t).1.begun? = some element) : p.mode = .data := by
  by_contra hdata
  obtain ⟨-, -, hend⟩ := exists_of_takeText_nil (List.cons_ne_nil '<' t) hmode htake
  obtain ⟨t', ht', -⟩ := exists_of_beginsEndTag (hend hdata)
  obtain ⟨-, rfl⟩ := List.cons.inj ht'
  rw [begun?_readMarkup, if_neg (by simp)] at hbegun
  cases hbegun

/-- Where a start tag is taken for text. -/
lemma exists_of_swallows (hs : s ≠ []) (h : p.swallows? .toggle s = some element) :
    ∃ t, s = '<' :: t ∧ p.mode = .data ∧ p.label ≠ .data ∧ takeText p.mode p.element s = ([], s) ∧
      (readMarkup (p.context.vocabulary ≠ .html) t).1.begun? = some element ∧
      (element = "body" ∨ foreignRoots.contains element = true) := by
  rw [swallows?] at h
  split at h
  · next hhead =>
    obtain ⟨htake, hmode⟩ := hhead
    obtain ⟨⟨t, rfl⟩, -, -⟩ := exists_of_takeText_nil hs hmode htake
    rw [swallowed?] at h
    split at h
    · next hlabel =>
      obtain ⟨hbegun, hroot⟩ := Option.filter_eq_some_iff.1 h
      have hdata : p.mode = .data := mode_of_begun hmode htake hbegun
      have hne : p.mode ≠ p.label := by simpa using hlabel
      exact ⟨t, rfl, hdata, fun hlabel => hne (hdata.trans hlabel.symm), htake, hbegun, by simpa using hroot⟩
    · cases h
  · cases h

lemma named_of_begun {sections : Bool} {t : Text} (h : (readMarkup sections t).1.begun? = some element) :
    (∃ c ∈ t.head?, c.isAlpha = true) ∧ ∀ c ∈ element.toList, isTagChar c = true := by
  rw [begun?_readMarkup] at h
  split at h
  · next hbegun =>
    obtain rfl := Option.some_inj.1 h
    refine ⟨?_, isTagChar_of_mem_element fun c hc => List.mem_takeWhile_imp hc⟩
    obtain ⟨c, hc, halpha⟩ := (Option.any_eq_true _ _).1 hbegun.1
    exact ⟨c, hc, halpha⟩
  · cases h

/-- **A start tag is taken for text as before** when what stands behind it ends it as before. -/
lemma swallows?_kept (hs : s ≠ []) (h : p.swallows? .toggle s = some element) {content : Text}
    (htext : takeText p.label element (s.drop 1) = (content, rest))
    (hu : Carries { p with mode := p.label, element } rest u) :
    p.swallows? .toggle ('<' :: (content ++ u)) = some element ∧
      takeText p.label element (content ++ u) = (content, u) ∧ p.Carries s ('<' :: (content ++ u)) := by
  obtain ⟨t, rfl, hdata, hlabel, htake, hbegun, hroot⟩ := exists_of_swallows hs h
  obtain ⟨⟨c, hc, halpha⟩, hnamed⟩ := named_of_begun hbegun
  have hagree : Agree rest u := hu.agree hlabel
  have hwhole : content ++ rest = t := by
    have happend := takeText_append p.label element t
    rwa [show takeText p.label element t = (content, rest) from htext] at happend
  have hagree' : Agree t (content ++ u) := hwhole ▸ hagree.append content
  have hmarkup : beginsMarkup ('<' :: (content ++ u)) = true := by
    rw [hagree'.head?_eq] at hc
    obtain ⟨v, hv⟩ := List.head?_eq_some_iff.1 hc
    simp [hv, beginsMarkup, halpha]
  have hcarries : p.Carries ('<' :: t) ('<' :: (content ++ u)) :=
    ⟨fun hnil => (by cases hnil), fun _ _ => hmarkup, fun hnot => absurd hdata hnot⟩
  refine ⟨?_, ?_, hcarries⟩
  · have htake' : takeText p.mode p.element ('<' :: (content ++ u)) = ([], '<' :: (content ++ u)) := by
      rw [hdata]
      exact takeUntil_beginsMarkup (w := []) (by simp) (Or.inr hmarkup)
    rw [swallows?, if_pos ⟨htake', by simp [hdata]⟩, swallowed?, if_pos (by simpa [hdata] using hlabel.symm)]
    rw [List.drop_one, List.tail_cons, ← hagree'.begun?, hbegun]
    simpa using hroot
  · refine takeText_of_agree hlabel hagree (fun hmem => absurd (hnamed _ hmem) (by decide)) ?_
    rw [hwhole]
    exact htext

end Swallowed

/-! ## The tags of bodies -/

section Bodies

variable {p p' : Place} {r : Reading} {s rest u name : Text} {tag tag' : Tag} {token : Token} {enabled : Bool}

/-- Behind the tag of a body it does not matter which attributes it has. -/
lemma opening_body (h : tag.element = "body") (h' : tag'.element = "body") {raw : Text} (raw' : Text)
    {vocabulary : Vocabulary} {weighed : Bool}
    (hok : p.opening r raw tag = .ok (.start tag raw vocabulary weighed, p')) :
    p.opening r raw' tag' = .ok (.start tag' raw' vocabulary weighed, p') := by
  have henter : p.context.enter tag' = p.context.enter tag := by
    simp only [Context.enter, Context.enterVocabulary, h, h']
    rfl
  have hmode : ∀ {t : Tag}, t.element = "body" → p.context.textMode t = .data := fun ht => by
    rw [Context.textMode, ht]
    exact ite_self _
  have hbehind : ∀ {t : Tag}, r.modeBehind t .data = .data := by simp [Reading.modeBehind]
  obtain ⟨context, hcontext, htoken, rfl⟩ := opening_eq_ok hok
  simp only [Token.start.injEq] at htoken
  rw [opening, henter, hcontext]
  simp only [Except.map, hmode h, hmode h', hbehind, h, h', htoken]

/-- What markup is taken for: for a start tag, for an end tag, or for neither. -/
lemma pass_cases {m : Markup} {raw : Text} (h : p.pass r raw m = .ok (token, p')) :
    (∃ tag, m = .start tag ∧ p.closing = false ∧ p.opening r raw tag = .ok (token, p')) ∨
      (∃ tag weighed, token = .stop tag raw weighed ∧ p'.element = p.element) ∨
        token = .other raw ∧ p'.element = p.element := by
  have hclose : ∀ {tag}, p.close r raw tag = (token, p') →
      ∃ tag weighed, token = .stop tag raw weighed ∧ p'.element = p.element := fun {tag} h => by
    obtain ⟨rfl, rfl⟩ := Prod.mk.inj h
    exact ⟨tag, _, rfl, rfl⟩
  cases m with
  | start tag =>
    rw [pass] at h
    split at h
    · exact Or.inr (Or.inl (hclose (Except.ok.inj h)))
    · next hclosing => exact Or.inl ⟨tag, rfl, by simpa using hclosing, h⟩
  | stop tag => exact Or.inr (Or.inl (hclose (Except.ok.inj h)))
  | broken element =>
    refine Or.inr (Or.inr ?_)
    rw [pass] at h
    split at h
    · obtain ⟨doubt, -, heq⟩ := exists_of_map_eq_ok h
      obtain ⟨rfl, rfl⟩ := Prod.mk.inj heq
      exact ⟨rfl, rfl⟩
    · obtain ⟨rfl, rfl⟩ := Prod.mk.inj (Except.ok.inj h)
      exact ⟨rfl, rfl⟩
  | sectionStart =>
    obtain ⟨rfl, rfl⟩ := Prod.mk.inj (Except.ok.inj h)
    exact Or.inr (Or.inr ⟨rfl, rfl⟩)
  | other =>
    obtain ⟨rfl, rfl⟩ := Prod.mk.inj (Except.ok.inj h)
    exact Or.inr (Or.inr ⟨rfl, rfl⟩)

lemma not_text_of_pass {m : Markup} {raw : Text} (h : p.pass r raw m = .ok (token, p')) (mode : TextMode)
    (content : Text) : token ≠ .text mode content := by
  rintro rfl
  rcases pass_cases h with ⟨tag, -, -, hopening⟩ | ⟨tag, weighed, htoken, -⟩ | ⟨htoken, -⟩
  · obtain ⟨context, -, htoken, -⟩ := opening_eq_ok hopening
    cases htoken
  · cases htoken
  · cases htoken

lemma start_of_pass {m : Markup} {raw raw' : Text} {vocabulary : Vocabulary} {weighed : Bool}
    (h : p.pass r raw m = .ok (.start tag raw' vocabulary weighed, p')) :
    m = .start tag ∧ raw' = raw ∧ p.closing = false ∧
      p.opening r raw tag = .ok (.start tag raw' vocabulary weighed, p') := by
  rcases pass_cases h with ⟨tag', rfl, hclosing, hopening⟩ | ⟨tag', weighed', htoken, -⟩ | ⟨htoken, -⟩
  · obtain ⟨context, -, htoken, -⟩ := opening_eq_ok hopening
    cases htoken
    exact ⟨rfl, rfl, hclosing, hopening⟩
  · cases htoken
  · cases htoken

end Bodies

end Place

/-- A tag is read as it was changed, whatever stands behind it. -/
lemma Tag.readMarkup_toggleClass {tag : Tag} {t rest : Text} {sections : Bool} (name : Text) (enabled : Bool)
    (h : readMarkup sections t = (.start tag, rest)) (ha : tag.Editable) :
    ∃ c x, tag.toggleClass (spelling ('<' :: t) rest) name enabled = '<' :: c :: x ∧ c.isAlpha = true ∧
      ∀ u, readMarkup sections (c :: (x ++ u)) = (.start (tag.toggled name enabled), u) := by
  obtain ⟨hspelled, c, t, rfl, hc⟩ := Tag.spelled_of_readMarkup h
  cases hset : tag.setClasses? (tag.toggledClasses name enabled) with
  | none =>
    obtain ⟨y, hy, hend, hread⟩ := Tag.read?_append (Place.read?_of_readMarkup_start h)
    obtain ⟨d, x, rfl⟩ := List.exists_cons_of_ne_nil (ne_nil_of_closed hend)
    obtain ⟨rfl, rfl⟩ := List.cons.inj hy
    refine ⟨c, x, ?_, hc, fun u => ?_⟩
    · simp only [toggleClass, hset]
      exact spelling_append_right ('<' :: c :: x) rest
    · rw [show tag.toggled name enabled = tag by simp [toggled, hset]]
      exact readMarkup_of_read? hc sections (hread u)
  | some changed =>
    have hto := setTo_of_setClasses? hset
    obtain ⟨d, x, hwrite, hd, hread⟩ := readMarkup_write (hto.spelled hspelled) (hto.apart ha) sections
    refine ⟨d, x, by simp only [toggleClass, hset, hwrite], hd, fun u => ?_⟩
    rw [hread, show tag.toggled name enabled = changed.respelled by simp [toggled, hset]]

/-! ## Tokens -/

namespace Token

/-- Whether the token is the start tag of a body. -/
def isBody : Token → Bool
  | start tag _ _ _ => tag.element = "body"
  | _ => false

/-- No tag of a body is taken for text, and the tags of bodies can be changed. -/
def Toggleable : Token → Prop
  | start tag _ _ _ => tag.element = "body" → tag.Editable
  | swallowed element _ => element ≠ "body"
  | _ => True

instance : (token : Token) → Decidable token.Toggleable
  | start tag _ _ _ => inferInstanceAs (Decidable (tag.element = "body" → tag.Editable))
  | swallowed element _ => inferInstanceAs (Decidable (element ≠ "body"))
  | text _ _ => isTrue trivial
  | stop _ _ _ => isTrue trivial
  | other _ => isTrue trivial

/-- The token as it is read when a class was added to the tags of bodies or taken away. -/
def toggled (name : Text) (enabled : Bool) : Token → Token
  | start tag raw vocabulary weighed =>
    if tag.element = "body" then
      start (tag.toggled name enabled) (tag.toggleClass raw name enabled) vocabulary weighed
    else start tag raw vocabulary weighed
  | token => token

lemma toggled_of_not_isBody {token : Token} (h : token.isBody = false) (name : Text) (enabled : Bool) :
    token.toggled name enabled = token := by
  cases token with
  | start tag raw vocabulary weighed =>
    rw [toggled, if_neg (by simpa [isBody] using h)]
  | _ => rfl

lemma raw_toggled_ne_nil {token : Token} (h : token.raw ≠ []) (name : Text) (enabled : Bool) :
    (token.toggled name enabled).raw ≠ [] := by
  cases token with
  | start tag raw vocabulary weighed =>
    rw [toggled]
    split
    · rw [Token.raw, Tag.toggleClass]
      split
      · simp [Tag.write]
      · exact h
    · exact h
  | _ => exact h

end Token

namespace Place

section Steps

variable {p p' : Place} {s rest u name : Text} {token : Token} {tokens : List Token} {enabled : Bool}

lemma named_of_next (hp : p.Named) (hs : s ≠ []) (h : p.next .toggle s = .ok (token, p', rest)) : p'.Named := by
  cases hswallows : p.swallows? .toggle s with
  | some element =>
    rw [next_of_swallows hswallows] at h
    obtain ⟨-, rfl, -⟩ := by simpa using h
    obtain ⟨t, rfl, -, -, -, hbegun, -⟩ := exists_of_swallows hs hswallows
    exact (named_of_begun hbegun).2
  | none =>
    cases (next_iff_of_not_swallows hswallows).1 h with
    | text => exact hp
    | sectionEnd => exact hp
    | markup _ _ hread hpass =>
      rcases pass_cases hpass with ⟨tag, rfl, -, hopening⟩ | ⟨-, -, -, helement⟩ | ⟨-, helement⟩
      · obtain ⟨context, -, -, rfl⟩ := opening_eq_ok hopening
        exact named_of_readMarkup hread
      · rwa [Named, helement]
      · rwa [Named, helement]

/-- A text that is data stays when markup comes behind it, as before. -/
lemma data_kept (hdata : p.mode = .data) {content : Text} (htake : takeText p.mode p.element s = (content, rest))
    (hne : content ≠ []) (hu : p.Carries rest u) :
    takeText p.mode p.element (content ++ u) = (content, u) ∧ p.Carries s (content ++ u) := by
  have hwhole := takeText_append p.mode p.element s
  rw [htake] at hwhole
  rw [hdata] at htake ⊢
  obtain ⟨hunbroken, hends⟩ := unbroken_of_takeText htake
  refine ⟨?_, fun hnil => ?_, fun _ hbegins => ?_, fun hnot => absurd hdata hnot⟩
  · exact Unbroken.takeText (a := []) (b := []) (by simpa using hunbroken) (hends.imp hu.nil (hu.markup hdata))
      (by simpa using hu.nil) p.element
  · rw [hnil] at hwhole
    exact absurd (List.append_eq_nil_iff.1 hwhole).1 hne
  · have hnot := hunbroken content hne (List.suffix_refl _)
    rw [hwhole, hbegins] at hnot
    cases hnot

/-- The tag of a body is read as it was changed. -/
lemma body_toggled (hs : s ≠ []) (hswallows : p.swallows? .toggle s = none) {tag : Tag} {raw : Text}
    {vocabulary : Vocabulary} {weighed : Bool} (h : p.Reads .toggle s (.start tag raw vocabulary weighed) p' rest)
    (hbody : tag.element = "body") (ha : tag.Editable) (hname : IsPlainClass name) (u : Text) :
    p.next .toggle (tag.toggleClass raw name enabled ++ u) =
        .ok (.start (tag.toggled name enabled) (tag.toggleClass raw name enabled) vocabulary weighed, p', u) ∧
      p.Carries s (tag.toggleClass raw name enabled ++ u) := by
  cases h with
  | markup htake hmode hread hpass =>
    obtain ⟨rfl, rfl, hclosing, hopening⟩ := start_of_pass hpass
    obtain ⟨⟨t, rfl⟩, -, -⟩ := exists_of_takeText_nil hs hmode htake
    rw [List.drop_one, List.tail_cons] at hread
    obtain ⟨c, x, hchanged, hc, hagain⟩ := Tag.readMarkup_toggleClass name enabled hread ha
    have hbegun : (readMarkup (p.context.vocabulary ≠ .html) t).1.begun? = some "body" := by
      rw [hread, Markup.begun?, hbody]
    have hdata : p.mode = .data := mode_of_begun hmode htake hbegun
    have hlabel : p.mode = p.label := by
      by_contra hlabel
      rw [swallows?, if_pos ⟨htake, hmode⟩, List.drop_one, List.tail_cons, swallowed?,
        if_pos (by simpa using hlabel), hbegun] at hswallows
      simp at hswallows
    have hmarkup : beginsMarkup ('<' :: c :: (x ++ u)) = true := by simp [beginsMarkup, hc]
    have htake' : takeText p.mode p.element ('<' :: c :: (x ++ u)) = ([], '<' :: c :: (x ++ u)) := by
      rw [hdata]
      exact takeUntil_beginsMarkup (w := []) (by simp) (Or.inr hmarkup)
    have hswallows' : p.swallows? .toggle ('<' :: c :: (x ++ u)) = none := by
      rw [swallows?, if_pos ⟨htake', hmode⟩, swallowed?, if_neg (by simpa using hlabel)]
    have hbody' : (tag.toggled name enabled).element = "body" := by
      rw [Tag.element, (Tag.shows_toggled ha hname enabled).1.tagName]
      exact hbody
    have hspelling : spelling ('<' :: c :: (x ++ u)) u = '<' :: c :: x := spelling_append_right ('<' :: c :: x) u
    rw [hchanged]
    refine ⟨?_, fun hnil => (by cases hnil), fun _ _ => hmarkup, fun hnot => absurd hdata hnot⟩
    refine (next_iff_of_not_swallows hswallows').2 (.markup htake' hmode (hagain u) ?_)
    rw [hspelling, pass, if_neg (by simp [hclosing]), ← hchanged]
    exact opening_body hbody hbody' _ hopening

/-- **A token is read as it was changed** when what stands behind it ends it as before. -/
lemma next_toggled (hp : p.Named) (hs : s ≠ []) (h : p.next .toggle s = .ok (token, p', rest))
    (ht : token.Toggleable) (hname : IsPlainClass name) (hu : p'.Carries rest u) :
    p.next .toggle ((token.toggled name enabled).raw ++ u) = .ok (token.toggled name enabled, p', u) ∧
      p.Carries s ((token.toggled name enabled).raw ++ u) := by
  cases hswallows : p.swallows? .toggle s with
  | some element =>
    obtain ⟨content, behind, htext⟩ : ∃ content behind, takeText p.label element (s.drop 1) = (content, behind) :=
      ⟨_, _, rfl⟩
    rw [next_of_swallows hswallows, htext] at h
    obtain ⟨htoken, hplace⟩ := Prod.mk.inj (Except.ok.inj h)
    obtain ⟨rfl, rfl⟩ := Prod.mk.inj hplace
    obtain ⟨hswallows', htake, hcarries⟩ := swallows?_kept hs hswallows htext hu
    obtain ⟨t, rfl, -⟩ := exists_of_swallows hs hswallows
    obtain rfl : .swallowed element ('<' :: content) = token := htoken
    have hnext := next_of_swallows hswallows'
    rw [List.drop_one, List.tail_cons, htake] at hnext
    exact ⟨hnext, hcarries⟩
  | none =>
    have hreads := (next_iff_of_not_swallows hswallows).1 h
    -- tokens besides the tags of bodies and the texts that are data are kept
    have hother : token.isBody = false → (p.mode = .data → ∀ content, token ≠ .text p.label content) →
        p.next .toggle ((token.toggled name enabled).raw ++ u) = .ok (token.toggled name enabled, p', u) ∧
          p.Carries s ((token.toggled name enabled).raw ++ u) := by
      intro hbody hkept
      rw [Token.toggled_of_not_isBody hbody]
      obtain ⟨hagain, hcarries, hfree⟩ := hreads.kept hp hs hkept hu
      exact ⟨(next_iff_of_not_swallows (hfree.trans hswallows)).2 hagain, hcarries⟩
    cases hreads with
    | @text content _ htake hne =>
      by_cases hdata : p.mode = .data
      · obtain ⟨htake', hcarries⟩ := data_kept hdata htake hne hu
        have hfree : p.swallows? .toggle (content ++ u) = none := by
          rw [swallows?, htake', if_neg (by simp [hne])]
        exact ⟨(next_iff_of_not_swallows hfree).2 (.text htake' hne), hcarries⟩
      · exact hother rfl fun h => absurd h hdata
    | sectionEnd => exact hother rfl (by simp)
    | @markup m _ _ _ htake hmode hread hpass =>
      by_cases hbody : token.isBody = true
      · cases token with
        | start tag raw vocabulary weighed =>
          have helement : tag.element = "body" := by simpa [Token.isBody] using hbody
          rw [Token.toggled, if_pos helement]
          exact body_toggled hs hswallows (.markup htake hmode hread hpass) helement (ht helement) hname u
        | _ => cases hbody
      · exact hother (by simpa using hbody) fun _ => not_text_of_pass hpass _

/-- **Tokens are read as they were changed.** -/
lemma tokens_toggled (hp : p.Named) (h : p.tokens .toggle s = .ok tokens) (ht : ∀ t ∈ tokens, t.Toggleable)
    (hname : IsPlainClass name) (enabled : Bool) :
    p.tokens .toggle ((tokens.map (Token.toggled name enabled)).flatMap Token.raw) =
        .ok (tokens.map (Token.toggled name enabled)) ∧
      p.Carries s ((tokens.map (Token.toggled name enabled)).flatMap Token.raw) := by
  induction tokens generalizing p s with
  | nil =>
    obtain rfl := tokens_eq_nil_iff.1 h
    exact ⟨tokens_eq_nil_iff.2 rfl, .refl p []⟩
  | cons token tokens ih =>
    rw [List.forall_mem_cons] at ht
    obtain ⟨hs, p', rest, hnext, hmore⟩ := tokens_eq_cons_iff_next.1 h
    obtain ⟨hlater, hcarries⟩ := ih (named_of_next hp hs hnext) hmore ht.2
    obtain ⟨hagain, hcarries'⟩ := next_toggled hp hs hnext ht.1 hname hcarries
    have hraw : token.raw ≠ [] := by
      intro hnil
      have hwhole := raw_append_of_next hnext
      have hshort := length_of_next hs hnext
      rw [← hwhole, hnil, List.nil_append] at hshort
      exact absurd hshort (Nat.lt_irrefl _)
    have hne := List.append_ne_nil_of_left_ne_nil (Token.raw_toggled_ne_nil hraw name enabled)
      ((tokens.map (Token.toggled name enabled)).flatMap Token.raw)
    exact ⟨tokens_eq_cons_iff_next.2 ⟨hne, p', _, hagain, hlater⟩, hcarries'⟩

end Steps

end Place

/-! ## Documents -/

section Documents

variable {name html : Text} {tokens : List Token} {enabled : Bool}

/-- What is to be seen of a token when the class was added to the tags of bodies or taken away, several times perhaps.
Tokens besides the tags of bodies are as they were. -/
inductive Token.Shows (name : Text) (enabled : Bool) : Token → Token → Prop
  | body {tag shown : Tag} {raw raw' : Text} {vocabulary : Vocabulary} {weighed : Bool} (h : tag.element = "body")
    (hshown : tag.Shows name enabled shown) :
    Shows name enabled (.start tag raw vocabulary weighed) (.start shown raw' vocabulary weighed)
  | other {token : Token} (h : token.isBody = false) : Shows name enabled token token

lemma Token.shows_toggled {token : Token} (h : token.Toggleable) (hname : IsPlainClass name)
    (enabled : Bool) :
    token.Shows name enabled (token.toggled name enabled) ∧ (token.toggled name enabled).Toggleable := by
  by_cases hbody : token.isBody = true
  · cases token with
    | start tag raw vocabulary weighed =>
      have helement : tag.element = "body" := by simpa [isBody] using hbody
      obtain ⟨hshows, heditable⟩ := Tag.shows_toggled (h helement) hname enabled
      rw [toggled, if_pos helement]
      exact ⟨.body helement hshows, fun _ => heditable⟩
    | _ => cases hbody
  · rw [Bool.not_eq_true] at hbody
    rw [toggled_of_not_isBody hbody]
    exact ⟨.other hbody, h⟩

lemma Token.Shows.trans {enabled' : Bool} {token shown shown' : Token} (h : token.Shows name enabled shown)
    (h' : shown.Shows name enabled' shown') (hname : IsPlainClass name) :
    token.Shows name enabled' shown' := by
  cases h with
  | other hother =>
    cases h' with
    | body helement => simp [isBody, helement] at hother
    | other => exact .other hother
  | body helement hshown =>
    cases h' with
    | body _ hshown' => exact .body helement (hshown.trans hshown' hname)
    | other hother =>
      have hagain : _ = "body" := (congrArg (fun t => String.ofList (Text.lower t)) hshown.tagName).trans helement
      simp [isBody, Tag.element, hagain] at hother

/-- The document is written as its tokens were changed. -/
lemma writeToggled_eq (h : ∀ t ∈ tokens, t.Toggleable) :
    writeToggled name enabled false tokens = (tokens.map (Token.toggled name enabled)).flatMap Token.raw := by
  induction tokens with
  | nil => rfl
  | cons token tokens ih =>
    rw [List.forall_mem_cons] at h
    rw [List.map_cons, List.flatMap_cons, ← ih h.2]
    cases token with
    | start tag raw vocabulary weighed =>
      rw [writeToggled, Token.toggled]
      by_cases helement : tag.element = "body" <;> simp [helement, Token.raw]
    | swallowed element content =>
      have hbody : element ≠ "body" := h.1
      simp [writeToggled, Token.toggled, Token.raw, hbody]
    | _ => rfl

/-- A document with the class added or taken away is read as its tokens were changed. -/
lemma read_setDebug (s : CheckedSettings) (hread : read .toggle html = .ok tokens) (h : ∀ t ∈ tokens, t.Toggleable)
    (enabled : Bool) : ∃ out shown, setDebug s html enabled = .ok out ∧ read .toggle out = .ok shown ∧
      List.Forall₂ (Token.Shows s.debugClass.toList enabled) tokens shown ∧ ∀ t ∈ shown, t.Toggleable := by
  have hname := isPlainClass_debugClass s
  obtain ⟨hagain, -⟩ := Place.tokens_toggled Place.tidy_start.letters hread h hname enabled
  rw [← writeToggled_eq h] at hagain
  refine ⟨_, _, ?_, hagain, ?_, ?_⟩
  · rw [setDebug, hread]
    rfl
  · rw [List.forall₂_map_right_iff, List.forall₂_same]
    exact fun t ht => (Token.shows_toggled (h t ht) hname enabled).1
  · rw [List.forall_mem_map]
    exact fun t ht => (Token.shows_toggled (h t ht) hname enabled).2

lemma forall₂_shows_trans {enabled' : Bool} {shown shown' : List Token} (hname : IsPlainClass name)
    (h : List.Forall₂ (Token.Shows name enabled) tokens shown)
    (h' : List.Forall₂ (Token.Shows name enabled') shown shown') :
    List.Forall₂ (Token.Shows name enabled') tokens shown' := by
  induction h generalizing shown' with
  | nil =>
    cases h'
    exact .nil
  | cons hfirst _ ih =>
    cases h' with
    | cons hfirst' hlater' => exact .cons (hfirst.trans hfirst' hname) (ih hlater')

/-- **Only the last call counts.** Let a document be read, no tag of a body be taken for text, and each tag of a body
have one class attribute at most and other attributes that can be told apart. Then all calls in a row succeed, and
the result is read token by token as the document was. Only the tags of bodies are changed: their classes are those
they had, escaped, without the debug class, and behind them stands the debug class exactly when the last call shows
identifiers. -/
theorem shows_last_call (s : CheckedSettings) (hread : read .toggle html = .ok tokens) (h : ∀ t ∈ tokens, t.Toggleable)
    (calls : List Bool) (enabled : Bool) :
    ∃ out shown, (calls ++ [enabled]).foldlM (setDebug s) html = .ok out ∧ read .toggle out = .ok shown ∧
      List.Forall₂ (Token.Shows s.debugClass.toList enabled) tokens shown := by
  induction calls generalizing html tokens with
  | nil =>
    obtain ⟨out, shown, hout, hshown, hshows, -⟩ := read_setDebug s hread h enabled
    exact ⟨out, shown, by simp [hout], hshown, hshows⟩
  | cons first calls ih =>
    obtain ⟨out, shown, hout, hshown, hshows, htoggleable⟩ := read_setDebug s hread h first
    obtain ⟨out', shown', hout', hshown', hshows'⟩ := ih hshown htoggleable
    refine ⟨out', shown', ?_, hshown', forall₂_shows_trans (isPlainClass_debugClass s) hshows hshows'⟩
    rw [List.cons_append, List.foldlM_cons, hout]
    exact hout'

/-- A page with a class on its body. -/
def darkPage : Text :=
  "<body class=\"dark\"><p>x</p></body>".toList

/-- Identifiers are shown and hidden. -/
theorem shows_last_call_darkPage :
    ∃ tokens, read .toggle darkPage = .ok tokens ∧ (∀ t ∈ tokens, t.Toggleable) ∧
      ∃ out shown, [true, false].foldlM (setDebug .standard) darkPage = .ok out ∧ read .toggle out = .ok shown ∧
        List.Forall₂ (Token.Shows CheckedSettings.standard.debugClass.toList false) tokens shown := by
  have htokens : ((read .toggle darkPage).toOption.any fun tokens => decide (∀ t ∈ tokens, t.Toggleable)) = true := by
    decide +kernel
  cases hread : read .toggle darkPage with
  | error _ => simp [hread, Except.toOption] at htokens
  | ok tokens =>
    have htoggleable : ∀ t ∈ tokens, t.Toggleable := by
      simpa only [hread, Except.toOption, Option.any_some, decide_eq_true_eq] using htokens
    exact ⟨tokens, rfl, htoggleable, shows_last_call .standard hread htoggleable [true] false⟩

/-- A body with two attributes, the second of which has a name that begins with an equals sign. -/
def equalsPage : Text :=
  "<body a/=>".toList

/-- The tag is written anew without the slash, so the class is read as the value of the first attribute. -/
theorem class_read_as_value :
    ∃ tag raw out shown, read .toggle equalsPage = .ok [.start tag raw .html false] ∧ tag.element = "body" ∧
      tag.attribute? "class" = none ∧ setDebug .standard equalsPage true = .ok out ∧
      read .toggle out = .ok [.start shown out .html false] ∧ shown.classes = [] := by
  refine ⟨⟨"body".toList, [⟨"a".toList, [], "a".toList, false⟩, ⟨"=".toList, [], "=".toList, false⟩], false⟩,
    equalsPage, "<body a = class=\"debug-equations\">".toList,
    ⟨"body".toList, [⟨"a".toList, "class=\"debug-equations\"".toList,
      "a = class=\"debug-equations\"".toList, false⟩], false⟩, ?_⟩
  decide +kernel

end Documents

end MarkedMath.Html
