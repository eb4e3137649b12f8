import MarkedMath.Html.Context

/-!
# Tokens of HTML

A document is cut into texts, tags and other markup. Where it is cut depends on what it is read for
(`Reading`), but cutting never loses anything: the spellings of the tokens, one after the other, are the
document (`raw_append_of_next`, `flatMap_raw_of_read`). A text reaches as far as it can, so no two texts
are neighbours.
-/

namespace MarkedMath.Html

/-- A part of a document. -/
inductive Token where
  /-- A text, and what it counts as. -/
  | text (mode : TextMode) (content : Text)
  /-- A start tag with its spelling, the vocabulary of the content behind it, and whether the tag had to
  be weighed as a whole. -/
  | start (tag : Tag) (raw : Text) (vocabulary : Vocabulary) (weighed : Bool)
  /-- An end tag with its spelling, and whether it had to be weighed as a whole. -/
  | stop (tag : Tag) (raw : Text) (weighed : Bool)
  /-- The start tag of an element that is taken for text, with the text behind it. -/
  | swallowed (element : String) (content : Text)
  /-- Comments, declarations, marks of sections and a tag that the document breaks off. -/
  | other (raw : Text)
  deriving DecidableEq, Repr

/-- The token as it is spelled. -/
def Token.raw : Token → Text
  | text _ content => content
  | start _ raw _ _ => raw
  | stop _ raw _ => raw
  | swallowed _ content => content
  | other raw => raw

/-! ## Where texts end -/

/-- Whether markup begins where a text begins so. A `<` begins markup only in front of a letter, an
exclamation mark, a question mark, or a slash with something behind it. -/
def beginsMarkup : Text → Bool
  | '<' :: c :: s => c.isAlpha || c = '!' || c = '?' || (c = '/' && !s.isEmpty)
  | _ => false

/-- Whether the name of an element, in small letters, ends there, where a text begins so: behind the
name comes a blank, a slash or a closing bracket. Gives the text behind the name. -/
def afterElement? (element s : Text) : Option Text :=
  let name := s.take element.length
  match s.drop element.length with
  | [] => none
  | c :: rest =>
    if Text.lower name = element && (Text.isBlank c || c = '/' || c = '>') then some (c :: rest)
    else none

/-- Whether the end tag of an element begins where a text begins so. -/
def beginsEndTag (element : Text) : Text → Bool
  | '<' :: '/' :: s => (afterElement? element s).isSome
  | _ => false

/-- The text up to the first place where it ends, and the rest. -/
def takeUntil (ends : Text → Bool) : Text → Text × Text
  | [] => ([], [])
  | c :: s =>
    if ends (c :: s) then ([], c :: s)
    else
      let (content, rest) := takeUntil ends s
      (c :: content, rest)

theorem takeUntil_append (ends : Text → Bool) (s : Text) :
    (takeUntil ends s).1 ++ (takeUntil ends s).2 = s := by
  induction s with
  | nil => rfl
  | cons c s ih =>
    unfold takeUntil
    split
    · rfl
    · simp [ih]

/-- What scripts comment out. The number counts the hyphens right before, up to two. -/
inductive ScriptPart where
  /-- Nothing. -/
  | plain
  /-- A comment. -/
  | comment (hyphens : Nat)
  /-- A script in a comment, where end tags of scripts do not end the element. -/
  | nested (hyphens : Nat)
  deriving DecidableEq, Repr

namespace ScriptPart

/-- Whether the end tag of the script ends it. -/
def isClosable : ScriptPart → Bool
  | nested _ => false
  | _ => true

/-- Behind a character, where `s` follows. -/
def step (c : Char) (s : Text) : ScriptPart → ScriptPart
  | plain => if c = '<' && (Text.afterToken? "!--".toList s).isSome then comment 0 else plain
  | comment hyphens =>
    if c = '-' then comment (min 2 (hyphens + 1))
    else if c = '>' && hyphens = 2 then plain
    else if c = '<' && (afterElement? "script".toList s).isSome then nested 0
    else comment 0
  | nested hyphens =>
    if c = '-' then nested (min 2 (hyphens + 1))
    else if c = '>' && hyphens = 2 then plain
    else if c = '<' && beginsEndTag "script".toList (c :: s) then comment 0
    else nested 0

end ScriptPart

/-- The text of a script up to the end tag of its element, and the rest. -/
def takeScript (element : Text) (part : ScriptPart) : Text → Text × Text
  | [] => ([], [])
  | c :: s =>
    if part.isClosable && beginsEndTag element (c :: s) then ([], c :: s)
    else
      let (content, rest) := takeScript element (part.step c s) s
      (c :: content, rest)

theorem takeScript_append (element : Text) (part : ScriptPart) (s : Text) :
    (takeScript element part s).1 ++ (takeScript element part s).2 = s := by
  induction s generalizing part with
  | nil => rfl
  | cons c s ih =>
    unfold takeScript
    split
    · rfl
    · simp [ih]

/-- The text from here on as it is read, and the rest. -/
def takeText (mode : TextMode) (element : String) (s : Text) : Text × Text :=
  match mode with
  | .data => takeUntil beginsMarkup s
  | .escapable | .raw => takeUntil (beginsEndTag element.toList) s
  | .script => takeScript element.toList .plain s
  | .plain => (s, [])
  | .cdata => takeUntil (fun s => (Text.afterToken? "]]>".toList s).isSome) s

theorem takeText_append (mode : TextMode) (element : String) (s : Text) :
    (takeText mode element s).1 ++ (takeText mode element s).2 = s := by
  unfold takeText
  split <;> simp [takeUntil_append, takeScript_append]

/-! ## Markup that is no tag -/

/-- Where a comment stands: how many hyphens of its end have been met. -/
inductive CommentPart where
  /-- Right behind the opening mark. -/
  | opening
  /-- Behind one hyphen right behind the opening mark. -/
  | openingHyphen
  | content
  | hyphen
  | hyphens
  /-- Behind two hyphens and an exclamation mark. -/
  | bang
  deriving DecidableEq, Repr

/-- Behind a character of a comment, or `none` when the character ends the comment. -/
def CommentPart.step? (c : Char) (part : CommentPart) : Option CommentPart :=
  if c = '>' then
    match part with
    | content | hyphen => some content
    | _ => none
  else if c = '-' then
    match part with
    | opening => some openingHyphen
    | openingHyphen | hyphen | hyphens => some hyphens
    | content | bang => some hyphen
  else if c = '!' && part = hyphens then some bang
  else some content

/-- The text behind a comment. A comment that is not closed reaches to the end. -/
def afterComment (part : CommentPart) : Text → Text
  | [] => []
  | c :: s =>
    match part.step? c with
    | some part => afterComment part s
    | none => s

theorem isSuffix_afterComment (part : CommentPart) (s : Text) : afterComment part s <:+ s := by
  induction s generalizing part with
  | nil => exact List.suffix_refl _
  | cons c s ih =>
    unfold afterComment
    split
    · exact (ih _).trans (List.suffix_cons c s)
    · exact List.suffix_cons c s

/-- The text behind the next closing bracket. -/
def afterBracket (s : Text) : Text :=
  (s.dropWhile (· ≠ '>')).drop 1

theorem isSuffix_afterBracket (s : Text) : afterBracket s <:+ s :=
  (List.drop_suffix _ _).trans (List.dropWhile_suffix _)

/-- Markup, as it stands between texts. -/
inductive Markup where
  | start (tag : Tag)
  | stop (tag : Tag)
  /-- A start tag that the text breaks off behind its name, given in small letters. -/
  | broken (element : String)
  /-- The opening mark of a section that holds nothing but text. -/
  | sectionStart
  | other
  deriving DecidableEq, Repr

/-- The element whose start tag it is, or would be. -/
def Markup.begun? : Markup → Option String
  | start tag => some tag.element
  | broken element => some element
  | _ => none

/-- A start tag that the text breaks off, from its name on. Of a name that is broken off itself nothing
is known. -/
def Markup.ofBroken (s : Text) : Markup :=
  if (s.dropWhile isTagChar).isEmpty then other
  else broken (String.ofList (Text.lower (s.takeWhile isTagChar)))

/-- Reads markup from behind its `<`: what it is and the text behind it. Sections are known only in
drawings and formulas. -/
def readMarkup (sections : Bool) : Text → Markup × Text
  | [] => (.other, [])
  | c :: s =>
    if c = '/' then
      match s with
      | [] => (.other, [])
      | d :: t =>
        if d.isAlpha then
          match Tag.read? (d :: t) with
          | some (tag, rest) => (.stop tag, rest)
          | none => (.other, [])
        else (.other, afterBracket (d :: t))
    else if c.isAlpha then
      match Tag.read? (c :: s) with
      | some (tag, rest) => (.start tag, rest)
      | none => (.ofBroken (c :: s), [])
    else
      match Text.afterToken? "!--".toList (c :: s) with
      | some rest => (.other, afterComment .opening rest)
      | none =>
        match (if sections then Text.afterToken? "![CDATA[".toList (c :: s) else none) with
        | some rest => (.sectionStart, rest)
        | none => (.other, afterBracket (c :: s))

theorem isSuffix_readMarkup (sections : Bool) (s : Text) : (readMarkup sections s).2 <:+ s := by
  cases s with
  | nil => exact List.suffix_refl _
  | cons c s =>
    simp only [readMarkup]
    split
    · split
      · exact List.nil_suffix
      · next d t =>
        split
        · split
          · next found => exact (Tag.isSuffix_of_read? found).trans (List.suffix_cons c _)
          · exact List.nil_suffix
        · exact (isSuffix_afterBracket _).trans (List.suffix_cons c _)
    · split
      · split
        · next found => exact Tag.isSuffix_of_read? found
        · exact List.nil_suffix
      · split
        · next found =>
          rw [Text.afterToken?_eq_some_iff.1 found]
          exact (isSuffix_afterComment _ _).trans (List.suffix_append _ _)
        · split
          · next found =>
            split at found
            · rw [Text.afterToken?_eq_some_iff.1 found]
              exact List.suffix_append _ _
            · simp at found
          · exact isSuffix_afterBracket _

/-! ## The reader -/

/-- What a document is read for. -/
inductive Reading where
  /-- To count start tags. Each is met by its name and then read as a whole. -/
  | survey
  /-- To convert texts. Tags are read as a whole from the first. -/
  | conversion
  /-- To change the tags of bodies. Tags are met by their names, and most are read no further. -/
  | toggle
  deriving DecidableEq, Repr

namespace Reading

/-- How the text behind a start tag is read when its element asks for a mode. A tag that ends where a
value is missing leads to data, except in a survey. -/
def modeBehind (r : Reading) (tag : Tag) (mode : TextMode) : TextMode :=
  if tag.lacksValue && r ≠ survey then .data else mode

/-- Whether a tag is met by its name before the rest of it is read. -/
def meetsNames (r : Reading) : Bool :=
  r ≠ conversion

end Reading

/-- Where a document is being read. -/
structure Place where
  /-- How text is read. -/
  mode : TextMode := .data
  /-- What text counts as. This is how the element around asks to be read, even where it is not read so. -/
  label : TextMode := .data
  /-- The element whose end tag ends a text that is not read as data. -/
  element : String := ""
  /-- What is known from the tags so far. -/
  context : Context := {}
  /-- Whether the next tag is taken for an end tag. -/
  closing : Bool := false
  deriving DecidableEq, Repr

namespace Place

/-- The token of a tag that is taken for an end tag, and the place behind it. Where names are met first,
an end tag that has to be weighed leaves the next tag taken for one, too. -/
def close (r : Reading) (p : Place) (raw : Text) (tag : Tag) : Token × Place :=
  let weighed := p.context.weighsStop tag.element
  (.stop tag raw weighed,
    { p with
      mode := .data, label := .data, context := p.context.leave tag
      closing := weighed && r.meetsNames })

/-- The token of a start tag, and the place behind it. -/
def opening (r : Reading) (p : Place) (raw : Text) (tag : Tag) : Except AmbiguousTag (Token × Place) :=
  (p.context.enter tag).map fun context =>
    let label := p.context.textMode tag
    (.start tag raw context.vocabulary (p.context.weighsStart tag.element),
      { mode := r.modeBehind tag label, label, element := tag.element, context })

/-- The token that markup with a spelling makes, and the place behind it. Where names are met first, a
special element must not be ambiguous even if its tag is broken off. -/
def pass (r : Reading) (p : Place) (raw : Text) : Markup → Except AmbiguousTag (Token × Place)
  | .start tag => if p.closing then .ok (p.close r raw tag) else p.opening r raw tag
  | .stop tag => .ok (p.close r raw tag)
  | .broken element =>
    if r.meetsNames && !p.closing then (p.context.doubt.enter element).map fun _ => (.other raw, p)
    else .ok (.other raw, p)
  | .sectionStart => .ok (.other raw, { p with mode := .cdata, label := .cdata })
  | .other => .ok (.other raw, p)

/-- The element of a start tag that is taken for text. When bodies are looked for, their tags and those
that begin drawings and formulas are read anew once their names are known, and this time as what text
counts as here. -/
def swallowed? (r : Reading) (p : Place) (markup : Markup) : Option String :=
  if r = .toggle && p.mode ≠ p.label then
    markup.begun?.filter fun element => element = "body" || foreignRoots.contains element
  else none

/-- Reads the token at the head of a text that is not empty: the token, the place behind it and the
text behind it. -/
def next (r : Reading) (p : Place) (s : Text) : Except AmbiguousTag (Token × Place × Text) :=
  match takeText p.mode p.element s with
  | (c :: content, rest) => .ok (.text p.label (c :: content), p, rest)
  | ([], rest) =>
    if p.mode = .cdata then
      .ok (.other (rest.take 3), { p with mode := .data, label := .data }, rest.drop 3)
    else
      let (markup, behind) := readMarkup (p.context.vocabulary ≠ .html) (rest.drop 1)
      match p.swallowed? r markup with
      | some element =>
        let (content, behind) := takeText p.label element (rest.drop 1)
        .ok (.swallowed element (rest.take 1 ++ content), { p with mode := p.label, element }, behind)
      | none => (p.pass r (spelling rest behind) markup).map fun (token, p) => (token, p, behind)

theorem raw_of_opening {r : Reading} {p p' : Place} {raw : Text} {tag : Tag} {token : Token}
    (h : p.opening r raw tag = .ok (token, p')) : token.raw = raw := by
  unfold opening at h
  cases found : p.context.enter tag with
  | error e => simp [found, Except.map] at h
  | ok context =>
    simp only [found, Except.map, Except.ok.injEq, Prod.mk.injEq] at h
    rw [← h.1]
    rfl

theorem raw_of_close {r : Reading} {p p' : Place} {raw : Text} {tag : Tag} {token : Token}
    (h : p.close r raw tag = (token, p')) : token.raw = raw := by
  simp only [close, Prod.mk.injEq] at h
  rw [← h.1]
  rfl

theorem raw_of_pass {r : Reading} {p p' : Place} {raw : Text} {markup : Markup} {token : Token}
    (h : p.pass r raw markup = .ok (token, p')) : token.raw = raw := by
  cases markup with
  | start tag =>
    simp only [pass] at h
    split at h
    · exact raw_of_close (Except.ok.inj h)
    · exact raw_of_opening h
  | stop tag => exact raw_of_close (Except.ok.inj h)
  | broken element =>
    simp only [pass] at h
    split at h
    · cases found : p.context.doubt.enter element with
      | error e => simp [found, Except.map] at h
      | ok doubt =>
        simp only [found, Except.map, Except.ok.injEq, Prod.mk.injEq] at h
        rw [← h.1]
        rfl
    · simp only [Except.ok.injEq, Prod.mk.injEq] at h
      rw [← h.1]
      rfl
  | sectionStart =>
    simp only [pass, Except.ok.injEq, Prod.mk.injEq] at h
    rw [← h.1]
    rfl
  | other =>
    simp only [pass, Except.ok.injEq, Prod.mk.injEq] at h
    rw [← h.1]
    rfl

/-- A token and the text behind it make up the text. -/
theorem raw_append_of_next {r : Reading} {p p' : Place} {s rest : Text} {token : Token}
    (h : p.next r s = .ok (token, p', rest)) : token.raw ++ rest = s := by
  have whole := takeText_append p.mode p.element s
  unfold next at h
  split at h
  · next c content after heq =>
    rw [heq] at whole
    simp only [Except.ok.injEq, Prod.mk.injEq] at h
    obtain ⟨rfl, -, rfl⟩ := h
    exact whole
  · next after heq =>
    rw [heq] at whole
    simp only [List.nil_append] at whole
    subst whole
    split at h
    · simp only [Except.ok.injEq, Prod.mk.injEq] at h
      obtain ⟨rfl, -, rfl⟩ := h
      exact List.take_append_drop 3 after
    · simp only at h
      split at h
      · next element _ =>
        simp only [Except.ok.injEq, Prod.mk.injEq] at h
        obtain ⟨rfl, -, rfl⟩ := h
        simp only [Token.raw, List.append_assoc, takeText_append]
        exact List.take_append_drop 1 after
      · cases found : p.pass r (spelling after (readMarkup (p.context.vocabulary ≠ .html)
            (after.drop 1)).2) (readMarkup (p.context.vocabulary ≠ .html) (after.drop 1)).1 with
        | error e =>
          rw [found] at h
          simp [Except.map] at h
        | ok passed =>
          rw [found] at h
          simp only [Except.map, Except.ok.injEq, Prod.mk.injEq] at h
          obtain ⟨rfl, -, rfl⟩ := h
          rw [raw_of_pass found]
          exact spelling_append ((isSuffix_readMarkup _ _).trans (List.drop_suffix 1 after))

/-- A token takes a character at least. -/
theorem length_of_next {r : Reading} {p p' : Place} {s rest : Text} {token : Token} (hs : s ≠ [])
    (h : p.next r s = .ok (token, p', rest)) : rest.length < s.length := by
  have whole := takeText_append p.mode p.element s
  unfold next at h
  split at h
  · next c content after heq =>
    rw [heq] at whole
    simp only [Except.ok.injEq, Prod.mk.injEq] at h
    obtain ⟨-, -, rfl⟩ := h
    rw [← whole]
    simp only [List.length_append, List.length_cons]
    omega
  · next after heq =>
    rw [heq] at whole
    simp only [List.nil_append] at whole
    subst whole
    have positive := List.length_pos_iff.2 hs
    have short : (after.drop 1).length < after.length := by
      simp only [List.length_drop]
      omega
    split at h
    · simp only [Except.ok.injEq, Prod.mk.injEq] at h
      obtain ⟨-, -, rfl⟩ := h
      simp only [List.length_drop]
      omega
    · simp only at h
      split at h
      · next element _ =>
        simp only [Except.ok.injEq, Prod.mk.injEq] at h
        obtain ⟨-, -, rfl⟩ := h
        have parts := congrArg List.length (takeText_append p.label element (after.drop 1))
        simp only [List.length_append] at parts
        omega
      · cases found : p.pass r (spelling after (readMarkup (p.context.vocabulary ≠ .html)
            (after.drop 1)).2) (readMarkup (p.context.vocabulary ≠ .html) (after.drop 1)).1 with
        | error e =>
          rw [found] at h
          simp [Except.map] at h
        | ok passed =>
          rw [found] at h
          simp only [Except.map, Except.ok.injEq, Prod.mk.injEq] at h
          obtain ⟨-, -, rfl⟩ := h
          exact Nat.lt_of_le_of_lt (isSuffix_readMarkup _ _).length_le short

/-- The tokens of a text from a place on. -/
def tokens (r : Reading) (p : Place) (s : Text) : Except AmbiguousTag (List Token) :=
  if hs : s = [] then .ok []
  else
    match h : p.next r s with
    | .error e => .error e
    | .ok (token, p, rest) =>
      have : rest.length < s.length := length_of_next hs h
      (p.tokens r rest).map (token :: ·)
termination_by s.length

/-- The tokens of a text, one after the other, are the text. -/
theorem flatMap_raw_of_tokens {r : Reading} {p : Place} {s : Text} {ts : List Token}
    (h : p.tokens r s = .ok ts) : ts.flatMap Token.raw = s := by
  fun_induction tokens r p s generalizing ts with
  | case1 =>
    obtain rfl := by simpa using h
    rfl
  | case2 => simp at h
  | case3 p s hs token p' rest found _ ih =>
    cases later : p'.tokens r rest with
    | error e =>
      rw [later] at h
      simp [Except.map] at h
    | ok more =>
      rw [later] at h
      simp only [Except.map, Except.ok.injEq] at h
      subst h
      simp [ih later, raw_append_of_next found]

end Place

/-- The tokens of a document. -/
def read (r : Reading) (html : Text) : Except AmbiguousTag (List Token) :=
  ({} : Place).tokens r html

/-- The tokens of a document, one after the other, are the document. -/
theorem flatMap_raw_of_read {r : Reading} {html : Text} {ts : List Token} (h : read r html = .ok ts) :
    ts.flatMap Token.raw = html :=
  Place.flatMap_raw_of_tokens h

end MarkedMath.Html
