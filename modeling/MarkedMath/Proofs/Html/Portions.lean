import MarkedMath.Proofs.Html.Places
import MarkedMath.Proofs.SecondPass

/-!
# What a conversion leaves alone

A converted document is the document with its equations written in the place of their markers, and at one place
at most with the style block besides. To say so, the tokens of a document are cut into segments (`segments`):
each text that counts as data as the scanner cuts it, with one run of numbers for all of them, and every other
token as one segment of text. Written as they stood, the segments are the document
(`flatMap_written_segments`); what a conversion writes is the same segments rendered, with the block in front of
the tag that closes the head (`writeConverted_split`).

The texts may come in any chunks (`Token.ComesAs`). What is kept from one chunk to the next is gone when the text
has ended, so the chunks make no difference (`writePortions_eq`).

Whether the block is wanted is told from the tags that a survey notices. An element that the survey overlooks
does not keep the block out, and this is the only way in which a conversion does more than it should
(`keepsRest_iff`).
-/

namespace MarkedMath.Html

/-! ## Texts in any chunks -/

/-- The ways in which a text may be cut into chunks: parts of any length, the last one flagged. -/
inductive Chunk.Cuts (mode : TextMode) : Text → List Chunk → Prop where
  /-- What is left of the text comes in as the last chunk. -/
  | last (content : Text) : Cuts mode content [⟨mode, content, true⟩]
  /-- A part of the text comes in before the rest. -/
  | part (content : Text) {rest : Text} {chunks : List Chunk} (h : Cuts mode rest chunks) :
    Cuts mode (content ++ rest) (⟨mode, content, false⟩ :: chunks)

/-- A part of a document as it is handed over. -/
inductive Portion where
  /-- The chunks of a text. -/
  | chunks (cs : List Chunk)
  /-- Anything else. -/
  | markup (token : Token)

/-- What a token may be handed over as. -/
inductive Token.ComesAs : Token → Portion → Prop where
  | text {mode : TextMode} {content : Text} {cs : List Chunk} (h : Chunk.Cuts mode content cs) :
    ComesAs (.text mode content) (.chunks cs)
  | markup {token : Token} (h : ∀ mode content, token ≠ .text mode content) : ComesAs token (.markup token)

/-- The document with its markers converted, as it is written when it is handed over in portions. -/
def writePortions (g : Grammar) (layout : Layout) (block : Option Text) (search : HeadSearch) (k : Conversion) :
    List Portion → Text × Counts
  | [] => ([], k.counts)
  | .chunks cs :: rest =>
    let (written, k) := k.takeAll g layout cs
    let (others, counts) := writePortions g layout block search k rest
    (written ++ others, counts)
  | .markup token :: rest =>
    let (closes, search) := search.step token
    let added := if closes then block.getD [] else []
    let (others, counts) := writePortions g layout block search k rest
    (added ++ token.raw ++ others, counts)

section Portions

variable {g : Grammar} {l : Layout}

/-- The last chunk is written for the whole text, and then nothing is held any more. -/
lemma Conversion.takeAll_of_cuts {mode : TextMode} {content : Text} {cs : List Chunk} (h : Chunk.Cuts mode content cs)
    (k : Conversion) (hk : k.chunks = 0 → k.held = []) :
    k.takeAll g l cs =
      if mode = .data then
        ((g.convert l k.counts (k.held ++ content)).1, { counts := (g.convert l k.counts (k.held ++ content)).2 })
      else (content, k) := by
  by_cases hmode : mode = .data
  · subst hmode
    rw [if_pos rfl]
    induction h generalizing k with
    | last content =>
      cases found : g.segment? k.counts (k.held ++ content) with
      | some x => simp [takeAll, take, Grammar.convert, found]
      | none =>
        by_cases hchunks : k.chunks = 0
        · have hheld := hk hchunks
          rw [hheld, List.nil_append] at found
          simp [takeAll, take, Grammar.convert, hchunks, hheld, found]
        · simp [takeAll, take, Grammar.convert, hchunks, found]
    | part content _ ih =>
      rw [takeAll, take, if_neg (by simp)]
      simp only [Bool.not_false, if_true, List.nil_append]
      rw [ih _ (by simp), List.append_assoc]
  · rw [if_neg hmode]
    induction h generalizing k with
    | last content => simp [takeAll, take, hmode]
    | part content _ ih => simp [takeAll, take, hmode, ih k hk]

/-- **The chunks make no difference.** -/
lemma writePortions_eq {tokens : List Token} {portions : List Portion} (h : List.Forall₂ Token.ComesAs tokens portions)
    (block : Option Text) (search : HeadSearch) (counts : Counts) :
    writePortions g l block search { counts } portions = writeConverted g l block search { counts } tokens := by
  induction h generalizing search counts with
  | nil => rfl
  | @cons token portion tokens portions hcomes _ ih =>
    cases hcomes with
    | @text mode content cs hcuts =>
      rw [writePortions, writeConverted, Conversion.takeAll_ofText, Conversion.takeAll_of_cuts hcuts _ (fun _ => rfl)]
      by_cases hmode : mode = .data <;> simp [hmode, HeadSearch.step, ih]
    | markup hmarkup =>
      cases token with
      | text mode content => exact absurd rfl (hmarkup mode content)
      | _ => simp [writePortions, writeConverted, ih]

end Portions

/-! ## The end of the head -/

/-- The tokens in front of the one that closes the first head, and those from it on. -/
def HeadSearch.split? (search : HeadSearch) : List Token → Option (List Token × List Token)
  | [] => none
  | token :: rest =>
    if (search.step token).1 then some ([], token :: rest)
    else ((search.step token).2.split? rest).map fun (before, after) => (token :: before, after)

/-- How many open elements wait for content. -/
def HeadSearch.awaited (search : HeadSearch) : Nat :=
  search.opened.countP OpenElement.awaited

/-- One element waits at most, and none before the head has been met. -/
def HeadSearch.Single (search : HeadSearch) : Prop :=
  search.awaited ≤ if search.met then 1 else 0

lemma HeadSearch.single_start : ({} : HeadSearch).Single :=
  Nat.le_refl 0

section Search

variable {search : HeadSearch} {token : Token} {tokens before after : List Token}

lemma closeElement_append (element : String) (opened : List OpenElement) :
    (closeElement element opened).1 ++ (closeElement element opened).2 = opened := by
  have hspan := List.takeWhile_append_dropWhile (p := fun e : OpenElement => decide (e.element ≠ element)) (l := opened)
  rw [closeElement, List.span_eq_takeWhile_dropWhile]
  cases hdrop : opened.dropWhile (fun e : OpenElement => decide (e.element ≠ element)) with
  | nil => rfl
  | cons e around =>
    rw [hdrop] at hspan
    simpa using hspan

/-- A tag closes the awaited element or leaves it open. -/
lemma HeadSearch.awaited_stop (search : HeadSearch) (tag : Tag) (raw : Text) (weighed : Bool) :
    (closeElement tag.element search.opened).1.countP OpenElement.awaited +
      (search.step (.stop tag raw weighed)).2.awaited = search.awaited := by
  rw [awaited, awaited, ← List.countP_append]
  exact congrArg _ (closeElement_append tag.element search.opened)

lemma HeadSearch.Single.step (h : search.Single) (token : Token) : (search.step token).2.Single := by
  cases token with
  | start tag raw vocabulary weighed =>
    -- the head waits only if it is the first
    have hadded : (search.step (.start tag raw vocabulary weighed)).2.awaited ≤
        search.awaited + if tag.isHead && !search.met then 1 else 0 := by
      cases hopens : tag.opens vocabulary <;> simp [HeadSearch.step, awaited, hopens, List.countP_cons]
    have hmet : (search.step (.start tag raw vocabulary weighed)).2.met = (search.met || tag.isHead) := rfl
    rw [Single, hmet]
    rw [Single] at h
    cases hbefore : search.met <;> cases hhead : tag.isHead <;> simp only [hbefore, hhead] at h hadded ⊢ <;>
      exact hadded.trans (by simpa using h)
  | stop tag raw weighed =>
    have hsum := search.awaited_stop tag raw weighed
    have hmet : (search.step (.stop tag raw weighed)).2.met = search.met := rfl
    rw [Single, hmet]
    rw [Single] at h
    omega
  | _ => exact h

/-- Behind the tag that closes the head nothing waits. -/
lemma HeadSearch.spent_step (h : search.Single) (hcloses : (search.step token).1 = true) :
    (search.step token).2.met = true ∧ (search.step token).2.awaited = 0 := by
  cases token with
  | stop tag raw weighed =>
    have hsum := search.awaited_stop tag raw weighed
    have hpos : 0 < (closeElement tag.element search.opened).1.countP OpenElement.awaited := by
      rw [List.countP_pos_iff]
      simpa [HeadSearch.step] using hcloses
    rw [Single] at h
    have hmet : search.met = true := by
      by_contra hnot
      rw [if_neg hnot] at h
      omega
    rw [if_pos hmet] at h
    exact ⟨hmet, by omega⟩
  | _ => simp [HeadSearch.step] at hcloses

/-- Where nothing waits any more, nothing is closed. -/
lemma HeadSearch.split?_of_spent (hmet : search.met = true) (hspent : search.awaited = 0) :
    search.split? tokens = none := by
  induction tokens generalizing search with
  | nil => rfl
  | cons token tokens ih =>
    have hsingle : search.Single := by
      rw [Single, hspent]
      exact Nat.zero_le _
    have hnot : (search.step token).1 = false := by
      cases token with
      | stop tag raw weighed =>
        have hsum := search.awaited_stop tag raw weighed
        have hnone : (closeElement tag.element search.opened).1.countP OpenElement.awaited = 0 := by omega
        rw [List.countP_eq_zero] at hnone
        simpa [HeadSearch.step] using hnone
      | _ => rfl
    have hafter : (search.step token).2.met = true ∧ (search.step token).2.awaited = 0 := by
      cases token with
      | start tag raw vocabulary weighed =>
        simp only [HeadSearch.step, hmet, awaited] at hspent ⊢
        split <;> simp [hspent]
      | stop tag raw weighed =>
        have hsum := search.awaited_stop tag raw weighed
        exact ⟨hmet, by omega⟩
      | _ => exact ⟨hmet, hspent⟩
    rw [split?, if_neg (by simp [hnot]), ih hafter.1 hafter.2]
    rfl

lemma HeadSearch.append_of_split? (h : search.split? tokens = some (before, after)) : before ++ after = tokens := by
  induction tokens generalizing search before with
  | nil => simp [split?] at h
  | cons token tokens ih =>
    rw [split?] at h
    split at h
    · obtain ⟨rfl, rfl⟩ := Prod.mk.inj (Option.some_inj.1 h)
      rfl
    · obtain ⟨⟨before', after'⟩, hsplit, heq⟩ := Option.map_eq_some_iff.1 h
      obtain ⟨rfl, rfl⟩ := Prod.mk.inj heq
      rw [List.cons_append, ih hsplit]

end Search

/-! ## Segments of a document -/

/-- The segments of a token. Only texts that count as data are cut. -/
def Token.segments (g : Grammar) (counts : Counts) : Token → List Segment × Counts
  | .text .data content => (g.segment? counts content).getD ([.text content], counts)
  | token => ([.text token.raw], counts)

/-- The segments of tokens, numbered in one run. -/
def segments (g : Grammar) (counts : Counts) : List Token → List Segment × Counts
  | [] => ([], counts)
  | token :: rest =>
    let (here, counts) := token.segments g counts
    let (others, counts) := segments g counts rest
    (here ++ others, counts)

section Segments

variable {g : Grammar} {l : Layout} {counts : Counts} {search : HeadSearch} {tokens before after : List Token}

lemma segments_append (counts : Counts) (before after : List Token) :
    segments g counts (before ++ after) =
      ((segments g counts before).1 ++ (segments g (segments g counts before).2 after).1,
        (segments g (segments g counts before).2 after).2) := by
  induction before generalizing counts with
  | nil => rfl
  | cons token before ih => simp [segments, ih]

/-- What is written for a token is its segments rendered. -/
lemma Token.render_segments (counts : Counts) (token : Token) (rest : List Token) :
    (Outcome.ofTokens g l counts (token :: rest)).written =
        l.render (token.segments g counts).1 ++
          (Outcome.ofTokens g l (token.segments g counts).2 rest).written ∧
      (Outcome.ofTokens g l counts (token :: rest)).counts =
        (Outcome.ofTokens g l (token.segments g counts).2 rest).counts := by
  cases token with
  | text mode content =>
    cases mode with
    | data =>
      cases found : g.segment? counts content <;>
        simp [Outcome.ofTokens, Outcome.behind, segments, Grammar.convert, found, Layout.render, Layout.renderSegment]
    | _ => simp [Outcome.ofTokens, Outcome.behind, segments, Layout.render, Layout.renderSegment]
  | _ => simp [Outcome.ofTokens, Outcome.behind, segments, Layout.render, Layout.renderSegment]

/-- What a conversion without style rules makes of tokens is their segments rendered. -/
lemma ofTokens_eq_render (counts : Counts) (tokens : List Token) :
    (Outcome.ofTokens g l counts tokens).written = l.render (segments g counts tokens).1 ∧
      (Outcome.ofTokens g l counts tokens).counts = (segments g counts tokens).2 := by
  induction tokens generalizing counts with
  | nil => exact ⟨rfl, rfl⟩
  | cons token tokens ih =>
    obtain ⟨hwritten, hcounts⟩ := Token.render_segments (g := g) (l := l) counts token tokens
    rw [hwritten, hcounts, (ih _).1, (ih _).2]
    simp [segments, Layout.render]

lemma writeConverted_plain (search : HeadSearch) (counts : Counts) (tokens : List Token) :
    writeConverted g l none search { counts } tokens =
      (l.render (segments g counts tokens).1, (segments g counts tokens).2) := by
  rw [writeConverted_none, (ofTokens_eq_render counts tokens).1, (ofTokens_eq_render counts tokens).2]

/-- Written as they stood, the segments of a token are the token. -/
lemma Token.flatMap_written_segments (counts : Counts) (token : Token) :
    (token.segments g counts).1.flatMap g.writtenSegment = token.raw := by
  cases token with
  | text mode content =>
    cases mode with
    | data =>
      rw [segments]
      cases found : g.segment? counts content with
      | none => simp [Grammar.writtenSegment, raw]
      | some x => exact g.flatMap_written_number (g.segment?_eq_some_iff.1 found).2
    | _ => simp [segments, Grammar.writtenSegment, raw]
  | _ => simp [segments, Grammar.writtenSegment, raw]

/-- Written as they stood, the segments of tokens are the tokens. -/
lemma flatMap_written_segments (counts : Counts) (tokens : List Token) :
    (segments g counts tokens).1.flatMap g.writtenSegment = tokens.flatMap Token.raw := by
  induction tokens generalizing counts with
  | nil => rfl
  | cons token tokens ih => simp [segments, Token.flatMap_written_segments, ih]

/-- What is written for a token and behind it. -/
lemma writeConverted_cons (block : Option Text) (search : HeadSearch) (counts : Counts) (token : Token)
    (rest : List Token) :
    writeConverted g l block search { counts } (token :: rest) =
      ((if (search.step token).1 then block.getD [] else []) ++ l.render (token.segments g counts).1 ++
          (writeConverted g l block (search.step token).2 { counts := (token.segments g counts).2 } rest).1,
        (writeConverted g l block (search.step token).2 { counts := (token.segments g counts).2 } rest).2) := by
  cases token with
  | text mode content =>
    rw [writeConverted, Conversion.takeAll_ofText]
    by_cases hmode : mode = .data
    · subst hmode
      cases found : g.segment? counts content <;>
        simp [Token.segments, Grammar.convert, found, Layout.render, Layout.renderSegment]
    · cases mode with
      | data => exact absurd rfl hmode
      | _ => simp [Token.segments, Layout.render, Layout.renderSegment, Token.raw]
  | _ => simp [writeConverted, Token.segments, Layout.render, Layout.renderSegment, Token.raw]

/-- **The block is written once at most**, in front of the tag that closes the head. Until then one element waits at
most, and behind it none waits. -/
lemma writeConverted_split (h : search.Single) (block : Option Text) (counts : Counts) (tokens : List Token) :
    writeConverted g l block search { counts } tokens =
      match search.split? tokens with
      | none => (l.render (segments g counts tokens).1, (segments g counts tokens).2)
      | some (before, after) =>
        (l.render (segments g counts before).1 ++ block.getD [] ++
            l.render (segments g (segments g counts before).2 after).1, (segments g counts tokens).2) := by
  induction tokens generalizing search counts with
  | nil => rfl
  | cons token tokens ih =>
    rw [writeConverted_cons, HeadSearch.split?]
    cases hcloses : (search.step token).1 with
    | true =>
      -- the block comes here, so it does not come behind
      obtain ⟨hmet, hspent⟩ := HeadSearch.spent_step h hcloses
      rw [ih (h.step token), HeadSearch.split?_of_spent hmet hspent]
      simp [segments, Layout.render]
    | false =>
      rw [ih (h.step token)]
      cases (search.step token).2.split? tokens with
      | none => simp [segments, Layout.render]
      | some x => simp [segments, Layout.render]

end Segments

/-! ## What a conversion keeps -/

/-- The start tags among tokens. -/
def startTags (tokens : List Token) : List Tag :=
  tokens.filterMap fun
    | .start tag _ _ _ => some tag
    | _ => none

/-- Whether a tag carries the identifier of the style rules. -/
def Tag.Carries (tag : Tag) (sheet : Sheet) : Prop :=
  tag.value? "id" = some sheet.id.toList

instance (tag : Tag) (sheet : Sheet) : Decidable (tag.Carries sheet) :=
  inferInstanceAs (Decidable (_ = _))

/-- The converted document is the document, which has these tokens, with its equations written as elements and
with at most one copy of the style block besides; and a copy only if none of the tags `seen` carries the
identifier and there is a head. -/
def KeepsRest (s : CheckedSettings) (html : Text) (tokens : List Token) (seen : List Tag) (out : Converted) : Prop :=
  ∃ before after, segments s.grammar {} tokens = (before ++ after, out.counts) ∧
    (before ++ after).flatMap s.grammar.writtenSegment = html ∧
    (out.html = s.layout.render (before ++ after) ∨
      out.html = s.layout.render before ++ s.sheet.toHtml.toList ++ s.layout.render after ∧
        (∀ tag ∈ seen, ¬ tag.Carries s.sheet) ∧ ∃ tag ∈ startTags tokens, tag.isHead = true)

/-- Whether the style block is written: it is asked for, and some tag closes the head. -/
def Converted.HoldsBlock (out : Converted) (tokens : List Token) : Prop :=
  out.styles = .inserted ∧ (({} : HeadSearch).split? tokens).isSome = true

section Process

variable {s : CheckedSettings} {html : Text} {out : Converted} {tokens before after : List Token} {tags seen : List Tag}

lemma exists_of_process (h : process s html = .ok out) :
    ∃ tokens tags, read .conversion html = .ok tokens ∧ survey html = .ok tags := by
  obtain ⟨tags, htags, h⟩ := exists_of_bind_eq_ok h
  obtain ⟨tokens, htokens, -⟩ := exists_of_bind_eq_ok h
  exact ⟨tokens, tags, htokens, htags⟩

/-- The block that a conversion asks for. -/
def Converted.block? (out : Converted) (sheet : Sheet) : Option Text :=
  if out.styles = .inserted then some sheet.toHtml.toList else none

lemma process_eq (htokens : read .conversion html = .ok tokens) (htags : survey html = .ok tags)
    (h : process s html = .ok out) :
    out.styles = injection s.sheet tags tokens ∧
      writeConverted s.grammar s.layout (out.block? s.sheet) {} {} tokens = (out.html, out.counts) := by
  rw [process, htags] at h
  simp only [bind, Except.bind, htokens] at h
  obtain rfl := Except.ok.inj h
  exact ⟨rfl, rfl⟩

/-- The three things that can become of the style rules, and when the first two do. -/
lemma injection_cases (sheet : Sheet) (tags : List Tag) (tokens : List Token) :
    (injection sheet tags tokens = .alreadyPresent ∧ ∃ tag ∈ tags, tag.Carries sheet) ∨
      (injection sheet tags tokens = .inserted ∧ (∀ tag ∈ tags, ¬ tag.Carries sheet) ∧
        ∃ tag ∈ startTags tokens, tag.isHead = true) ∨
      injection sheet tags tokens = .noHead := by
  rw [injection]
  split
  · next hcarries =>
    obtain ⟨tag, htag, hcarries⟩ := List.any_eq_true.1 hcarries
    exact Or.inl ⟨rfl, tag, htag, of_decide_eq_true hcarries⟩
  · next hnone =>
    split
    · next hhead =>
      rw [Bool.and_eq_true] at hhead
      obtain ⟨token, htoken, hbegins⟩ := List.any_eq_true.1 hhead.2
      refine Or.inr (Or.inl ⟨rfl, fun tag htag hcarries => ?_, ?_⟩)
      · exact hnone (List.any_eq_true.2 ⟨tag, htag, decide_eq_true hcarries⟩)
      · cases token with
        | start tag raw vocabulary weighed => exact ⟨tag, List.mem_filterMap.2 ⟨_, htoken, rfl⟩, hbegins⟩
        | _ => cases hbegins
    · exact Or.inr (Or.inr rfl)

lemma not_carries_of_inserted (h : injection s.sheet tags tokens = .inserted) :
    (∀ tag ∈ tags, ¬ tag.Carries s.sheet) ∧ ∃ tag ∈ startTags tokens, tag.isHead = true := by
  rcases injection_cases s.sheet tags tokens with ⟨hpresent, -⟩ | ⟨-, hinserted⟩ | hnone
  · rw [h] at hpresent
    cases hpresent
  · exact hinserted
  · rw [h] at hnone
    cases hnone

lemma toHtml_ne_nil (sheet : Sheet) : sheet.toHtml.toList ≠ [] := by
  simp [Sheet.toHtml]

/-- What is written when no rules are asked for. -/
lemma html_of_not_inserted (h : process s html = .ok out) (htokens : read .conversion html = .ok tokens)
    (hnot : out.styles ≠ .inserted) : out.html = s.layout.render (segments s.grammar {} tokens).1 := by
  obtain ⟨-, tags, -, htags⟩ := exists_of_process h
  have hwritten := (process_eq htokens htags h).2
  rw [Converted.block?, if_neg hnot, writeConverted_plain] at hwritten
  exact (Prod.mk.inj hwritten).1.symm

/-- What is written when rules are asked for and a tag closes the head. -/
lemma html_of_inserted (h : process s html = .ok out) (htokens : read .conversion html = .ok tokens)
    (hinserted : out.styles = .inserted) (hsplit : ({} : HeadSearch).split? tokens = some (before, after)) :
    out.html = s.layout.render (segments s.grammar {} before).1 ++
      (s.sheet.toHtml.toList ++ s.layout.render (segments s.grammar (segments s.grammar {} before).2 after).1) := by
  obtain ⟨-, tags, -, htags⟩ := exists_of_process h
  have hwritten := (process_eq htokens htags h).2
  rw [Converted.block?, if_pos hinserted, writeConverted_split HeadSearch.single_start, hsplit] at hwritten
  rw [← (Prod.mk.inj hwritten).1, Option.getD_some, List.append_assoc]

/-- What a conversion writes, in segments. -/
lemma exists_segments (htokens : read .conversion html = .ok tokens) (htags : survey html = .ok tags)
    (h : process s html = .ok out) :
    ∃ before after, segments s.grammar {} tokens = (before ++ after, out.counts) ∧
      (before ++ after).flatMap s.grammar.writtenSegment = html ∧
      (out.HoldsBlock tokens → out.html = s.layout.render before ++ s.sheet.toHtml.toList ++ s.layout.render after) ∧
      (¬ out.HoldsBlock tokens → out.html = s.layout.render (before ++ after)) := by
  obtain ⟨-, hwritten⟩ := process_eq htokens htags h
  have hlossless : (segments s.grammar {} tokens).1.flatMap s.grammar.writtenSegment = html :=
    (flatMap_written_segments _ _).trans (flatMap_raw_of_read htokens)
  rw [writeConverted_split HeadSearch.single_start] at hwritten
  cases hsplit : ({} : HeadSearch).split? tokens with
  | none =>
    rw [hsplit] at hwritten
    obtain ⟨hhtml, hcounts⟩ := Prod.mk.inj hwritten
    refine ⟨(segments s.grammar {} tokens).1, [], ?_, ?_, fun hblock => ?_, fun _ => ?_⟩
    · rw [List.append_nil, ← hcounts]
    · rw [List.append_nil, hlossless]
    · simp [Converted.HoldsBlock, hsplit] at hblock
    · rw [List.append_nil, ← hhtml]
  | some x =>
    obtain ⟨before, after⟩ := x
    have hsegments : (segments s.grammar {} before).1 ++
        (segments s.grammar (segments s.grammar {} before).2 after).1 = (segments s.grammar {} tokens).1 := by
      rw [← HeadSearch.append_of_split? hsplit, segments_append]
    rw [hsplit] at hwritten
    refine ⟨(segments s.grammar {} before).1, (segments s.grammar (segments s.grammar {} before).2 after).1, ?_, ?_,
      fun hblock => ?_, fun hblock => ?_⟩
    · rw [hsegments, ← (Prod.mk.inj hwritten).2]
    · rw [hsegments, hlossless]
    · rw [html_of_inserted h htokens hblock.1 hsplit, List.append_assoc]
    · rw [hsegments]
      exact html_of_not_inserted h htokens fun hinserted => hblock ⟨hinserted, by simp [hsplit]⟩

/-- The rest is kept, unless the block is written although a tag carries the identifier. -/
lemma keepsRest_iff_of_read (htokens : read .conversion html = .ok tokens) (htags : survey html = .ok tags)
    (h : process s html = .ok out) (seen : List Tag) :
    KeepsRest s html tokens seen out ↔ (out.HoldsBlock tokens → ∀ tag ∈ seen, ¬ tag.Carries s.sheet) := by
  obtain ⟨before, after, hsegments, hlossless, hblock, hplain⟩ := exists_segments htokens htags h
  constructor
  · rintro ⟨before', after', hsegments', -, hout⟩ hholds
    rcases hout with hout | ⟨-, hnone, -⟩
    · -- the block has a length
      have hsame : before' ++ after' = before ++ after := congrArg Prod.fst (hsegments'.symm.trans hsegments)
      have hlength := congrArg List.length (hout.symm.trans (hblock hholds))
      have hpos := List.length_pos_iff.2 (toHtml_ne_nil s.sheet)
      rw [hsame] at hlength
      simp only [Layout.render, List.flatMap_append, List.length_append] at hlength
      omega
    · exact hnone
  · intro hnone
    refine ⟨before, after, hsegments, hlossless, ?_⟩
    by_cases hholds : out.HoldsBlock tokens
    · have hinserted := (process_eq htokens htags h).1.symm.trans hholds.1
      exact Or.inr ⟨hblock hholds, hnone hholds, (not_carries_of_inserted hinserted).2⟩
    · exact Or.inl (hplain hholds)

/-- **A conversion leaves the rest alone.** Let a document be converted. In whatever chunks its texts come, the
outcome is the document with its equations written as elements in the place of their markers, numbered in one
run, and with at most one copy of the style block, which comes only if no tag that the survey notices carries
the identifier and there is a head. No tag at all carries the identifier of a block that was written, exactly
when the survey overlooks none that does. -/
theorem keepsRest_iff (s : CheckedSettings) (html : Text) (out : Converted) (h : process s html = .ok out) :
    ∃ tokens tags, read .conversion html = .ok tokens ∧ survey html = .ok tags ∧
      (∀ portions, List.Forall₂ Token.ComesAs tokens portions →
        writePortions s.grammar s.layout (out.block? s.sheet) {} {} portions = (out.html, out.counts)) ∧
      KeepsRest s html tokens tags out ∧
      (KeepsRest s html tokens (startTags tokens) out ↔
        (out.HoldsBlock tokens → ∀ tag ∈ startTags tokens, tag.Carries s.sheet → tag ∈ tags)) := by
  obtain ⟨tokens, tags, htokens, htags⟩ := exists_of_process h
  obtain ⟨hstyles, hwritten⟩ := process_eq htokens htags h
  have hnoticed : out.HoldsBlock tokens → ∀ tag ∈ tags, ¬ tag.Carries s.sheet := fun hblock =>
    (not_carries_of_inserted (hstyles.symm.trans hblock.1)).1
  refine ⟨tokens, tags, htokens, htags, fun portions hportions => ?_,
    (keepsRest_iff_of_read htokens htags h tags).2 hnoticed, ?_⟩
  · rw [writePortions_eq hportions, hwritten]
  · rw [keepsRest_iff_of_read htokens htags h]
    constructor
    · intro hnone hblock tag htag hcarries
      exact absurd hcarries (hnone hblock tag htag)
    · intro hall hblock tag htag hcarries
      exact hnoticed hblock tag (hall hblock tag htag hcarries) hcarries

/-- A page with a head and a marker. -/
def headedPage : Text :=
  "<head></head><p>MATHSTARTINLINE\\(x\\)MATHENDINLINE</p>".toList

/-- The page takes the style block, and the rest of it is kept. -/
theorem keepsRest_headedPage :
    ∃ out tokens, process .standard headedPage = .ok out ∧ read .conversion headedPage = .ok tokens ∧
      out.HoldsBlock tokens ∧ KeepsRest .standard headedPage tokens (startTags tokens) out := by
  have hstyles : ((process .standard headedPage).toOption.any fun out => out.styles = .inserted) = true := by
    decide +kernel
  have htags : ((read .conversion headedPage).toOption.any fun tokens =>
      (({} : HeadSearch).split? tokens).isSome &&
        (startTags tokens).all fun tag => ¬ tag.Carries CheckedSettings.standard.sheet) = true := by decide +kernel
  cases hout : process .standard headedPage with
  | error _ => simp [hout, Except.toOption] at hstyles
  | ok out =>
    obtain ⟨tokens, tags, htokens, -, -, -, hiff⟩ := keepsRest_iff .standard headedPage out hout
    simp only [htokens, Except.toOption, Option.any_some, Bool.and_eq_true, List.all_eq_true,
      decide_eq_true_eq] at htags
    simp only [hout, Except.toOption, Option.any_some, decide_eq_true_eq] at hstyles
    exact ⟨out, tokens, rfl, htokens, ⟨hstyles, htags.1⟩,
      hiff.2 fun _ tag htag hcarries => absurd hcarries (htags.2 tag htag)⟩

/-- A page with a head, and with a formula in which an element carries the identifier of the style rules, behind
an end tag. -/
def formulaPage : Text :=
  ("<html><head></head><body><math><mn>1</mn><mi id=\"equation-processor-styles\">x</mi></math></body>" ++
    "</html>").toList

/-- The survey overlooks the element of the formula, so the block is written although an element carries its
identifier. -/
theorem not_keepsRest_formulaPage :
    ∃ out tokens, process .standard formulaPage = .ok out ∧ read .conversion formulaPage = .ok tokens ∧
      ¬ KeepsRest .standard formulaPage tokens (startTags tokens) out := by
  have hstyles : ((process .standard formulaPage).toOption.any fun out => out.styles = .inserted) = true := by
    decide +kernel
  have htags : ((read .conversion formulaPage).toOption.any fun tokens =>
      (({} : HeadSearch).split? tokens).isSome &&
        (startTags tokens).any fun tag => tag.Carries CheckedSettings.standard.sheet) = true := by decide +kernel
  cases hout : process .standard formulaPage with
  | error _ => simp [hout, Except.toOption] at hstyles
  | ok out =>
    obtain ⟨tokens, tags, htokens, hsurvey⟩ := exists_of_process hout
    simp only [htokens, Except.toOption, Option.any_some, Bool.and_eq_true, List.any_eq_true,
      decide_eq_true_eq] at htags
    simp only [hout, Except.toOption, Option.any_some, decide_eq_true_eq] at hstyles
    obtain ⟨hsplit, tag, htag, hcarries⟩ := htags
    refine ⟨out, tokens, rfl, htokens, fun hkeeps => ?_⟩
    exact (keepsRest_iff_of_read htokens hsurvey hout _).1 hkeeps ⟨hstyles, hsplit⟩ tag htag hcarries

end Process

end MarkedMath.Html
