import MarkedMath.Proofs.Html.Rereading

/-!
# Converting a converted document

When a converted document is converted once more, its tokens are known (`read_converted`), and so is what becomes
of the style rules: equations have no identifier and are no heads, so a survey notices what it noticed before, and
besides the style element if it was added (`any_noticed_rewritten`, `injection_rewritten`). The texts that are
data are the pieces of those before, and the rules where they stand in a drawing or formula
(`not_holds_rewritten_iff`).
-/

namespace MarkedMath.Html

/-! ## Tags that are noticed -/

section Noticed

variable {g : Grammar} {l : Layout} {r : Reading} {p p' : Place} {s rest : Text} {tokens : List Token}
  {counts : Counts} {search : HeadSearch}

lemma weighsStart_html {c : Context} (h : c.vocabulary = .html) (element : String) : c.weighsStart element = false := by
  simp [Context.weighsStart, h]

/-- A start tag in HTML does not have to be weighed. -/
lemma not_weighed_of_reads {tag : Tag} {raw : Text} {vocabulary : Vocabulary} {weighed : Bool} (hp : p.Tidy)
    (h : p.Reads r s (.start tag raw vocabulary weighed) p' rest) (hhtml : p.context.vocabulary = .html) :
    weighed = false := by
  cases h with
  | markup _ _ _ hpass =>
    cases Place.passes_of_pass hp.closing hpass with
    | start => exact weighsStart_html hhtml _

/-- Whether tokens show a tag of a sort, wherever they stand. -/
def Shows (P : Tag → Bool) (added : List Token) (present : Bool) : Prop :=
  ∀ f, ∃ f', ∀ ts, (noticed f (added ++ ts)).any P = (present || (noticed f' ts).any P)

lemma shows_nil (P : Tag → Bool) : Shows P [] false :=
  fun f => ⟨f, fun _ => rfl⟩

lemma shows_block (P : Tag → Bool) (sheet : Sheet) (vocabulary : Vocabulary) :
    Shows P (blockTokens sheet vocabulary) (P (.ofWritten "style" (blockAttributes sheet))) :=
  fun _ => ⟨true, fun _ => rfl⟩

variable {P : Tag → Bool} (hP : ∀ e, P (.ofWritten e.kind.tag (attributesOf l e)) = false)
include hP

lemma any_noticed_equation (e : Equation) (f : Bool) (ts : List Token) :
    (noticed f (equationTokens l e ++ ts)).any P = (noticed true ts).any P := by
  simp [equationTokens, noticed, hP]

/-- No tag of interest is noticed among segments, and where they have no equation the tag behind them is noticed as
before. -/
lemma any_noticed_segments (segments : List Segment) (f : Bool) : ∃ f',
    (segments.any (fun x => x.piece.isMarker) = false → f' = f) ∧
      ∀ ts, (noticed f (segments.flatMap (segmentTokens l) ++ ts)).any P = (noticed f' ts).any P := by
  induction segments generalizing f with
  | nil => exact ⟨f, fun _ => rfl, fun _ => rfl⟩
  | cons x segments ih =>
    cases x with
    | text t =>
      obtain ⟨f', hsame, hany⟩ := ih f
      exact ⟨f', hsame, hany⟩
    | equation e =>
      obtain ⟨f', -, hany⟩ := ih true
      refine ⟨f', by simp [Segment.piece, Piece.isMarker], fun ts => ?_⟩
      rw [List.flatMap_cons, List.append_assoc]
      exact (any_noticed_equation hP e f _).trans (hany ts)

/-- **A survey of a converted document** notices of a sort of tags, to which no equation belongs, what it noticed
before and what was added.

The flags `f` and `f'` are those of the survey before and after. They may differ behind an equation, but that stands
where elements are taken from HTML, and there no start tag has to be weighed; behind the style block an end tag
comes, and then they are the same. -/
lemma any_noticed_rewritten {added : List Token} {present : Bool} (hadded : Shows P added present) (hr : r ≠ .toggle)
    (hp : p.Tidy) (h : p.tokens r s = .ok tokens) (hg : Orderly g p.context tokens) {f f' : Bool}
    (hf : p.context.vocabulary = .html ∨ f' = f) :
    (noticed f' (rewritten g l added search counts tokens)).any P =
      ((search.split? tokens).isSome && present || (noticed f tokens).any P) := by
  induction tokens generalizing p s search counts f f' with
  | nil => rfl
  | cons token tokens ih =>
    obtain ⟨hs, q, rest, hreads, hlater⟩ := (Place.tokens_eq_cons_iff hr).1 h
    obtain ⟨htoken, hg⟩ := hg
    obtain ⟨hq, hcontext⟩ := hreads.tidy hp htoken
    have hrest : ∀ counts f f', (token.behind p.context).vocabulary = .html ∨ f' = f →
        (noticed f' (rewritten g l added (search.step token).2 counts tokens)).any P =
          (((search.step token).2.split? tokens).isSome && present || (noticed f tokens).any P) :=
      fun _ _ _ hf => ih hq hlater (hcontext ▸ hg) (hcontext ▸ hf)
    rw [rewritten, HeadSearch.split?]
    cases hcloses : (search.step token).1 with
    | true =>
      cases token with
      | stop tag raw weighed =>
        obtain rfl : weighed = false := htoken
        obtain ⟨f'', hany⟩ := hadded f'
        have hbehind := hrest counts true true (Or.inr rfl)
        simp only [if_true, Option.isSome_some, Bool.true_and, List.append_assoc, hany, Token.rewritten, noticed,
          List.singleton_append, Bool.not_false, Token.segments, hbehind]
        cases present <;> cases (noticed true tokens).any P <;> simp
      | _ => cases hcloses
    | false =>
      simp only [Bool.false_eq_true, if_false, List.nil_append, Option.isSome_map]
      cases token with
      | text mode content =>
        cases mode with
        | data =>
          obtain ⟨f'', hsame, hany⟩ := any_noticed_segments hP ((Token.text .data content).segments g counts).1 f'
          have hbehind : p.context.vocabulary = .html ∨ f'' = f := by
            by_cases hmarker : ((Token.text .data content).segments g counts).1.any (fun x => x.piece.isMarker) = true
            · obtain ⟨-, hne, -, -⟩ := takeText_of_reads hp hreads
              exact Or.inl (htoken rfl ((segments_text counts content hne).2.2 hmarker))
            · rw [hsame (by simpa using hmarker)]
              exact hf
          rw [Token.rewritten, hany, hrest _ _ _ hbehind]
          rfl
        | _ => exact hrest _ _ _ hf
      | start tag raw vocabulary weighed =>
        have hbehind := hrest counts false false (Or.inr rfl)
        have hsame : (weighed && f') = (weighed && f) := by
          rcases hf with hhtml | rfl
          · rw [not_weighed_of_reads hp hreads hhtml]
            rfl
          · rfl
        have hkept : (Token.start tag raw vocabulary weighed).rewritten g l counts =
            [.start tag raw vocabulary weighed] := rfl
        rw [hkept, List.singleton_append, noticed, noticed, hsame]
        split
        · exact hbehind
        · rw [List.any_cons, List.any_cons]
          refine (congrArg (P tag || ·) hbehind).trans ?_
          rw [← Bool.or_assoc, Bool.or_comm (P tag), Bool.or_assoc]
      | stop tag raw weighed => exact hrest _ _ _ (Or.inr rfl)
      | other raw => exact hrest _ _ _ hf
      | swallowed element raw => exact hrest _ _ _ hf

end Noticed

/-! ## The style rules -/

section Injection

variable {g : Grammar} {l : Layout} {p : Place} {s : Text} {tokens added : List Token} {counts : Counts}
  {search : HeadSearch} {sheet : Sheet} (S : CheckedSettings)

lemma any_rewritten {Q : Token → Bool} (htext : ∀ content, Q (.text .data content) = false)
    (hequation : ∀ e, (equationTokens l e).any Q = false) (hadded : added.any Q = false) :
    (rewritten g l added search counts tokens).any Q = tokens.any Q := by
  have hsegments : ∀ segments : List Segment, (segments.flatMap (segmentTokens l)).any Q = false := by
    intro segments
    rw [List.any_eq_false]
    intro token htoken
    obtain ⟨x, -, hx⟩ := List.mem_flatMap.1 htoken
    cases x with
    | text t =>
      obtain rfl := List.mem_singleton.1 hx
      simp [htext]
    | equation e => exact List.any_eq_false.1 (hequation e) token hx
  induction tokens generalizing search counts with
  | nil => rfl
  | cons token tokens ih =>
    have hfront : (if (search.step token).1 then added else []).any Q = false := by
      split
      · exact hadded
      · rfl
    have htoken : (token.rewritten g l counts).any Q = Q token := by
      cases token with
      | text mode content =>
        cases mode with
        | data => exact (hsegments _).trans (htext content).symm
        | _ => simp [Token.rewritten]
      | _ => simp [Token.rewritten]
    rw [rewritten, List.any_append, List.any_append, hfront, htoken, ih, List.any_cons, Bool.false_or]

lemma not_carries_equation (e : Equation) :
    decide ((Tag.ofWritten e.kind.tag (attributesOf l e)).value? "id" = some sheet.id.toList) = false := by
  have hnames : ∀ name ∈ ["class", "data-equation-kind", "data-equation-id"], Text.lower name.toList ≠ "id".toList := by
    decide
  have hnone : (Tag.ofWritten e.kind.tag (attributesOf l e)).attribute? "id" = none := by
    rw [Tag.attribute?, List.find?_eq_none]
    intro a ha
    obtain ⟨b, hb, rfl⟩ := List.mem_map.1 ha
    exact fun hid => hnames b.1 (name_mem_attributesOf hb) (of_decide_eq_true hid)
  simp [Tag.value?, hnone]

lemma not_isHead_equation (e : Equation) : (Tag.ofWritten e.kind.tag (attributesOf l e)).isHead = false := by
  rw [Tag.isHead, Tag.element_ofWritten (isElementName_tag e.kind)]
  cases e.kind <;> rfl

lemma carries_block :
    (Tag.ofWritten "style" (blockAttributes S.sheet)).value? "id" = some S.sheet.id.toList := by
  have hname : Text.lower "id".toList = "id".toList := by decide
  have hfind : (Tag.ofWritten "style" (blockAttributes S.sheet)).attribute? "id" =
      some (.ofWritten "id" S.sheet.id.toList) :=
    List.find?_cons_of_pos (by simp only [Attribute.ofWritten, hname, decide_true])
  rw [Tag.value?, hfind]
  exact congrArg some (Text.plain_of_isNameChar (isNameChar_of_mem_get S .styleId))

lemma any_beginsHead_rewritten (hadded : added.any Token.beginsHead = false) :
    (rewritten g l added search counts tokens).any Token.beginsHead = tokens.any Token.beginsHead :=
  any_rewritten (fun _ => rfl) (fun e => by simp [equationTokens, Token.beginsHead, not_isHead_equation]) hadded

/-- **What becomes of the style rules** in a converted document: what became of them before, unless they were added,
which a survey notices. -/
lemma injection_rewritten (search : HeadSearch) (counts : Counts) (htokens : read .conversion s = .ok tokens)
    (hg : Orderly g {} tokens) :
    injection S.sheet (noticed false (rewritten g l [] search counts tokens)) (rewritten g l [] search counts tokens) =
        injection S.sheet (noticed false tokens) tokens ∧
      ∀ vocabulary, (search.split? tokens).isSome = true →
        injection S.sheet (noticed false (rewritten g l (blockTokens S.sheet vocabulary) search counts tokens))
          (rewritten g l (blockTokens S.sheet vocabulary) search counts tokens) = .alreadyPresent := by
  have hread : Place.tokens .conversion {} s = .ok tokens := htokens
  have hnoticed : ∀ {P : Tag → Bool}, (∀ e, P (.ofWritten e.kind.tag (attributesOf l e)) = false) →
      ∀ {added present}, Shows P added present →
        (noticed false (rewritten g l added search counts tokens)).any P =
          ((search.split? tokens).isSome && present || (noticed false tokens).any P) := fun hP _ _ hadded =>
    any_noticed_rewritten hP hadded (by decide) Place.tidy_start hread hg (Or.inl rfl)
  constructor
  · rw [injection, injection, hnoticed not_carries_equation (shows_nil _), hnoticed not_isHead_equation (shows_nil _),
      any_beginsHead_rewritten rfl]
    simp
  · intro vocabulary hsplit
    rw [injection, hnoticed not_carries_equation (shows_block _ S.sheet vocabulary), hsplit, carries_block]
    simp

end Injection

/-! ## Texts that are data -/

/-- The texts that count as data. -/
def dataTexts (tokens : List Token) : List Text :=
  tokens.filterMap Token.data?

section Texts

variable {g : Grammar} {l : Layout} {token : Token} {tokens added : List Token} {counts : Counts}
  {search : HeadSearch}

lemma dataTexts_append (tokens tokens' : List Token) :
    dataTexts (tokens ++ tokens') = dataTexts tokens ++ dataTexts tokens' :=
  List.filterMap_append

lemma dataTexts_cons (token : Token) (tokens : List Token) :
    dataTexts (token :: tokens) = token.data?.toList ++ dataTexts tokens := by
  rw [dataTexts, List.filterMap_cons]
  cases token.data? <;> rfl

/-- Every marker of a text that is data uses up one number. -/
lemma total_segments (counts : Counts) (tokens : List Token) :
    (segments g counts tokens).2.total =
      counts.total + ((dataTexts tokens).flatMap g.pieces).countP Piece.isMarker := by
  induction tokens generalizing counts with
  | nil => rfl
  | cons token tokens ih =>
    have htoken : (token.segments g counts).2.total =
        counts.total + (token.data?.toList.flatMap g.pieces).countP Piece.isMarker := by
      cases hdata : token.data? with
      | none =>
        rw [Token.segments_of_not_data hdata]
        rfl
      | some content =>
        obtain rfl := Token.eq_of_data? hdata
        rw [Option.toList_some, List.flatMap_singleton, Token.segments]
        cases found : g.segment? counts content with
        | none =>
          have hnone := mt g.any_marker_iff.1 (not_exists.2 (g.segment?_eq_none_iff.1 found))
          rw [List.countP_eq_zero.2 fun p hp hmarker => hnone (List.any_eq_true.2 ⟨p, hp, hmarker⟩)]
          rfl
        | some x =>
          obtain ⟨segments, after⟩ := x
          rw [← Segment.total_number, (g.segment?_eq_some_iff.1 found).2]
          rfl
    rw [dataTexts_cons, List.flatMap_append, List.countP_append, ← Nat.add_assoc, ← htoken]
    exact ih _

/-- Tokens whose data holds no marker are written as they are. -/
lemma segments_of_not_holds (h : ∀ t ∈ dataTexts tokens, ∀ kind, ¬ (g.rule kind).Holds t) (counts : Counts) :
    segments g counts tokens = (tokens.map fun token => .text token.raw, counts) := by
  induction tokens with
  | nil => rfl
  | cons token tokens ih =>
    rw [dataTexts_cons] at h
    have htoken : token.segments g counts = ([.text token.raw], counts) := by
      cases hdata : token.data? with
      | none => exact Token.segments_of_not_data hdata
      | some content =>
        obtain rfl := Token.eq_of_data? hdata
        rw [Token.segments, g.segment?_eq_none_iff.2 (h content (List.mem_cons_self ..))]
        rfl
    simp only [segments, htoken, ih fun t ht => h t (List.mem_append_right _ ht)]
    rfl

lemma counts_segments_iff :
    (segments g {} tokens).2 = {} ↔ ∀ t ∈ dataTexts tokens, ∀ kind, ¬ (g.rule kind).Holds t := by
  constructor
  · intro hzero t ht
    have htotal := total_segments (g := g) {} tokens
    rw [hzero, eq_comm, Nat.add_eq_left, List.countP_eq_zero] at htotal
    refine not_exists.1 (mt g.any_marker_iff.2 fun hany => ?_)
    obtain ⟨p, hp, hmarker⟩ := List.any_eq_true.1 hany
    exact htotal p (List.mem_flatMap.2 ⟨t, ht, hp⟩) hmarker
  · intro h
    rw [segments_of_not_holds h]

/-- The pieces of a text hold no marker exactly when no payload does. -/
lemma not_holds_segments_iff {segments : List Segment} {after : Counts} {content : Text}
    (h : Segment.number counts (g.pieces content) = (segments, after)) :
    (∀ t ∈ dataTexts (segments.flatMap (segmentTokens l)), ∀ kind, ¬ (g.rule kind).Holds t) ↔
      g.NestsNothing content := by
  have hpieces := Segment.map_piece_of_number h
  have htexts : dataTexts (segments.flatMap (segmentTokens l)) = (g.pieces content).map Piece.content := by
    rw [← hpieces]
    clear h hpieces
    induction segments with
    | nil => rfl
    | cons x segments ih =>
      rw [List.flatMap_cons, dataTexts_append, ih]
      cases x <;> rfl
  rw [htexts]
  constructor
  · intro hnone kind payload hmem
    exact hnone payload (List.mem_map.2 ⟨_, hmem, rfl⟩)
  · intro hnests t ht
    obtain ⟨p, hp, rfl⟩ := List.mem_map.1 ht
    cases p with
    | text t => exact (g.text_of_mem_pieces hp).2
    | marker kind payload => exact hnests kind payload hp

lemma nestsNothing_of_not_holds {t : Text} (h : ∀ kind, ¬ (g.rule kind).Holds t) : g.NestsNothing t := by
  intro kind payload hmem
  exact absurd (g.any_marker_iff.1 (List.any_eq_true.2 ⟨_, hmem, rfl⟩)) (not_exists.2 h)

/-- **No marker is left as data** in a converted document exactly when no payload holds a marker, as long as none is
in what was added. -/
lemma not_holds_rewritten_iff (hadded : ∀ t ∈ dataTexts added, ∀ kind, ¬ (g.rule kind).Holds t) :
    (∀ t ∈ dataTexts (rewritten g l added search counts tokens), ∀ kind, ¬ (g.rule kind).Holds t) ↔
      ∀ t ∈ dataTexts tokens, g.NestsNothing t := by
  induction tokens generalizing search counts with
  | nil => exact iff_of_true (by simp [rewritten, dataTexts]) (by simp [dataTexts])
  | cons token tokens ih =>
    have hfront : ∀ t ∈ dataTexts (if (search.step token).1 then added else []), ∀ kind, ¬ (g.rule kind).Holds t := by
      split
      · exact hadded
      · simp [dataTexts]
    have htoken : (∀ t ∈ dataTexts (token.rewritten g l counts), ∀ kind, ¬ (g.rule kind).Holds t) ↔
        ∀ t ∈ token.data?.toList, g.NestsNothing t := by
      cases hdata : token.data? with
      | none =>
        rw [Token.rewritten_of_not_data hdata, dataTexts_cons, hdata]
        simp [dataTexts]
      | some content =>
        obtain rfl := Token.eq_of_data? hdata
        simp only [Option.toList_some, List.forall_mem_singleton, Token.rewritten, Token.segments]
        cases found : g.segment? counts content with
        | none =>
          have hnone := g.segment?_eq_none_iff.1 found
          refine iff_of_true ?_ (nestsNothing_of_not_holds hnone)
          intro t ht
          obtain rfl := List.mem_singleton.1 ht
          exact hnone
        | some x => exact not_holds_segments_iff (g.segment?_eq_some_iff.1 found).2
    rw [rewritten, dataTexts_append, dataTexts_append, dataTexts_cons]
    simp only [List.forall_mem_append, ih, htoken]
    exact and_congr_left' (and_iff_right hfront)

end Texts

/-! ## The second conversion -/

section Again

variable {s : CheckedSettings} {html : Text} {out : Converted} {tokens : List Token}

/-- The outcome of converting a document that has these tokens when both readings give them. -/
def Converted.ofTokens (s : CheckedSettings) (tokens : List Token) : Converted :=
  let styles := injection s.sheet (noticed false tokens) tokens
  let block := if styles = .inserted then some s.sheet.toHtml.toList else none
  let written := writeConverted s.grammar s.layout block {} {} tokens
  ⟨written.1, written.2, styles⟩

lemma process_of_read {tokens : Except AmbiguousTag (List Token)} (hread : ∀ r, r ≠ .toggle → read r html = tokens) :
    process s html = tokens.map (Converted.ofTokens s) := by
  rw [process, survey, hread .survey (by decide), hread .conversion (by decide)]
  cases tokens <;> rfl

/-- A survey of an orderly document that is converted reads the tokens of the conversion. -/
lemma read_eq_of_process (h : process s html = .ok out) (htokens : read .conversion html = .ok tokens)
    (hg : Orderly s.grammar {} tokens) {r : Reading} (hr : r ≠ .toggle) : read r html = .ok tokens := by
  cases r with
  | conversion => exact htokens
  | toggle => exact absurd rfl hr
  | survey =>
    obtain ⟨-, tags, -, htags⟩ := exists_of_process h
    obtain ⟨surveyed, hsurveyed, -⟩ := exists_of_map_eq_ok htags
    rw [hsurveyed, Place.tokens_survey Place.tidy_start htokens hg hsurveyed]

lemma eq_ofTokens_of_process (h : process s html = .ok out) (htokens : read .conversion html = .ok tokens)
    (hg : Orderly s.grammar {} tokens) : out = .ofTokens s tokens := by
  rw [process_of_read fun r hr => read_eq_of_process h htokens hg hr] at h
  exact (Except.ok.inj h).symm

/-- The context in front of the tag that closes the head, if the block is written there. -/
def Converted.place? (out : Converted) (tokens : List Token) : Option Context :=
  if out.styles = .inserted then ({} : HeadSearch).place? {} tokens else none

/-- A converted document is read as the tokens of the document with equations in the place of their markers and with
the style block, unless a style element may be ignored there. -/
lemma read_converted (h : process s html = .ok out) (htokens : read .conversion html = .ok tokens)
    (hg : Orderly s.grammar {} tokens) {r : Reading} (hr : r ≠ .toggle) :
    read r out.html = (addedTokens s.sheet (out.place? tokens)).map fun added =>
      rewritten s.grammar s.layout added {} {} tokens := by
  obtain ⟨-, tags, -, htags⟩ := exists_of_process h
  have hwritten := (process_eq htokens htags h).2
  have hagain := (tokens_rewritten s hr (decide (out.styles = .inserted)) {} Place.tidy_start
    (fun hdata => absurd rfl hdata) HeadSearch.single_start (read_eq_of_process h htokens hg hr) hg).2
  simp only [decide_eq_true_eq] at hagain
  rw [Converted.block?] at hwritten
  rw [hwritten] at hagain
  exact hagain

/-- **The second conversion** of an orderly document is that of the tokens it is read as. -/
lemma process_converted (h : process s html = .ok out) (htokens : read .conversion html = .ok tokens)
    (hg : Orderly s.grammar {} tokens) :
    process s out.html = (addedTokens s.sheet (out.place? tokens)).map fun added =>
      .ofTokens s (rewritten s.grammar s.layout added {} {} tokens) := by
  rw [process_of_read fun r hr => read_converted h htokens hg hr]
  cases addedTokens s.sheet (out.place? tokens) <;> rfl

/-- The block has a place if it is asked for: the head is closed by a tag, in front of which no style element is
ignored. -/
def Converted.Placed (out : Converted) (tokens : List Token) : Prop :=
  out.styles = .inserted → ∃ c, ({} : HeadSearch).place? {} tokens = some c ∧ c.doubt = .none

lemma exists_added_of_placed (h : out.Placed tokens) (sheet : Sheet) :
    ∃ added, addedTokens sheet (out.place? tokens) = .ok added := by
  rw [Converted.place?]
  split
  · next hinserted =>
    obtain ⟨c, hplace, hdoubt⟩ := h hinserted
    exact ⟨_, by rw [hplace, addedTokens, if_pos hdoubt]⟩
  · exact ⟨[], rfl⟩

/-- What is added holds no marker when the style rules hold none. -/
lemma not_holds_addedTokens (hcss : ∀ kind, ¬ (s.grammar.rule kind).Holds s.sheet.css.toList) {place : Option Context}
    {added : List Token} (h : addedTokens s.sheet place = .ok added) :
    ∀ t ∈ dataTexts added, ∀ kind, ¬ (s.grammar.rule kind).Holds t := by
  cases place with
  | none =>
    obtain rfl := Except.ok.inj h
    simp [dataTexts]
  | some c =>
    rw [addedTokens] at h
    split at h
    · obtain rfl := Except.ok.inj h
      intro t ht
      rw [blockTokens] at ht
      split at ht
      · cases ht
      · obtain rfl := List.mem_singleton.1 ht
        exact hcss
    · cases h

/-- **What the second conversion reports of the style rules**: what the first one did, unless it added them. It
succeeds and does not ask for them exactly when they have a place. -/
lemma styles_process_converted (h : process s html = .ok out) (htokens : read .conversion html = .ok tokens)
    (hg : Orderly s.grammar {} tokens) {again : Converted} (hagain : process s out.html = .ok again) :
    (again.styles = if (out.place? tokens).isSome then .alreadyPresent else out.styles) ∧
      (again.styles ≠ .inserted ↔ out.Placed tokens) := by
  rw [process_converted h htokens hg] at hagain
  obtain ⟨added, hadded, rfl⟩ := exists_of_map_eq_ok hagain
  obtain ⟨hkept, hblock⟩ := injection_rewritten (l := s.layout) s {} {} htokens hg
  cases hplace : out.place? tokens with
  | none =>
    rw [hplace] at hadded
    obtain rfl := Except.ok.inj hadded
    have hsame := hkept.trans (congrArg Converted.styles (eq_ofTokens_of_process h htokens hg)).symm
    refine ⟨hsame, ?_⟩
    rw [Converted.place?] at hplace
    show injection _ _ _ ≠ _ ↔ _
    rw [hsame]
    refine ⟨fun hnot hinserted => absurd hinserted hnot, fun hplaced hinserted => ?_⟩
    obtain ⟨c, hc, -⟩ := hplaced hinserted
    rw [if_pos hinserted, hc] at hplace
    cases hplace
  | some c =>
    rw [hplace, addedTokens] at hadded
    split at hadded
    · next hdoubt =>
      obtain rfl := Except.ok.inj hadded
      rw [Converted.place?] at hplace
      split at hplace
      · have hpresent := hblock c.vocabulary (by
          obtain ⟨x, hsplit, -⟩ := Option.map_eq_some_iff.1 hplace
          rw [hsplit]
          rfl)
        refine ⟨hpresent, iff_of_true ?_ fun _ => ⟨c, hplace, hdoubt⟩⟩
        show injection _ _ _ ≠ _
        rw [hpresent]
        decide
      · cases hplace
    · cases hadded

end Again

end MarkedMath.Html
