import MarkedMath.Proofs.Escaping
import MarkedMath.Proofs.Numbering
import MarkedMath.Proofs.SecondPass

/-!
# A pass and the markup of the body

A pass cuts the texts of a document and puts nodes in their places, and markup escapes what the nodes hold. A
text of markup can also be cut itself, escaped as it is, and be put together again with tags that are written
out. Both come to the same (`Session.pass_serialized`): with the tokens that are set when nothing else is,
the markup of the body after a pass is the markup before it in which every text that the pass looks at was
converted in its escaped form, all with one count. Only the style rules come on top when the head stands below
the body.
-/

namespace MarkedMath

/-- A forest as markup in which the texts outside skipped elements are converted in their escaped form, one
after the other, numbered on from `counts`; and the counts reached. -/
def Forest.writeConverted (g : Grammar) (l : Layout) : Forest → Counts → Text × Counts
  | nil, counts => ([], counts)
  | node _ data children next, counts =>
    let (first, counts) :=
      match data with
      | .text t => g.convert l counts (escapeText t)
      | .comment t => ("<!--".toList ++ t ++ "-->".toList, counts)
      | .element tag attributes =>
        if isLoneTag Document.markupStyle tag children then
          (startTag Document.markupStyle tag attributes, counts)
        else
          let (inner, counts) :=
            if skippedTags.contains tag then
              (children.write Document.markupStyle (Document.markupStyle.rawTags.contains tag), counts)
            else children.writeConverted g l counts
          (startTag Document.markupStyle tag attributes ++ inner ++ endTag tag, counts)
    let (rest, counts) := next.writeConverted g l counts
    (first ++ rest, counts)

/-! ## Equations as they are written -/

/-- A text that is written as it is inside an attribute. -/
def Text.Plain (t : Text) : Prop :=
  t.flatMap escapeQuoted = t

lemma Text.plain_of_forall {t : Text} (h : ∀ c ∈ t, escapeQuoted c = [c]) : t.Plain := by
  rw [Plain, List.flatMap_congr h, List.flatMap_singleton']

lemma escapeQuoted_of_isNameChar {c : Char} (h : isNameChar c = true) : escapeQuoted c = [c] := by
  rw [escapeQuoted, if_neg, escapeMarkup_of_ne]
  all_goals
    rintro rfl
    exact absurd h (by decide)

lemma Text.plain_of_isNameChar {t : Text} (h : ∀ c ∈ t, isNameChar c = true) : t.Plain :=
  plain_of_forall fun c hc => escapeQuoted_of_isNameChar (h c hc)

lemma isNameChar_of_mem_name (kind : Kind) : ∀ c ∈ kind.name.toList, isNameChar c = true := by
  rw [← List.all_eq_true]
  cases kind <;> decide

lemma isNameChar_of_mem_id (e : Equation) : ∀ c ∈ e.id.toList, isNameChar c = true := by
  intro c hc
  rw [Equation.id, String.toList_append, String.toList_append, List.mem_append, List.mem_append] at hc
  rcases hc with (hc | hc) | hc
  · exact isNameChar_of_mem_name e.kind c hc
  · obtain rfl : c = '-' := by simpa using hc
    decide
  · have hdigit : c.isDigit = true := isDigit_of_mem_toString c hc
    simp [isNameChar, Char.isAlphanum, hdigit]

section Written

variable {g : Grammar} {l : Layout}

/-- The element of an equation is written as its markup, with the payload escaped. -/
lemma write_equation (hl : ∀ kind, isPlainName (l.className kind) = true) (fresh : NodeId) (e : Equation)
    (n : Forest) :
    (Forest.node fresh (l.equationData e) (.leaf (fresh + 1) (.text e.content)) n).write
        Document.markupStyle false =
      l.toHtml { e with content := escapeText e.content } ++ n.write Document.markupStyle false := by
  obtain ⟨kind, number, content⟩ := e
  have hclass := Text.plain_of_isNameChar (isNameChar_of_isPlainName (hl kind))
  have hname := Text.plain_of_isNameChar (isNameChar_of_mem_name kind)
  have hid := Text.plain_of_isNameChar (isNameChar_of_mem_id ⟨kind, number, content⟩)
  have hdata : l.equationData ⟨kind, number, content⟩ = .element kind.tag
      [("class", (l.className kind).toList), ("data-equation-kind", kind.name.toList),
        ("data-equation-id", (Equation.id ⟨kind, number, content⟩).toList)] := by
    have htag : lowerName kind.tag = kind.tag := by cases kind <;> decide
    simp [Layout.equationData, Layout.attributes, NodeData.setAttribute, htag]
  have hvoid : voidTags.contains kind.tag = false := by
    cases kind <;> decide
  have hraw : Document.markupStyle.rawTags.contains kind.tag = false := by
    cases kind <;> decide
  rw [Text.Plain] at hclass hname hid
  rw [hdata]
  simp only [Forest.write, Forest.isLoneTag, hvoid, hraw, Bool.false_and, Bool.false_eq_true, if_false]
  have hchar : Document.markupStyle.attributeChar = escapeQuoted := rfl
  have hcontent : (Forest.leaf (fresh + 1) (.text content)).write Document.markupStyle false =
      escapeText content := List.append_nil _
  have hsame : Equation.id ⟨kind, number, escapeText content⟩ = Equation.id ⟨kind, number, content⟩ := rfl
  simp [Forest.startTag, Forest.endTag, hchar, hclass, hname, hid, hcontent, hsame, Layout.toHtml,
    Layout.attributes, Layout.writtenAttribute]

/-- New nodes are written as the escaped segments. -/
lemma write_buildAll (hl : ∀ kind, isPlainName (l.className kind) = true) (fresh : NodeId)
    (segments : List Segment) :
    (NodeSpec.buildAll fresh (segments.map l.nodeSpec)).1.write Document.markupStyle false =
      l.render (segments.map Segment.escape) := by
  induction segments generalizing fresh with
  | nil => rfl
  | cons segment segments ih =>
    rw [List.map_cons, List.map_cons, Layout.render, List.flatMap_cons]
    cases segment with
    | text t =>
      rw [Layout.nodeSpec, buildAll_text, Forest.write_text, ih]
      rfl
    | equation e =>
      rw [buildAll_equation, write_equation hl, ih]
      rfl

/-! ## Texts in turn -/

variable {refuse : NodeId → Text → Option HostError} {base : NodeId} {σ : NodeId → Option Forest}

/-- Texts one after the other are converted one after the other. -/
lemma Converts.of_append {counts final : Counts} {texts texts' : List (NodeId × Text)}
    (h : Converts g l refuse base σ counts (texts ++ texts') final) :
    ∃ mid, Converts g l refuse base σ counts texts mid ∧ Converts g l refuse base σ mid texts' final := by
  induction texts generalizing counts with
  | nil => exact ⟨counts, .nil counts, h⟩
  | cons p texts ih =>
    cases h with
    | kept hσ hreason hrest =>
      obtain ⟨mid, hmid, hfinal⟩ := ih hrest
      exact ⟨mid, .kept hσ hreason hmid, hfinal⟩
    | replaced hσ hfree hholds hnumber hbase hrest =>
      obtain ⟨mid, hmid, hfinal⟩ := ih hrest
      exact ⟨mid, .replaced hσ hfree hholds hnumber hbase hmid, hfinal⟩

lemma Converts.eq_of_nil {counts final : Counts} (h : Converts g l refuse base σ counts [] final) :
    final = counts := by
  cases h
  rfl

/-- What becomes of a single text. -/
lemma Converts.write_text (hg : g.Inert) (hl : ∀ kind, isPlainName (l.className kind) = true)
    {counts final : Counts} {id : NodeId} {t : Text} (h : Converts g l (fun _ _ => none) base σ counts [(id, t)] final)
    (n : Forest) :
    ((Forest.node id (.text t) .nil n).substitute σ).write Document.markupStyle false =
        (g.convert l counts (escapeText t)).1 ++ (n.substitute σ).write Document.markupStyle false ∧
      final = (g.convert l counts (escapeText t)).2 := by
  rw [Grammar.convert_escapeText hg]
  cases h with
  | kept hσ hreason hrest =>
    have hnone : g.segment? counts t = none := g.segment?_eq_none_iff.2 (hreason.resolve_left (by simp))
    rw [hnone, Forest.substitute_of_none hσ]
    exact ⟨rfl, hrest.eq_of_nil⟩
  | replaced hσ hfree hholds hnumber hbase hrest =>
    have hsome := g.segment?_eq_some_iff.2 ⟨hholds, hnumber⟩
    rw [hsome, Forest.substitute_of_some hσ, Forest.write_append, write_buildAll hl]
    exact ⟨rfl, hrest.eq_of_nil⟩

/-- New nodes take the place of a text, not none. -/
lemma Converts.isEmpty_eq_false {counts final : Counts} {texts : List (NodeId × Text)}
    (h : Converts g l refuse base σ counts texts final) {id : NodeId} (hmem : id ∈ texts.map Prod.fst)
    {new : Forest} (hσ : σ id = some new) : new.isEmpty = false := by
  induction h with
  | nil => cases hmem
  | kept hnone _ _ ih =>
    rcases List.mem_cons.1 hmem with rfl | hmem
    · simp [hnone] at hσ
    · exact ih hmem
  | replaced hsome _ hholds hnumber _ _ ih =>
    rcases List.mem_cons.1 hmem with rfl | hmem
    · obtain rfl := Option.some_inj.1 (hsome.symm.trans hσ)
      obtain ⟨p, hp, -⟩ := List.any_eq_true.1 (g.any_marker_iff.2 hholds)
      rw [← Segment.map_piece_of_number hnumber] at hp
      obtain ⟨segment, hsegment, -⟩ := List.mem_map.1 hp
      obtain ⟨first, rest, rfl⟩ := List.exists_cons_of_ne_nil (List.ne_nil_of_mem hsegment)
      cases first <;> rfl
    · exact ih hmem

lemma Forest.isEmpty_substitute {f : Forest} (h : ∀ i ∈ f.ids, ∀ new, σ i = some new → new.isEmpty = false) :
    (f.substitute σ).isEmpty = f.isEmpty := by
  cases f with
  | nil => rfl
  | node i d c n =>
    cases hi : σ i with
    | none =>
      rw [substitute_of_none hi]
      rfl
    | some new =>
      have hnew := h i (by simp [ids]) new hi
      rw [substitute_of_some hi]
      cases new with
      | nil => cases hnew
      | node => rfl

/-- The texts that are written as they are stand in skipped elements. -/
lemma isRaw_of_not_isSkipped {tag : String} (h : skippedTags.contains tag = false) :
    Document.markupStyle.rawTags.contains tag = false := by
  refine Bool.eq_false_iff.2 fun hraw => ?_
  have hin : tag ∈ Document.markupStyle.rawTags := List.contains_iff_mem.1 hraw
  have hnot : tag ∉ skippedTags := fun hmem =>
    Bool.false_ne_true (h.symm.trans (List.contains_iff_mem.2 hmem))
  exact hnot (List.mem_of_mem_take (i := 2) hin)

/-- A forest with new nodes in the places of its texts is written as the forest whose texts are converted in
their escaped form. -/
lemma Converts.write_substitute (hg : g.Inert) (hl : ∀ kind, isPlainName (l.className kind) = true)
    {f : Forest} {counts final : Counts} (hnodup : f.ids.Nodup) (hproper : f.Proper) (hplaces : f.Places base σ)
    (h : Converts g l (fun _ _ => none) base σ counts (f.textsOutside Forest.isSkipped) final)
    (hothers : ∀ i ∈ f.ids, i ∉ (f.textsOutside Forest.isSkipped).map Prod.fst → σ i = none) :
    ((f.substitute σ).write Document.markupStyle false, final) = f.writeConverted g l counts := by
  induction f generalizing counts final with
  | nil =>
    rw [h.eq_of_nil]
    rfl
  | node id d c n ihc ihn =>
    obtain ⟨hidc, hidn, hcn, hnn, hdisj⟩ := Forest.nodup_ids_node hnodup
    obtain ⟨mid, hfirst, hrest⟩ := Converts.of_append h
    have hnext := ihn hnn hproper.2.2 (hplaces.mono fun e he => by simp [Forest.entries, he]) hrest
      fun i hi hnot => hothers i (by simp [Forest.ids, hi]) fun hmem =>
        hnot (Forest.mem_texts_next hnodup hi hmem)
    cases d with
    | text t =>
      obtain rfl := (Forest.Has.here n).eq_nil_of_text hproper
      have htext : Converts g l (fun _ _ => none) base σ counts [(id, t)] mid := hfirst
      obtain ⟨hwrite, hmid⟩ := htext.write_text hg hl n
      rw [hwrite, Forest.writeConverted]
      simp only [← hmid, ← hnext]
    | comment t =>
      obtain rfl := hproper.1.resolve_left (by simp [NodeData.isElement, NodeData.tag?])
      have hmid : mid = counts := hfirst.eq_of_nil
      have hid : σ id = none := hplaces.eq_none (d := .comment t) (by simp [Forest.entries]) rfl
      subst hmid
      rw [Forest.substitute_of_none hid, Forest.writeConverted]
      simp only [← hnext]
      rfl
    | element tag attributes =>
      have hid : σ id = none := hplaces.eq_none (d := .element tag attributes) (by simp [Forest.entries]) rfl
      rw [Forest.substitute_of_none hid, Forest.writeConverted]
      have hskip : Forest.isSkipped id (.element tag attributes) = skippedTags.contains tag := rfl
      cases hskipped : skippedTags.contains tag with
      | true =>
        -- nothing below a skipped element is replaced
        have hmid : mid = counts := by
          rw [hskip, hskipped] at hfirst
          exact hfirst.eq_of_nil
        have hsame : c.substitute σ = c := by
          refine Forest.substitute_none fun i hi => hothers i (by simp [Forest.ids, hi]) fun hmem => ?_
          have hshown := (Forest.mem_texts_children hnodup hi hmem).1
          rw [hskip, hskipped] at hshown
          cases hshown
        subst hmid
        simp only [hsame, Forest.write, if_true]
        split <;> simp only [← hnext]
      | false =>
        have htexts : ∀ i ∈ c.ids, i ∉ (c.textsOutside Forest.isSkipped).map Prod.fst → σ i = none :=
          fun i hi hnot => hothers i (by simp [Forest.ids, hi]) fun hmem =>
            hnot (Forest.mem_texts_children hnodup hi hmem).2
        have hbelow : Converts g l (fun _ _ => none) base σ counts (c.textsOutside Forest.isSkipped) mid := by
          rw [hskip, hskipped] at hfirst
          exact hfirst
        have hinner := ihc hcn hproper.2.1 (hplaces.mono fun e he => by simp [Forest.entries, he]) hbelow htexts
        have hempty : (c.substitute σ).isEmpty = c.isEmpty := by
          refine Forest.isEmpty_substitute fun i hi new hnew => hbelow.isEmpty_eq_false ?_ hnew
          by_contra hnot
          rw [htexts i hi hnot] at hnew
          cases hnew
        have hraw := isRaw_of_not_isSkipped hskipped
        have hlone : Forest.isLoneTag Document.markupStyle tag (c.substitute σ) =
            Forest.isLoneTag Document.markupStyle tag c := by
          rw [Forest.isLoneTag, Forest.isLoneTag, hempty]
        rw [Forest.write, hlone, hraw]
        cases hl : Forest.isLoneTag Document.markupStyle tag c with
        | true =>
          -- an element without an end tag has no children
          obtain rfl : c = .nil := by
            cases c with
            | nil => rfl
            | node => simp [Forest.isLoneTag, Document.markupStyle, Forest.isEmpty] at hl
          obtain rfl := hbelow.eq_of_nil
          simp only [← hnext, if_true]
        | false => simp only [← hnext, ← hinner, Bool.false_eq_true, if_false]

end Written

/-! ## The style rules below the body -/

namespace Forest

variable {f new new' : Forest} {id : NodeId} {σ : NodeId → Option Forest}

lemma substitute_append (f g : Forest) : (f ++ g).substitute σ = f.substitute σ ++ g.substitute σ := by
  induction f with
  | nil => rfl
  | node i d c n _ ih =>
    rw [node_append]
    cases hi : σ i with
    | none => rw [substitute_of_none hi, substitute_of_none hi, ih, node_append]
    | some m => rw [substitute_of_some hi, substitute_of_some hi, ih, append_assoc]

/-- What is put behind the children of an old node and what is put in the places of others do not meet. -/
lemma substitute_appendTo (hid : σ id = none) (hσ : ∀ i m, σ i = some m → id ∉ m.ids)
    (hnew : ∀ i ∈ new.ids, σ i = none) :
    (f.substitute σ).appendTo id new = (f.appendTo id new).substitute σ := by
  induction f with
  | nil => rfl
  | node i d c n ihc ihn =>
    cases hi : σ i with
    | some m =>
      have hne : i ≠ id := by
        rintro rfl
        rw [hid] at hi
        cases hi
      rw [substitute_of_some hi, appendTo_eq_atNode, atNode_append_of_not_mem (hσ i m hi), ← appendTo_eq_atNode,
        ihn, appendTo, if_neg hne, substitute_of_some hi]
    | none =>
      rw [substitute_of_none hi, appendTo, appendTo, ihc, ihn]
      split
      · rw [substitute_of_none hi, substitute_append, substitute_none hnew]
      · rw [substitute_of_none hi]

/-- The numbers of new nodes do not show in markup. -/
lemma write_appendTo_congr {style : MarkupStyle} (hempty : new.isEmpty = new'.isEmpty)
    (hwrite : ∀ raw, new.write style raw = new'.write style raw) (f : Forest) (id : NodeId) (raw : Bool) :
    (f.appendTo id new).write style raw = (f.appendTo id new').write style raw := by
  have hisEmpty : ∀ f : Forest, (f.appendTo id new).isEmpty = (f.appendTo id new').isEmpty := by
    intro f
    cases f with
    | nil => rfl
    | node i d c n =>
      simp only [appendTo]
      split <;> rfl
  have hbehind : ∀ c : Forest, (c ++ new).isEmpty = (c ++ new').isEmpty := by
    intro c
    cases c with
    | nil => exact hempty
    | node => rfl
  induction f generalizing raw with
  | nil => rfl
  | node i d c n ihc ihn =>
    simp only [appendTo]
    split
    · cases d with
      | element tag attributes => rw [write, write, isLoneTag, isLoneTag, hbehind, write_append, write_append, hwrite]
      | _ => rfl
    · cases d with
      | element tag attributes => rw [write, write, isLoneTag, isLoneTag, hisEmpty, ihc, ihn]
      | _ => simp only [write, ihn]

/-- New trees with new numbers may be put behind the children of a node. -/
lemma nodup_appendTo (hf : f.ids.Nodup) (hnew : new.ids.Nodup) (hdisj : ∀ i ∈ f.ids, i ∉ new.ids)
    (id : NodeId) : (f.appendTo id new).ids.Nodup := by
  by_cases hin : id ∈ f.ids
  · obtain ⟨d, c, hhas⟩ := exists_has_of_mem_ids hin
    have hperm := (hhas.perm_appendTo hf new).map Prod.fst
    rw [List.map_append, ← ids_eq_map, ← ids_eq_map, ← ids_eq_map] at hperm
    exact hperm.nodup_iff.2 (List.nodup_append'.2 ⟨hf, hnew, fun i hi hi' => hdisj i hi hi'⟩)
  · rwa [appendTo_of_not_mem hin]

lemma entries_appendTo_subset (hf : f.ids.Nodup) (id : NodeId) (new : Forest) :
    (f.appendTo id new).entries ⊆ f.entries ++ new.entries := by
  by_cases hin : id ∈ f.ids
  · obtain ⟨d, c, hhas⟩ := exists_has_of_mem_ids hin
    exact (hhas.perm_appendTo hf new).subset
  · rw [appendTo_of_not_mem hin]
    exact List.subset_append_left _ _

end Forest

section Styled

variable {g : Grammar} {l : Layout} {base : NodeId} {σ : NodeId → Option Forest}

/-- Style rules may be put below the body before the texts are converted or after it. -/
lemma Converts.write_styled (hg : g.Inert) (hl : ∀ kind, isPlainName (l.className kind) = true) {f : Forest}
    {counts final : Counts} (hnodup : f.ids.Nodup) (hproper : f.Proper) (hplaces : f.Places base σ)
    (h : Converts g l (fun _ _ => none) base σ counts (f.textsOutside Forest.isSkipped) final)
    (hothers : ∀ i, i ∉ (f.textsOutside Forest.isSkipped).map Prod.fst → σ i = none)
    (hold : ∀ i ∈ f.ids, i < base) (hhead : Document.head < base)
    (helement : ∀ d, (Document.head, d) ∈ f.entries → d.isElement = true) (fresh : NodeId) (id css : String) :
    (((f.substitute σ).appendTo Document.head (Document.styleTree fresh id css)).write
        Document.markupStyle false, final) =
      (f.appendTo Document.head (Document.styleTree base id css)).writeConverted g l counts := by
  obtain ⟨new, hnew⟩ : ∃ new, new = Document.styleTree base id css := ⟨_, rfl⟩
  have hids : ∀ i ∈ new.ids, base ≤ i := by
    rw [hnew]
    simp [Document.styleTree, Forest.leaf, Forest.ids]
  have hdisj : ∀ i ∈ f.ids, i ∉ new.ids := fun i hi hi' => absurd (hold i hi) (Nat.not_lt.2 (hids i hi'))
  have htexts : (f.appendTo Document.head new).textsOutside Forest.isSkipped =
      f.textsOutside Forest.isSkipped := by
    refine Forest.textsOutside_appendTo ?_ f Document.head
    rw [hnew]
    exact Document.textsOutside_styleTree (fun _ _ h => h) _ _ _
  -- neither the head nor a new node is a text
  have hheadKept : σ Document.head = none := hothers _ fun hi => by
    obtain ⟨⟨i, t⟩, hit, rfl⟩ := List.mem_map.1 hi
    cases helement _ (Forest.mem_entries_of_mem_textsOutside hit)
  have hnewKept : ∀ i ∈ new.ids, σ i = none := fun i hi => hothers i fun hmem =>
    hdisj i ((Forest.textsOutside_sublist _).subset hmem) hi
  have hapart : ∀ i m, σ i = some m → Document.head ∉ m.ids := fun i m hm hmem =>
    absurd (hplaces.fresh i m hm _ hmem) (Nat.not_le.2 hhead)
  have hwrite : ((f.substitute σ).appendTo Document.head (Document.styleTree fresh id css)).write
      Document.markupStyle false = ((f.substitute σ).appendTo Document.head new).write Document.markupStyle false := by
    refine Forest.write_appendTo_congr ?_ (fun raw => ?_) _ _ _
    · rw [hnew]
      rfl
    · rw [hnew]
      rfl
  rw [hwrite, ← hnew, Forest.substitute_appendTo hheadKept hapart hnewKept]
  refine Converts.write_substitute hg hl (Forest.nodup_appendTo hnodup ?_ hdisj _)
    (hproper.appendTo ?_ helement) ⟨?_, hplaces.fresh⟩ ?_ ?_
  · rw [hnew]
    simp [Document.styleTree, Forest.leaf, Forest.ids]
  · rw [hnew]
    exact ⟨Or.inl rfl, ⟨Or.inr rfl, trivial, trivial⟩, trivial⟩
  · intro i d hd hsome
    rcases List.mem_append.1 (Forest.entries_appendTo_subset hnodup _ _ hd) with hd | hd
    · exact hplaces.text i d hd hsome
    · rw [hnewKept i (Forest.mem_ids_of_mem_entries hd)] at hsome
      cases hsome
  · rwa [htexts]
  · intro i _ hi
    exact hothers i (by rwa [htexts] at hi)

end Styled

namespace Document

/-- The children of the body, with the style rules of a sheet where these are to come below the body. -/
def styledBody (d : Document) (sheet : Sheet) : Forest :=
  let children := d.forest.childrenOf body
  if d.hasStyle sheet.id then children
  else children.appendTo head (styleTree d.fresh sheet.id sheet.css)

end Document

namespace Session

variable {s : Session} {e : Engine}

/-- The children of a normal body after a pass that is refused nothing: those with new nodes in the places of
texts, and with the style rules behind the children of the head where they were missing. -/
lemma pass_body (index : Nat) (hr : e.refusals = {}) (h : s.document.WellFormed) {data : NodeData}
    {children : Forest} (hbody : Forest.Has Document.body data children s.document.forest)
    (hnormal : children.Normal) :
    ∃ σ fresh, children.Places s.document.fresh σ ∧
      Converts e.settings.grammar e.settings.layout (fun _ _ => none) s.document.fresh σ {}
        (children.textsOutside Forest.isSkipped) (s.pass index e).1.counts ∧
      (∀ i, i ∉ (children.textsOutside Forest.isSkipped).map Prod.fst → σ i = none) ∧
      Forest.Has Document.body data
        (if s.document.hasStyle e.settings.styleId then children.substitute σ
          else (children.substitute σ).appendTo Document.head
            (Document.styleTree fresh e.settings.sheet.id e.settings.sheet.css))
        (s.pass index e).2.document.forest := by
  obtain ⟨headAttributes, headChildren, hhead⟩ := h.exists_has_head
  have hlocked : e.refusals.locked = none := by rw [hr]
  have hstyle : e.refusals.style = none := by rw [hr]
  have hfree : lockedBy e.refusals = fun _ _ => none := by
    rw [hr]
    rfl
  obtain ⟨σ, hplaces, -, hbody', hconverts, hothers⟩ := convertDocument_refusing (lockedBy e.refusals) e.refusals
    e.settings.grammar e.settings.layout h hbody
  rw [← host_eq_refusing] at hbody' hconverts
  rw [Forest.normalize_of_normal (hbody.proper h.proper).2 hnormal] at hplaces hbody' hconverts hothers
  rw [hfree] at hconverts
  obtain ⟨converted, hconverted⟩ : ∃ converted,
    converted = convertDocument (host e.refusals) e.settings.grammar e.settings.layout s := ⟨_, rfl⟩
  have hwell : converted.2.document.WellFormed := by
    rw [hconverted]
    exact (convertDocument_keeps (host_keeps e.refusals s) _ _ (Follows.refl h)).document.wellFormed
  -- the conversion does not decide whether the rules are missing
  have hsame : converted.2.document.hasStyle e.settings.styleId = s.document.hasStyle e.settings.styleId := by
    obtain ⟨-, -, -, -, -, hkept⟩ := convertDocument_spec (g := e.settings.grammar) hlocked
      (Document.spares_styleRelevant e.settings.layout e.settings.styleId (h.lt_fresh _ hhead.mem_ids))
      (Layout.shows_isSkipped _ _) h hbody
    exact Document.hasStyle_of_keeps h hwell (hconverted ▸ hkept)
  have hforest := pass_forest index e s
  rw [← hconverted] at hbody' hforest
  rw [ensure_forest _ hstyle hwell] at hforest
  refine ⟨σ, converted.2.document.fresh, hplaces, hconverts, hothers, ?_⟩
  rw [hforest, ← hsame]
  have hne : Document.body ≠ Document.head := by decide
  show Forest.Has _ _ (if converted.2.document.hasStyle e.settings.sheet.id then _ else _) _
  split
  · exact hbody'
  · exact hbody'.appendTo hwell.nodup hne _

/-- A pass on a normal body, from any well-formed document. -/
lemma pass_writeConverted (index : Nat) (hr : e.refusals = {}) (htokens : e.settings.tokens = {})
    (h : s.document.WellFormed) (hnormal : (s.document.forest.childrenOf Document.body).Normal) :
    ((s.pass index e).2.document.innerMarkup Document.body, (s.pass index e).1.counts) =
      (s.document.styledBody e.settings.sheet).writeConverted e.settings.grammar e.settings.layout {} := by
  obtain ⟨attributes, children, hbody⟩ := h.exists_has_body
  rw [hbody.childrenOf h.nodup] at hnormal
  obtain ⟨σ, fresh, hplaces, hconverts, hothers, hbody'⟩ := pass_body index hr h hbody hnormal
  have hnodup := (hbody.nodup h.nodup).2
  have hproper := (hbody.proper h.proper).2
  have hg := e.settings.grammar.inert_of_tokens htokens
  have hl := e.settings.isPlainName_className
  rw [Document.innerMarkup, Forest.innerMarkup, hbody'.find? (follows_pass h index e).document.wellFormed.nodup,
    Document.styledBody, hbody.childrenOf h.nodup]
  show ((if s.document.hasStyle e.settings.styleId then _ else _ : Forest).write Document.markupStyle false, _) =
    (if s.document.hasStyle e.settings.styleId then _ else _ : Forest).writeConverted _ _ _
  split
  · exact hconverts.write_substitute hg hl hnodup hproper hplaces fun i _ hi => hothers i hi
  · obtain ⟨headAttributes, headChildren, hhead⟩ := h.exists_has_head
    refine hconverts.write_styled hg hl hnodup hproper hplaces (fun i hi => hothers i hi)
      (fun i hi => h.lt_fresh i (hbody.ids_subset hi)) (h.lt_fresh _ hhead.mem_ids) (fun d hd => ?_) _ _ _
    rw [Forest.entry_unique h.nodup (hbody.entries_subset hd) hhead.mem_entries]
    rfl

/-- **A pass and the markup of the body.** After any run, a pass of an engine with the standard tokens that is
refused nothing leaves as the markup of a normal body what comes out when every text that is looked at is
converted in its escaped form as the markup is written, and counts the same equations. Where the head stands
below the body and the style rules are missing, they are written as well. -/
theorem pass_serialized (loading : Bool) (commands : List Command) (index : Nat) (e : Engine)
    (hr : e.refusals = {}) (htokens : e.settings.tokens = {})
    (hnormal : ((run loading commands).document.forest.childrenOf Document.body).Normal) :
    let s := run loading commands
    ((s.pass index e).2.document.innerMarkup Document.body, (s.pass index e).1.counts) =
      (s.document.styledBody e.settings.sheet).writeConverted e.settings.grammar e.settings.layout {} :=
  pass_writeConverted index hr htokens (sound_run loading commands).wellFormed hnormal

/-- A marker whose payload holds a character that is escaped. -/
def comparison : Text :=
  "MATHSTARTINLINE\\(x<y\\)MATHENDINLINE".toList

lemma convert_comparison :
    CheckedSettings.standard.grammar.convert CheckedSettings.standard.layout {} (escapeText comparison) =
      (("<span class=\"inlineMath\" data-equation-kind=\"inline\" data-equation-id=\"inline-1\">" ++
        "\\(x&lt;y\\)</span>").toList, ⟨1, 0⟩) := by
  have hfind : (CheckedSettings.standard.grammar.rule .inline).find? (escapeText comparison) =
      some ⟨[], "\\(x&lt;y\\)".toList, []⟩ := by decide
  have hpieces : CheckedSettings.standard.grammar.pieces (escapeText comparison) =
      [.marker .inline "\\(x&lt;y\\)".toList] := by
    rw [Grammar.pieces, Rule.pieces_of_some hfind, Rule.pieces_of_none rfl]
    rfl
  rw [Grammar.convert, Grammar.segment?, Grammar.scan, hpieces]
  rfl

/-- The payload is escaped once. -/
theorem pass_serialized_comparison :
    let s := run false [.build .standard {} [], .appendText Document.body comparison]
    ∃ e, s.engine? 0 = some e ∧ e.refusals = {} ∧ e.settings.tokens = {} ∧
      (s.document.forest.childrenOf Document.body).Normal ∧
      (s.pass 0 e).2.document.innerMarkup Document.body =
        ("<span class=\"inlineMath\" data-equation-kind=\"inline\" data-equation-id=\"inline-1\">" ++
          "\\(x&lt;y\\)</span>").toList := by
  have hnormal : ((run false [.build .standard {} [],
      .appendText Document.body comparison]).document.forest.childrenOf Document.body).Normal :=
    ⟨rfl, by decide, trivial⟩
  obtain ⟨e, he, hr, hsettings⟩ : ∃ e, (run false [.build .standard {} [],
      .appendText Document.body comparison]).engine? 0 = some e ∧ e.refusals = {} ∧ e.settings = .standard :=
    ⟨_, rfl, rfl, rfl⟩
  have htokens : e.settings.tokens = {} := by
    rw [hsettings]
    rfl
  refine ⟨e, he, hr, htokens, hnormal, ?_⟩
  have hwritten := pass_serialized false [.build .standard {} [], .appendText Document.body comparison] 0 e hr
    htokens hnormal
  have hbody : (run false [.build .standard {} [], .appendText Document.body comparison]).document.styledBody
      CheckedSettings.standard.sheet = .leaf 3 (.text comparison) := rfl
  dsimp only at hwritten
  rw [hsettings, hbody, Forest.leaf, Forest.writeConverted] at hwritten
  simp only [convert_comparison] at hwritten
  exact congrArg Prod.fst hwritten

/-- Where the head stands below the body, a pass writes the style rules there. -/
theorem styles_written_below_body :
    let s := run false [.build .standard {} [], .append Document.body Document.head]
    ∃ e, s.engine? 0 = some e ∧ e.refusals = {} ∧ e.settings.tokens = {} ∧
      (s.document.forest.childrenOf Document.body).Normal ∧
      ((s.pass 0 e).2.document.innerMarkup Document.body, (s.pass 0 e).1.counts) ≠
        (s.document.forest.childrenOf Document.body).writeConverted e.settings.grammar e.settings.layout {} := by
  exact ⟨_, rfl, rfl, rfl, ⟨trivial, trivial⟩, by decide +kernel⟩

end Session

end MarkedMath
