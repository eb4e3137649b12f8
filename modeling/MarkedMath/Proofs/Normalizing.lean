import MarkedMath.Proofs.Arena.Reached
import MarkedMath.Proofs.Refusals
import MarkedMath.Proofs.Tree.Rows

/-!
# Normalizing documents

What becomes of a document when its body is normalized is said by `Document.Normalized`: which texts are left
and with which data, what stays as it is, and that nothing is left to be done. It holds in every run
(`Session.normalized_run`), and of the slots that an arena is left with as well.

A pass normalizes the body before it looks at the texts. What it then puts in the place of a text are the
pieces of this text, none of which is empty and no two of which are neighbouring texts
(`Grammar.apart_pieces`). So the body is normal behind every pass, whatever texts are refused:
`Session.refusingPass_normal`.
-/

namespace MarkedMath

open Forest (Has)

namespace Document

/-- The children of a node in order, each with what it is. -/
def siblings (d : Document) (p : NodeId) : List (NodeId × NodeData) :=
  (d.forest.childrenOf p).row

/-- What normalizing the body of `d` leads to. -/
structure Normalized (d d' : Document) : Prop where
  /-- Below the body no text is empty, and no two texts are neighbours. -/
  normal : (d'.forest.childrenOf body).Normal
  /-- All but texts have the text that they had. -/
  textContent_eq : ∀ i, (d.data? i).bind NodeData.text? = none → d'.textContent i = d.textContent i
  /-- All but texts are what they were, and where they were. -/
  others : ∀ i, (d.data? i).bind NodeData.text? = none →
    d'.data? i = d.data? i ∧ d'.parent? i = d.parent? i
  /-- All but texts stand in the order in which they stood. -/
  order : ∀ p, ((d'.siblings p).filter fun e => !e.2.isText) = (d.siblings p).filter fun e => !e.2.isText
  /-- In the body and below it each run of texts is represented, and no other children change. -/
  siblings_eq : ∀ p, d'.siblings p =
    if d.forest.isWithin p body then (textRuns (d.siblings p)).flatMap represent else d.siblings p
  /-- A node that does not represent its run is taken out of its parent, and keeps its data. -/
  dropped : ∀ p, d.forest.isWithin p body = true → ∀ run ∈ textRuns (d.siblings p), ∀ e ∈ run,
    if e.1 ∈ (represent run).map Prod.fst then d'.parent? e.1 = some p
    else d'.parent? e.1 = none ∧ d'.data? e.1 = some e.2
  /-- Nothing happens to nodes that stand elsewhere. -/
  elsewhere : ∀ i, (∀ p, d.parent? i = some p → d.forest.isWithin p body = false) →
    d'.data? i = d.data? i ∧ d'.parent? i = d.parent? i
  /-- Nothing is noted for observers, and nothing else changes. -/
  unnoted : d' = { d with forest := d'.forest }
  /-- There is nothing left to be done. -/
  again : d'.normalize = d'

variable {d : Document} {data e : NodeData} {children c : Forest} {i p : NodeId} {t : Text}

/-! ## Siblings -/

lemma map_fst_siblings (d : Document) (p : NodeId) : (d.siblings p).map Prod.fst = d.children p :=
  Forest.map_fst_row _

lemma siblings_of_has (h : d.WellFormed) (hhas : Has p e c d.forest) : d.siblings p = c.row := by
  rw [siblings, hhas.childrenOf h.nodup]

lemma data?_eq_none_iff : d.data? i = none ↔ i ∉ d.forest.ids := by
  rw [data?, Forest.data?, Option.map_eq_none_iff, Forest.find?_eq_none_iff]

lemma siblings_of_tag?_eq_none (h : d.WellFormed) (hp : d.tag? p = none) : d.siblings p = [] := by
  by_contra hne
  have hchildren : d.children p ≠ [] := by
    rw [← map_fst_siblings]
    simpa using hne
  simpa [hp] using isElement_of_children h hchildren

lemma mem_siblings_iff (h : d.WellFormed) :
    (i, e) ∈ d.siblings p ↔ d.parent? i = some p ∧ d.data? i = some e := by
  have hdata : ∀ {e}, (i, e) ∈ d.siblings p → d.data? i = some e := by
    intro e hmem
    by_cases hp : p ∈ d.forest.ids
    · obtain ⟨data, c, hhas⟩ := Forest.exists_has_of_mem_ids hp
      rw [siblings_of_has h hhas] at hmem
      exact (Forest.data?_eq_some_iff h.nodup).2 (hhas.entries_subset (Forest.row_subset_entries c hmem))
    · rw [siblings, Forest.childrenOf_of_not_mem hp] at hmem
      exact absurd hmem List.not_mem_nil
  rw [← mem_children_iff h, ← map_fst_siblings]
  constructor
  · exact fun hmem => ⟨List.mem_map_of_mem (f := Prod.fst) hmem, hdata hmem⟩
  · rintro ⟨hmem, hi⟩
    obtain ⟨⟨j, e'⟩, hrow, rfl⟩ := List.mem_map.1 hmem
    obtain rfl : e' = e := Option.some.inj ((hdata hrow).symm.trans hi)
    exact hrow

/-! ## What normalizing does to a node -/

section Normalize

variable (h : d.WellFormed)
include h

/-- The nodes that are no texts are what they were. -/
lemma mem_entries_normalize_iff (he : e.text? = none) :
    (i, e) ∈ d.normalize.forest.entries ↔ (i, e) ∈ d.forest.entries := by
  obtain ⟨attributes, children, hbody⟩ := h.exists_has_body
  have hcount := List.perm_iff_count.1 (hbody.perm_setChildren h.nodup children.normalize) (i, e)
  have hother : children.normalize.entries.count (i, e) = children.entries.count (i, e) :=
    Forest.count_normalizeRun (hbody.proper h.proper).2 he
  have hdropped : (children.droppedTexts.map fun p => (p.1, NodeData.text p.2)).count (i, e) = 0 := by
    refine List.count_eq_zero.2 fun hmem => ?_
    obtain ⟨p, -, hp⟩ := List.mem_map.1 hmem
    obtain ⟨-, rfl⟩ := Prod.mk.inj hp
    cases he
  rw [← List.count_pos_iff, ← List.count_pos_iff, normalize, hbody.childrenOf h.nodup, Forest.entries_append,
    Forest.entries_leaves, List.count_append, hdropped]
  rw [List.count_append, List.count_append] at hcount
  omega

lemma data?_normalize (hi : (d.data? i).bind NodeData.text? = none) : d.normalize.data? i = d.data? i := by
  cases hdata : d.data? i with
  | none =>
    rw [data?_eq_none_iff] at hdata ⊢
    exact fun hmem => hdata ((perm_ids_normalize h).subset hmem)
  | some e =>
    have he : e.text? = none := by simpa [hdata] using hi
    rw [data?, Forest.data?_eq_some_iff (follows_normalize h).wellFormed.nodup,
      mem_entries_normalize_iff h he]
    exact (Forest.data?_eq_some_iff h.nodup).1 hdata

lemma tag?_normalize (hp : d.tag? p = none) : d.normalize.tag? p = none := by
  cases hdata : d.normalize.data? p with
  | none => rw [tag?, hdata, Option.bind_none]
  | some e =>
    rw [tag?, hdata, Option.bind_some]
    cases e with
    | element tag attributes =>
      -- it would have been the same element before
      rw [data?, Forest.data?_eq_some_iff (follows_normalize h).wellFormed.nodup,
        mem_entries_normalize_iff h rfl, ← Forest.data?_eq_some_iff h.nodup] at hdata
      rw [tag?, data?, hdata] at hp
      exact absurd hp (by simp [NodeData.tag?])
    | _ => rfl

/-- A node that does not stand below the body keeps its children, with those of the body changed. -/
lemma has_normalize_of_outside (hbody : Has body data children d.forest) (hhas : Has p e c d.forest)
    (hp : d.forest.isWithin p body = false) :
    Has p e (c.setChildren body children.normalize) d.normalize.forest := by
  rw [Bool.eq_false_iff, Ne, hbody.isWithin_iff h.nodup, not_or] at hp
  rw [normalize, hbody.childrenOf h.nodup]
  exact (hbody.setChildren h.nodup hhas hp.1 hp.2 _).append_left _

/-- What becomes of the children of a node that is no text. -/
lemma exists_has_normalize (hhas : Has p e c d.forest) (he : e.text? = none) :
    ∃ c', Has p e c' d.normalize.forest ∧ c'.textContent = c.textContent ∧
      c'.row = if d.forest.isWithin p body then (textRuns c.row).flatMap represent else c.row := by
  obtain ⟨attributes, children, hbody⟩ := h.exists_has_body
  have hafter := has_body_normalize h hbody
  cases hp : d.forest.isWithin p body with
  | true =>
    -- in the body and below it the children are normalized
    refine ⟨c.normalize, ?_, Forest.textContent_normalize c, Forest.row_normalize c⟩
    rcases (hbody.isWithin_iff h.nodup).1 hp with rfl | hbelow
    · obtain ⟨rfl, rfl⟩ := hhas.unique h.nodup hbody
      exact hafter
    · exact hafter.trans ((hbody.restrict h.nodup hhas hbelow).normalizeRun (hbody.proper h.proper).2 he)
  | false =>
    refine ⟨_, has_normalize_of_outside h hbody hhas hp, ?_, Forest.row_setChildren ..⟩
    refine Forest.textContent_setChildren fun data' c' hhas' => ?_
    rw [((hhas.trans hhas').unique h.nodup hbody).2, Forest.textContent_normalize]

lemma siblings_normalize (p : NodeId) : d.normalize.siblings p =
    if d.forest.isWithin p body then (textRuns (d.siblings p)).flatMap represent else d.siblings p := by
  have h' := (follows_normalize h).wellFormed
  cases hp : d.tag? p with
  | none =>
    rw [siblings_of_tag?_eq_none h hp, siblings_of_tag?_eq_none h' (tag?_normalize h hp)]
    exact (ite_self _).symm
  | some tag =>
    obtain ⟨e, hdata, htag⟩ := Option.bind_eq_some_iff.1 hp
    obtain ⟨c, hhas⟩ := Forest.exists_has ((Forest.data?_eq_some_iff h.nodup).1 hdata)
    have he : e.text? = none := by
      cases e with
      | element => rfl
      | _ => cases htag
    obtain ⟨c', hhas', -, hrow⟩ := exists_has_normalize h hhas he
    rw [siblings_of_has h' hhas', siblings_of_has h hhas, hrow]

lemma textContent_normalize (hi : (d.data? i).bind NodeData.text? = none) :
    d.normalize.textContent i = d.textContent i := by
  cases hdata : d.data? i with
  | none =>
    have hafter := (data?_normalize h hi).trans hdata
    rw [data?_eq_none_iff, ← Forest.find?_eq_none_iff] at hdata hafter
    simp only [textContent, Forest.tree, hdata, hafter]
  | some e =>
    have he : e.text? = none := by simpa [hdata] using hi
    obtain ⟨c, hhas⟩ := Forest.exists_has ((Forest.data?_eq_some_iff h.nodup).1 hdata)
    obtain ⟨c', hhas', hcontent, -⟩ := exists_has_normalize h hhas he
    rw [textContent, textContent, hhas.tree h.nodup, hhas'.tree (follows_normalize h).wellFormed.nodup,
      Forest.textContent_of_text?_eq_none he, Forest.textContent_of_text?_eq_none he, hcontent]

lemma order_normalize (p : NodeId) : ((d.normalize.siblings p).filter fun e => !e.2.isText) =
    (d.siblings p).filter fun e => !e.2.isText := by
  rw [siblings_normalize h]
  split
  · exact filter_flatMap_represent _
  · rfl

/-! ## Parents -/

/-- A node that has a parent behind normalizing had it before. -/
lemma parent?_of_normalize (hp : d.normalize.parent? i = some p) : d.parent? i = some p := by
  rw [← mem_children_iff (follows_normalize h).wellFormed, ← map_fst_siblings, siblings_normalize h] at hp
  rw [← mem_children_iff h, ← map_fst_siblings]
  split at hp
  · rw [List.map_flatMap, List.mem_flatMap] at hp
    obtain ⟨run, hrun, hi⟩ := hp
    rw [← flatten_textRuns (d.siblings p), List.map_flatten]
    exact List.mem_flatten.2 ⟨_, List.mem_map_of_mem hrun, map_fst_represent_subset run hi⟩
  · exact hp

lemma parent?_normalize (hi : (d.data? i).bind NodeData.text? = none) :
    d.normalize.parent? i = d.parent? i := by
  have h' := (follows_normalize h).wellFormed
  have hafter := data?_normalize h hi
  cases hdata : d.data? i with
  | none =>
    rw [hdata] at hafter
    exact (Forest.parent?_of_not_mem (data?_eq_none_iff.1 hafter)).trans
      (Forest.parent?_of_not_mem (data?_eq_none_iff.1 hdata)).symm
  | some e =>
    have he : e.isText = false := NodeData.isText_eq_false_iff.2 (by simpa [hdata] using hi)
    rw [hdata] at hafter
    refine Option.ext fun p => ?_
    -- the row of `p` holds the node before as well as after
    calc d.normalize.parent? i = some p
        ↔ (i, e) ∈ (d.normalize.siblings p).filter fun e => !e.2.isText := by
          simp [mem_siblings_iff h', hafter, he]
      _ ↔ (i, e) ∈ (d.siblings p).filter fun e => !e.2.isText := by rw [order_normalize h]
      _ ↔ d.parent? i = some p := by simp [mem_siblings_iff h, hdata, he]

/-- A node in the body or below it that is left without a parent is a dropped text. -/
lemma data?_of_parent?_normalize (hin : d.forest.isWithin p body = true) (hp : d.parent? i = some p)
    (hdata : d.data? i = some (.text t)) (hnone : d.normalize.parent? i = none) :
    d.normalize.data? i = some (.text t) := by
  obtain ⟨attributes, children, hbody⟩ := h.exists_has_body
  have h' := (follows_normalize h).wellFormed
  obtain ⟨pdata, c, hhas, hi⟩ := Forest.has_of_parent? hp
  have hbelow : i ∈ children.ids := by
    rcases (hbody.isWithin_iff h.nodup).1 hin with rfl | hbelow
    · obtain ⟨rfl, rfl⟩ := hhas.unique h.nodup hbody
      exact Forest.roots_subset _ hi
    · exact (hbody.restrict h.nodup hhas hbelow).ids_subset (Forest.roots_subset _ hi)
  have hkept : i ∉ children.normalize.ids := fun hmem => by
    have hsome := (has_body_normalize h hbody).parent?_isSome hmem
    rw [parent?] at hnone
    simp [hnone] at hsome
  have hdropped : i ∈ children.droppedTexts.map Prod.fst :=
    (List.mem_append.1 ((Forest.perm_normalize (hbody.proper h.proper).2).symm.subset hbelow)).resolve_left
      hkept
  obtain ⟨⟨j, u⟩, hmem, rfl⟩ := List.mem_map.1 hdropped
  have hentry := hbody.entries_subset (Forest.mem_entries_of_mem_dropped hmem)
  have hu := Forest.entry_unique h.nodup hentry ((Forest.data?_eq_some_iff h.nodup).1 hdata)
  rw [data?, Forest.data?_eq_some_iff h'.nodup, ← hu, normalize, hbody.childrenOf h.nodup,
    Forest.entries_append, Forest.entries_leaves]
  exact List.mem_append_right _ (List.mem_map.2 ⟨_, hmem, rfl⟩)

/-- Each node of a run represents it, or is taken out of its parent. -/
lemma dropped_normalize (hin : d.forest.isWithin p body = true) {run : List (NodeId × NodeData)}
    (hrun : run ∈ textRuns (d.siblings p)) {e : NodeId × NodeData} (he : e ∈ run) :
    if e.1 ∈ (represent run).map Prod.fst then d.normalize.parent? e.1 = some p
    else d.normalize.parent? e.1 = none ∧ d.normalize.data? e.1 = some e.2 := by
  have h' := (follows_normalize h).wellFormed
  have hrow : d.normalize.siblings p = (textRuns (d.siblings p)).flatMap represent := by
    rw [siblings_normalize h, if_pos hin]
  obtain ⟨hparent, hdata⟩ := (mem_siblings_iff h).1
    (flatten_textRuns (d.siblings p) ▸ List.mem_flatten.2 ⟨run, hrun, he⟩)
  split
  · next hleft =>
    rw [← mem_children_iff h', ← map_fst_siblings, hrow, List.map_flatMap]
    exact List.mem_flatMap.2 ⟨run, hrun, hleft⟩
  · next hleft =>
    have hnone : d.normalize.parent? e.1 = none := by
      rw [Option.eq_none_iff_forall_ne_some]
      intro q hq
      -- it would still be a child of `p`, so it would be left of another run
      obtain rfl : p = q := Option.some.inj (hparent.symm.trans (parent?_of_normalize h hq))
      rw [← mem_children_iff h', ← map_fst_siblings, hrow, List.map_flatMap] at hq
      obtain ⟨other, hother, hmem⟩ := List.mem_flatMap.1 hq
      have hnodup : ((d.siblings p).map Prod.fst).Nodup := map_fst_siblings d p ▸ nodup_children h p
      have hsame := textRuns_unique hnodup hrun hother (List.mem_map_of_mem he)
        (map_fst_represent_subset other hmem)
      exact hleft (hsame ▸ hmem)
    refine ⟨hnone, ?_⟩
    cases htext : e.2.text? with
    | some t =>
      rw [NodeData.text?_eq_some_iff] at htext
      rw [htext] at hdata ⊢
      exact data?_of_parent?_normalize h hin hparent hdata hnone
    | none =>
      rw [parent?_normalize h (by simp [hdata, htext]), hparent] at hnone
      cases hnone

/-- A node whose parent is not the body and does not stand below it stays what it is. -/
lemma data?_normalize_of_elsewhere (hi : ∀ p, d.parent? i = some p → d.forest.isWithin p body = false) :
    d.normalize.data? i = d.data? i := by
  obtain ⟨attributes, children, hbody⟩ := h.exists_has_body
  have h' := (follows_normalize h).wellFormed
  by_cases hbelow : d.forest.isWithin i body = true
  · -- it can only be the body
    have hi' : i = body := by
      rcases (hbody.isWithin_iff h.nodup).1 hbelow with hi' | hmem
      · exact hi'
      · obtain ⟨p, hp⟩ := Option.isSome_iff_exists.1 (hbody.parent?_isSome hmem)
        have hin := (hbody.isWithin_iff h.nodup).2 (hbody.parent?_within h.nodup hmem hp)
        rw [hi p hp] at hin
        cases hin
    refine data?_normalize h ?_
    rw [hi', data?, hbody.data? h.nodup]
    rfl
  · rw [Bool.not_eq_true] at hbelow
    by_cases hmem : i ∈ d.forest.ids
    · obtain ⟨e, c, hhas⟩ := Forest.exists_has_of_mem_ids hmem
      rw [data?, data?, hhas.data? h.nodup, (has_normalize_of_outside h hbody hhas hbelow).data? h'.nodup]
    · rw [data?_eq_none_iff.2 hmem, data?_eq_none_iff]
      exact fun hmem' => hmem ((perm_ids_normalize h).subset hmem')

/-- It stays where it is as well. -/
lemma parent?_normalize_of_elsewhere (hi : ∀ p, d.parent? i = some p → d.forest.isWithin p body = false) :
    d.normalize.parent? i = d.parent? i := by
  cases hp : d.parent? i with
  | none =>
    rw [Option.eq_none_iff_forall_ne_some]
    intro q hq
    rw [parent?_of_normalize h hq] at hp
    cases hp
  | some p =>
    obtain ⟨e, he⟩ : ∃ e, d.data? i = some e := by
      rw [← Option.isSome_iff_exists, Option.isSome_iff_ne_none, Ne, data?_eq_none_iff, not_not]
      exact (Forest.mem_ids_of_parent? hp).1
    have hrow : d.normalize.siblings p = d.siblings p := by
      rw [siblings_normalize h, if_neg (by simp [hi p hp])]
    exact ((mem_siblings_iff (follows_normalize h).wellFormed).1
      (hrow ▸ (mem_siblings_iff h).2 ⟨hp, he⟩)).1

/-- Normalizing does what it should. -/
lemma normalized_normalize : d.Normalized d.normalize where
  normal := by
    obtain ⟨attributes, children, hbody⟩ := h.exists_has_body
    rw [(has_body_normalize h hbody).childrenOf (follows_normalize h).wellFormed.nodup]
    exact Forest.normal_normalize children
  textContent_eq i hi := textContent_normalize h hi
  others i hi := ⟨data?_normalize h hi, parent?_normalize h hi⟩
  order := order_normalize h
  siblings_eq := siblings_normalize h
  dropped p hin run hrun e he := dropped_normalize h hin hrun he
  elsewhere _ hi := ⟨data?_normalize_of_elsewhere h hi, parent?_normalize_of_elsewhere h hi⟩
  unnoted := rfl
  again := by
    obtain ⟨attributes, children, hbody⟩ := h.exists_has_body
    exact normalize_of_normal (follows_normalize h).wellFormed (has_body_normalize h hbody)
      (Forest.normal_normalize children)

end Normalize

end Document

namespace Session

/-- **Normalization is correct.** The document of every run is normalized when its body is, and an arena with
its nodes is left with the nodes of the normalized document. -/
theorem normalized_run (loading : Bool) (commands : List Command) :
    (run loading commands).document.Normalized (run loading commands).document.normalize ∧
      ∃ edits a b, Arena.run edits = some a ∧ a.Represents (run loading commands).document ∧
        a.normalize Document.body = some b ∧ b.Represents (run loading commands).document.normalize := by
  obtain ⟨hd, edits, a, ha, hrep⟩ :=
    invariant_run Document.invariant_reached Document.reached_empty loading commands
  obtain ⟨b, hb, hrep'⟩ := hrep.normalize hd
  exact ⟨Document.normalized_normalize hd, edits, a, b, ha, hrep, hb, hrep'⟩

end Session

/-! ## Behind a pass -/

section Pass

variable {g : Grammar} {l : Layout} {refuse : NodeId → Text → Option HostError} {base : NodeId}
  {σ : NodeId → Option Forest}

/-- Normal forests may take the places of texts. -/
lemma Forest.NormalFrom.substitute {f : Forest} {behindText : Bool} (hf : f.NormalFrom behindText)
    (htext : ∀ i d, (i, d) ∈ f.entries → (σ i).isSome = true → d.text?.isSome = true)
    (hσ : ∀ i ∈ f.ids, ∀ new, σ i = some new → new.Normal) : (f.substitute σ).NormalFrom behindText := by
  induction f generalizing behindText with
  | nil => trivial
  | node i d c n ihc ihn =>
    simp only [Forest.entries, List.mem_cons, List.mem_append] at htext
    simp only [Forest.ids, List.mem_cons, List.mem_append, forall_eq_or_imp] at hσ
    have hc : ∀ {b}, c.NormalFrom b → (c.substitute σ).NormalFrom b := fun hf =>
      ihc hf (fun j e hj => htext j e (Or.inr (Or.inl hj))) fun j hj => hσ.2 j (Or.inl hj)
    have hn : ∀ {b}, n.NormalFrom b → (n.substitute σ).NormalFrom b := fun hf =>
      ihn hf (fun j e hj => htext j e (Or.inr (Or.inr hj))) fun j hj => hσ.2 j (Or.inr hj)
    cases hi : σ i with
    | some new =>
      -- a text, so no text stands before it or behind it
      have hd := htext i d (Or.inl rfl) (by rw [hi]; rfl)
      rw [Forest.substitute_of_some hi]
      cases d with
      | text t =>
        obtain ⟨rfl, -, hnext⟩ := hf
        exact (hσ.1 new hi).append (hn hnext)
      | _ => cases hd
    | none =>
      rw [Forest.substitute_of_none hi]
      cases d with
      | text t => exact ⟨hf.1, hf.2.1, hn hf.2.2⟩
      | _ => exact ⟨hc hf.1, hn hf.2⟩

/-- What takes the place of a converted text is normal. -/
lemma Converts.normal {counts final : Counts} {texts : List (NodeId × Text)}
    (h : Converts g l refuse base σ counts texts final) {i : NodeId} (hi : i ∈ texts.map Prod.fst)
    {new : Forest} (hnew : σ i = some new) : new.Normal := by
  induction h with
  | nil => simp at hi
  | kept hσ _ _ ih =>
    rcases List.mem_cons.1 hi with rfl | hi
    · simp [hσ] at hnew
    · exact ih hi
  | replaced hσ _ _ hnumber _ _ ih =>
    rcases List.mem_cons.1 hi with rfl | hi
    · obtain rfl := Option.some.inj (hσ.symm.trans hnew)
      have hpieces := Segment.map_piece_of_number hnumber
      exact normal_buildAll _ (hpieces ▸ g.apart_pieces _)
        (hpieces ▸ fun p hp => g.content_ne_nil_of_mem_pieces hp) (by simp)
    · exact ih hi

end Pass

namespace Session

/-- **A pass leaves the body normalized.** In every run, and whatever texts are refused to an engine, no text
below the body is empty behind a pass of the engine and no two texts are neighbours. So normalizing the
document once more changes nothing. -/
theorem refusingPass_normal (loading : Bool) (commands : List Command)
    (refuse : NodeId → Text → Option HostError) (index : Nat) (e : Engine) :
    let d := ((run loading commands).refusingPass refuse index e).2.document
    (d.forest.childrenOf Document.body).Normal ∧ d.normalize = d := by
  intro d
  have hwell := (sound_run loading commands).wellFormed
  have hafter : d.WellFormed := (follows_refusingPass hwell refuse index e).document.wellFormed
  obtain ⟨attributes, children, hbody⟩ := hwell.exists_has_body
  obtain ⟨σ, after, hplaces, hconverts, hothers, hbody', hstyle⟩ :=
    refusingPass_body refuse index e hwell hbody
  have hsubstitute : (children.normalize.substitute σ).Normal := by
    refine Forest.NormalFrom.substitute (Forest.normal_normalize children) hplaces.text fun i _ new hnew => ?_
    refine hconverts.normal ?_ hnew
    by_contra hi
    simp [hothers i hi] at hnew
  have hnormal : after.Normal := by
    rcases hstyle with rfl | ⟨fresh, -, rfl⟩
    · exact hsubstitute
    · exact hsubstitute.appendTo (Document.normal_styleTree _ _ (css_ne_nil _)) _
  refine ⟨?_, Document.normalize_of_normal hafter hbody' hnormal⟩
  rwa [hbody'.childrenOf hafter.nodup]

end Session

end MarkedMath
