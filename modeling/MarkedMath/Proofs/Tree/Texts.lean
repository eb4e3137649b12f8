import MarkedMath.Document
import MarkedMath.Proofs.Tree.Nodes

/-!
# The texts of a forest

`Forest.textsOutside` lists the text nodes of a forest with their data, without those in hidden nodes. A
pass looks at the texts outside skipped elements. Putting a forest in the place of a text node puts its
texts in the place of the text.

In a proper forest only elements have children, as in every document.
-/

namespace MarkedMath

lemma NodeData.text?_eq_some_iff {d : NodeData} {t : Text} : d.text? = some t ↔ d = .text t := by
  cases d <;> simp [text?]

namespace Forest

/-- The text nodes in document order with their data, without hidden nodes and those below them. -/
def textsOutside (hidden : NodeId → NodeData → Bool) : Forest → List (NodeId × Text)
  | nil => []
  | node id data children next =>
    (if hidden id data then []
      else (data.text?.map fun t => (id, t)).toList ++ children.textsOutside hidden) ++
      next.textsOutside hidden

/-- Elements whose text is never looked at are hidden. -/
def isSkipped (_ : NodeId) (data : NodeData) : Bool :=
  data.tag?.any skippedTags.contains

/-- Only elements have children. -/
def Proper : Forest → Prop
  | nil => True
  | node _ data children next =>
    (data.isElement = true ∨ children = nil) ∧ children.Proper ∧ next.Proper

variable {f g c c' n new : Forest} {id b x : NodeId} {d d' : NodeData} {t : Text}

/-! ## Proper forests -/

lemma proper_nil : nil.Proper := trivial

lemma Proper.append (hf : f.Proper) (hg : g.Proper) : (f ++ g).Proper := by
  induction f with
  | nil => exact hg
  | node i d c n _ ih => exact ⟨hf.1, hf.2.1, ih hf.2.2⟩

lemma Has.proper (h : Has id d c f) (hf : f.Proper) :
    (d.isElement = true ∨ c = nil) ∧ c.Proper := by
  induction h with
  | here next => exact ⟨hf.1, hf.2.1⟩
  | inside _ ih => exact ih hf.2.1
  | behind _ ih => exact ih hf.2.2

/-- A text node has no children. -/
lemma Has.eq_nil_of_text (h : Has id (.text t) c f) (hf : f.Proper) : c = nil :=
  (h.proper hf).1.resolve_left (by simp [NodeData.isElement, NodeData.tag?])

lemma Proper.atNode {k : NodeData → Forest → Forest → Forest} (hf : f.Proper)
    (hk : ∀ d c n, Has id d c f → (node id d c n).Proper → (k d c n).Proper) :
    (f.atNode id k).Proper := by
  induction f with
  | nil => trivial
  | node i d c n ihc ihn =>
    rw [Forest.atNode]
    split
    · next hi => exact hk d c n (hi ▸ .here n) (hi ▸ hf)
    · refine ⟨?_, ihc hf.2.1 fun d c n h => hk d c n (.inside h),
        ihn hf.2.2 fun d c n h => hk d c n (.behind h)⟩
      rcases hf.1 with h | rfl
      · exact Or.inl h
      · exact Or.inr rfl

lemma Proper.splice (hf : f.Proper) (hnew : new.Proper) (id : NodeId) : (f.splice id new).Proper := by
  rw [splice_eq_atNode]
  exact hf.atNode fun d c n _ h => hnew.append h.2.2

lemma Proper.insertBefore (hf : f.Proper) (hnew : new.Proper) (id : NodeId) :
    (f.insertBefore id new).Proper := by
  rw [insertBefore_eq_atNode]
  exact hf.atNode fun d c n _ h => hnew.append h

lemma Proper.appendTo (hf : f.Proper) (hnew : new.Proper)
    (hid : ∀ d, (id, d) ∈ f.entries → d.isElement = true) : (f.appendTo id new).Proper := by
  rw [appendTo_eq_atNode]
  exact hf.atNode fun d c n hin h => ⟨Or.inl (hid d hin.mem_entries), h.2.1.append hnew, h.2.2⟩

lemma Proper.setChildren (hf : f.Proper) (hnew : new.Proper)
    (hid : ∀ d, (id, d) ∈ f.entries → d.isElement = true) : (f.setChildren id new).Proper := by
  rw [setChildren_eq_atNode]
  exact hf.atNode fun d c n hin h => ⟨Or.inl (hid d hin.mem_entries), hnew, h.2.2⟩

lemma Proper.modify {change : NodeData → NodeData} (hf : f.Proper)
    (hchange : ∀ d, (id, d) ∈ f.entries → (change d).isElement = d.isElement) :
    (f.modify id change).Proper := by
  rw [modify_eq_atNode]
  exact hf.atNode fun d c n hin h => ⟨(hchange d hin.mem_entries).symm ▸ h.1, h.2⟩

lemma Proper.tree (hf : f.Proper) (id : NodeId) : (f.tree id).Proper := by
  rw [Forest.tree]
  split
  · next h => exact ⟨((has_of_find? h).proper hf).1, ((has_of_find? h).proper hf).2, trivial⟩
  · trivial

/-! ## Texts -/

section Texts

variable {hidden hidden' : NodeId → NodeData → Bool}

@[simp] lemma textsOutside_append (f g : Forest) :
    (f ++ g).textsOutside hidden = f.textsOutside hidden ++ g.textsOutside hidden := by
  induction f with
  | nil => rfl
  | node i d c n _ ih => simp only [node_append, textsOutside, ih, List.append_assoc]

lemma mem_textsOutside_node {i : NodeId} :
    (x, t) ∈ (node i d c n).textsOutside hidden ↔
      hidden i d = false ∧ (x = i ∧ d = .text t ∨ (x, t) ∈ c.textsOutside hidden) ∨
        (x, t) ∈ n.textsOutside hidden := by
  rw [textsOutside, List.mem_append]
  refine or_congr_left ?_
  split
  · next h => simp [h]
  · next h =>
    rw [List.mem_append, Option.mem_toList]
    cases d <;> simp [h, NodeData.text?, eq_comm]

lemma mem_entries_of_mem_textsOutside (h : (x, t) ∈ f.textsOutside hidden) :
    (x, .text t) ∈ f.entries := by
  induction f with
  | nil => simp [textsOutside] at h
  | node i d c n ihc ihn =>
    simp only [entries, List.mem_cons, List.mem_append, Prod.mk.injEq]
    rcases mem_textsOutside_node.1 h with ⟨-, ⟨rfl, rfl⟩ | h⟩ | h
    · exact Or.inl ⟨rfl, rfl⟩
    · exact Or.inr (Or.inl (ihc h))
    · exact Or.inr (Or.inr (ihn h))

lemma textsOutside_sublist (f : Forest) :
    ((f.textsOutside hidden).map Prod.fst).Sublist f.ids := by
  induction f with
  | nil => exact List.Sublist.refl _
  | node i d c n ihc ihn =>
    rw [textsOutside, ids, List.map_append, ← List.cons_append]
    refine List.Sublist.append ?_ ihn
    split
    · exact List.nil_sublist _
    · cases d with
      | text t => simpa [NodeData.text?] using ihc
      | element tag attributes => simpa [NodeData.text?] using ihc.cons i
      | comment data => simpa [NodeData.text?] using ihc.cons i

lemma textsOutside_congr (h : ∀ e ∈ f.entries, hidden e.1 e.2 = hidden' e.1 e.2) :
    f.textsOutside hidden = f.textsOutside hidden' := by
  induction f with
  | nil => rfl
  | node i d c n ihc ihn =>
    simp only [entries, List.mem_cons, List.mem_append, forall_eq_or_imp] at h
    rw [textsOutside, textsOutside, h.1, ihc fun e he => h.2 e (Or.inl he),
      ihn fun e he => h.2 e (Or.inr he)]

/-- Scanning looks at the texts outside skipped elements. -/
lemma scannedTexts_eq (hf : f.Proper) :
    f.scannedTexts = (f.textsOutside isSkipped).map Prod.fst := by
  induction f with
  | nil => rfl
  | node i d c n ihc ihn =>
    have hn := ihn hf.2.2
    cases d with
    | element tag attributes =>
      by_cases htag : tag ∈ skippedTags
      · simp [scannedTexts, textsOutside, isSkipped, NodeData.tag?, htag, hn]
      · simp [scannedTexts, textsOutside, isSkipped, NodeData.tag?, NodeData.text?, htag, hn,
          ihc hf.2.1]
    | text t =>
      obtain rfl := (Has.here n).eq_nil_of_text hf
      simp [scannedTexts, textsOutside, isSkipped, NodeData.tag?, NodeData.text?, hn]
    | comment t =>
      obtain rfl := hf.1.resolve_left (by simp [NodeData.isElement, NodeData.tag?])
      simp [scannedTexts, textsOutside, isSkipped, NodeData.tag?, NodeData.text?, hn]

/-- The texts of a node's children are those of the forest that stand there. -/
lemma Has.mem_textsOutside (hf : f.ids.Nodup) (h : Has b d c f)
    (hx : (x, t) ∈ f.textsOutside hidden) (hin : x ∈ c.ids) :
    hidden b d = false ∧ (x, t) ∈ c.textsOutside hidden := by
  induction h with
  | here next =>
    obtain ⟨hc, hn, -, -, hdisj⟩ := nodup_ids_node hf
    rcases mem_textsOutside_node.1 hx with ⟨hshown, ⟨rfl, -⟩ | hx⟩ | hx
    · exact absurd hin hc
    · exact ⟨hshown, hx⟩
    · exact absurd (mem_ids_of_mem_entries (mem_entries_of_mem_textsOutside hx)) (hdisj _ hin)
  | inside h ih =>
    obtain ⟨hc, hn, hcn, -, hdisj⟩ := nodup_ids_node hf
    rcases mem_textsOutside_node.1 hx with ⟨-, ⟨rfl, -⟩ | hx⟩ | hx
    · exact absurd (h.ids_subset hin) hc
    · exact ih hcn hx
    · exact absurd (mem_ids_of_mem_entries (mem_entries_of_mem_textsOutside hx))
        (hdisj _ (h.ids_subset hin))
  | behind h ih =>
    obtain ⟨hc, hn, -, hnn, hdisj⟩ := nodup_ids_node hf
    rcases mem_textsOutside_node.1 hx with ⟨-, ⟨rfl, -⟩ | hx⟩ | hx
    · exact absurd (h.ids_subset hin) hn
    · exact absurd (h.ids_subset hin)
        (hdisj _ (mem_ids_of_mem_entries (mem_entries_of_mem_textsOutside hx)))
    · exact ih hnn hx

/-- A text that stands in the first tree below its root is one of its children's. -/
lemma mem_texts_children {i : NodeId} (hf : (node i d c n).ids.Nodup) (hx : x ∈ c.ids)
    (h : x ∈ ((node i d c n).textsOutside hidden).map Prod.fst) :
    hidden i d = false ∧ x ∈ (c.textsOutside hidden).map Prod.fst := by
  obtain ⟨⟨x, t⟩, hp, rfl⟩ := List.mem_map.1 h
  obtain ⟨hshown, hp⟩ := (Has.here n).mem_textsOutside hf hp hx
  exact ⟨hshown, List.mem_map_of_mem hp⟩

/-- A text that stands behind the first tree is one of the trees there. -/
lemma mem_texts_next {i : NodeId} (hf : (node i d c n).ids.Nodup) (hx : x ∈ n.ids)
    (h : x ∈ ((node i d c n).textsOutside hidden).map Prod.fst) :
    x ∈ (n.textsOutside hidden).map Prod.fst := by
  obtain ⟨-, hin, -, -, hdisj⟩ := nodup_ids_node hf
  obtain ⟨⟨x, t⟩, hp, rfl⟩ := List.mem_map.1 h
  rcases mem_textsOutside_node.1 hp with ⟨-, ⟨rfl, -⟩ | hp⟩ | hp
  · exact absurd hx hin
  · exact absurd hx (hdisj _ (mem_ids_of_mem_entries (mem_entries_of_mem_textsOutside hp)))
  · exact List.mem_map_of_mem hp

/-! ### Texts after an operation -/

lemma flatMap_of_not_mem {texts : List (NodeId × Text)} {k : List (NodeId × Text)}
    (h : id ∉ texts.map Prod.fst) : (texts.flatMap fun p => if p.1 = id then k else [p]) = texts := by
  induction texts with
  | nil => rfl
  | cons p texts ih =>
    simp only [List.map_cons, List.mem_cons, not_or] at h
    rw [List.flatMap_cons, ih h.2, if_neg (Ne.symm h.1)]
    rfl

/-- The texts of the new forest come to stand where the text was. -/
lemma Has.textsOutside_splice_eq (hf : f.ids.Nodup) (h : Has id (.text t) nil f)
    (htext : hidden id (.text t) = false) :
    (f.splice id new).textsOutside hidden =
      (f.textsOutside hidden).flatMap fun p =>
        if p.1 = id then new.textsOutside hidden else [p] := by
  have hkept : ∀ {f : Forest}, id ∉ f.ids → (f.textsOutside hidden).flatMap (fun p =>
      if p.1 = id then new.textsOutside hidden else [p]) = f.textsOutside hidden := fun hnot =>
    flatMap_of_not_mem fun hmem => hnot ((textsOutside_sublist _).subset hmem)
  induction h with
  | here next =>
    have hnext := hkept (nodup_ids_node hf).2.1
    simp [Forest.splice, textsOutside, htext, NodeData.text?, hnext]
  | @inside i d c n h ih =>
    obtain ⟨hi, -, hc, -, hdisj⟩ := nodup_ids_node hf
    have hne : i ≠ id := fun he => hi (he ▸ h.mem_ids)
    have hnot := hdisj _ h.mem_ids
    rw [Forest.splice, if_neg hne, splice_of_not_mem hnot, textsOutside, textsOutside, ih hc,
      List.flatMap_append, hkept hnot]
    cases hidden i d
    · cases d <;> simp [NodeData.text?, hne]
    · simp
  | @behind i d c n h ih =>
    obtain ⟨-, hi, -, hn, hdisj⟩ := nodup_ids_node hf
    have hne : i ≠ id := fun he => hi (he ▸ h.mem_ids)
    have hnot : id ∉ c.ids := fun hmem => hdisj _ hmem h.mem_ids
    rw [Forest.splice, if_neg hne, splice_of_not_mem hnot, textsOutside, textsOutside, ih hn,
      List.flatMap_append]
    congr 1
    cases hidden i d
    · cases d <;> simp [NodeData.text?, hne, hkept hnot]
    · simp

lemma Has.textsOutside_splice {done rest : List (NodeId × Text)} (hf : f.ids.Nodup)
    (h : Has id (.text t) nil f) (htext : hidden id (.text t) = false)
    (htexts : f.textsOutside hidden = done ++ (id, t) :: rest) (new : Forest) :
    (f.splice id new).textsOutside hidden = done ++ (new.textsOutside hidden ++ rest) := by
  have hnodup : (f.textsOutside hidden).map Prod.fst |>.Nodup :=
    (textsOutside_sublist f).nodup hf
  rw [htexts, List.map_append, List.map_cons, List.nodup_append', List.nodup_cons] at hnodup
  obtain ⟨-, ⟨hrest, -⟩, hdisj⟩ := hnodup
  have hdone : id ∉ done.map Prod.fst := fun hmem => hdisj hmem (by simp)
  rw [h.textsOutside_splice_eq hf htext, htexts, List.flatMap_append, List.flatMap_cons,
    flatMap_of_not_mem hdone, flatMap_of_not_mem hrest, if_pos rfl]

/-- A forest without texts changes no texts. -/
lemma textsOutside_appendTo (hnew : new.textsOutside hidden = []) (f : Forest) (id : NodeId) :
    (f.appendTo id new).textsOutside hidden = f.textsOutside hidden := by
  induction f with
  | nil => rfl
  | node i d c n ihc ihn =>
    rw [appendTo]
    split
    · rw [textsOutside, textsOutside, textsOutside_append, hnew, List.append_nil]
    · rw [textsOutside, textsOutside, ihc, ihn]

end Texts

end Forest

end MarkedMath
