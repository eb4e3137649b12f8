import Mathlib.Data.List.Nodup
import Mathlib.Tactic.Common
import MarkedMath.Tree.Forest

/-!
# The nodes of a forest

`Forest.entries` lists the nodes of a forest, and `Has` says which children a node has in it. The
operations on forests are described by both: the entries before and after an operation are the same but
for what is put in or taken out, and a node that is not touched keeps its children, changed in the same
way. Forests in documents name no node twice, and most of what is said here is said of such forests.
-/

namespace MarkedMath.Forest

/-- The nodes in document order, each with what it is. -/
def entries : Forest → List (NodeId × NodeData)
  | nil => []
  | node id data children next => (id, data) :: (children.entries ++ next.entries)

/-- A node stands in the forest with these children. -/
inductive Has (id : NodeId) (data : NodeData) (children : Forest) : Forest → Prop
  /-- It is the first root. -/
  | here (next : Forest) : Has id data children (node id data children next)
  /-- It stands below the first root. -/
  | inside {i : NodeId} {d : NodeData} {c n : Forest} (h : Has id data children c) :
      Has id data children (node i d c n)
  /-- It stands in the trees behind the first. -/
  | behind {i : NodeId} {d : NodeData} {c n : Forest} (h : Has id data children n) :
      Has id data children (node i d c n)

variable {f g c c' new : Forest} {id b : NodeId} {d d' : NodeData}

/-! ## Sequences of trees -/

@[simp] lemma nil_append (g : Forest) : nil ++ g = g := rfl

@[simp] lemma node_append (id : NodeId) (d : NodeData) (c f g : Forest) :
    node id d c f ++ g = node id d c (f ++ g) := rfl

@[simp] lemma append_nil (f : Forest) : f ++ nil = f := by
  induction f with
  | nil => rfl
  | node id d c n _ ih => rw [node_append, ih]

lemma append_assoc (f g new : Forest) : f ++ g ++ new = f ++ (g ++ new) := by
  induction f with
  | nil => rfl
  | node id d c n _ ih => simp only [node_append, ih]

@[simp] lemma entries_append (f g : Forest) : (f ++ g).entries = f.entries ++ g.entries := by
  induction f with
  | nil => rfl
  | node id d c n _ ih => simp [entries, ih]

lemma ids_eq_map (f : Forest) : f.ids = f.entries.map Prod.fst := by
  induction f with
  | nil => rfl
  | node id d c n ihc ihn => simp [ids, entries, ihc, ihn]

@[simp] lemma ids_append (f g : Forest) : (f ++ g).ids = f.ids ++ g.ids := by
  simp [ids_eq_map]

lemma nodup_ids_append {g : Forest} :
    (f ++ g).ids.Nodup ↔ f.ids.Nodup ∧ g.ids.Nodup ∧ f.ids.Disjoint g.ids := by
  rw [ids_append, List.nodup_append']

lemma mem_ids_of_mem_entries (h : (id, d) ∈ f.entries) : id ∈ f.ids := by
  rw [ids_eq_map]
  exact List.mem_map_of_mem h

lemma exists_mem_entries (h : id ∈ f.ids) : ∃ d, (id, d) ∈ f.entries := by
  rw [ids_eq_map] at h
  obtain ⟨⟨i, d⟩, hmem, rfl⟩ := List.mem_map.1 h
  exact ⟨d, hmem⟩

lemma nodup_ids_node {i : NodeId} {n : Forest} (h : (node i d c n).ids.Nodup) :
    i ∉ c.ids ∧ i ∉ n.ids ∧ c.ids.Nodup ∧ n.ids.Nodup ∧ ∀ j ∈ c.ids, j ∉ n.ids := by
  simp only [ids, List.nodup_cons, List.mem_append, not_or, List.nodup_append'] at h
  obtain ⟨⟨hc, hn⟩, hcn, hnn, hdisj⟩ := h
  exact ⟨hc, hn, hcn, hnn, fun j hj hj' => hdisj hj hj'⟩

/-- A node is what it is once. -/
lemma entry_unique (hf : f.ids.Nodup) (h : (id, d) ∈ f.entries) (h' : (id, d') ∈ f.entries) :
    d = d' := by
  rw [ids_eq_map] at hf
  exact congrArg Prod.snd (List.inj_on_of_nodup_map hf h h' rfl)

/-! ## Nodes with their children -/

namespace Has

lemma sublist (h : Has id d c f) : (node id d c nil).entries.Sublist f.entries := by
  induction h with
  | here next =>
    simp only [entries, List.append_nil]
    exact (List.sublist_append_left _ _).cons_cons _
  | inside _ ih => exact (ih.trans (List.sublist_append_left _ _)).cons _
  | behind _ ih => exact (ih.trans (List.sublist_append_right _ _)).cons _

lemma mem_entries (h : Has id d c f) : (id, d) ∈ f.entries :=
  h.sublist.subset (by simp [entries])

lemma mem_ids (h : Has id d c f) : id ∈ f.ids :=
  mem_ids_of_mem_entries h.mem_entries

lemma entries_subset (h : Has id d c f) : c.entries ⊆ f.entries := fun e he =>
  h.sublist.subset (by simp [entries, he])

lemma ids_subset (h : Has id d c f) : c.ids ⊆ f.ids := by
  simp only [ids_eq_map]
  exact List.map_subset _ h.entries_subset

lemma nodup (h : Has id d c f) (hf : f.ids.Nodup) : id ∉ c.ids ∧ c.ids.Nodup := by
  have hsub := (h.sublist.map Prod.fst).nodup (by rwa [← ids_eq_map])
  rw [← ids_eq_map] at hsub
  obtain ⟨hid, -, hc, -⟩ := nodup_ids_node hsub
  exact ⟨hid, hc⟩

lemma unique (hf : f.ids.Nodup) (h : Has id d c f) (h' : Has id d' c' f) : d = d' ∧ c = c' := by
  induction h with
  | here next =>
    obtain ⟨hc, hn, -⟩ := nodup_ids_node hf
    cases h' with
    | here => exact ⟨rfl, rfl⟩
    | inside h' => exact absurd h'.mem_ids hc
    | behind h' => exact absurd h'.mem_ids hn
  | inside h ih =>
    obtain ⟨hc, hn, hcn, -, hdisj⟩ := nodup_ids_node hf
    cases h' with
    | here => exact absurd h.mem_ids hc
    | inside h' => exact ih hcn h'
    | behind h' => exact absurd h'.mem_ids (hdisj _ h.mem_ids)
  | behind h ih =>
    obtain ⟨hc, hn, -, hnn, hdisj⟩ := nodup_ids_node hf
    cases h' with
    | here => exact absurd h.mem_ids hn
    | inside h' => exact absurd h.mem_ids (hdisj _ h'.mem_ids)
    | behind h' => exact ih hnn h'

lemma trans (h : Has id d c f) (h' : Has b d' c' c) : Has b d' c' f := by
  induction h with
  | here next => exact .inside h'
  | inside _ ih => exact .inside ih
  | behind _ ih => exact .behind ih

lemma append_left (h : Has id d c f) (g : Forest) : Has id d c (f ++ g) := by
  induction h with
  | here next => exact .here _
  | inside h _ => exact .inside h
  | behind _ ih => exact .behind ih

lemma append_right (h : Has id d c g) (f : Forest) : Has id d c (f ++ g) := by
  induction f with
  | nil => exact h
  | node i d' c' n _ ih => exact .behind ih

end Has

lemma exists_has (h : (id, d) ∈ f.entries) : ∃ c, Has id d c f := by
  induction f with
  | nil => simp [entries] at h
  | node i d' c' n ihc ihn =>
    simp only [entries, List.mem_cons, List.mem_append, Prod.mk.injEq] at h
    rcases h with ⟨rfl, rfl⟩ | h | h
    · exact ⟨c', .here n⟩
    · obtain ⟨c, hc⟩ := ihc h
      exact ⟨c, .inside hc⟩
    · obtain ⟨c, hc⟩ := ihn h
      exact ⟨c, .behind hc⟩

lemma exists_has_of_mem_ids (h : id ∈ f.ids) : ∃ d c, Has id d c f := by
  obtain ⟨d, hd⟩ := exists_mem_entries h
  exact ⟨d, exists_has hd⟩

/-- A node of the forest whose number stands below another node stands there with its children. -/
lemma Has.restrict (hf : f.ids.Nodup) (hb : Has b d' c' f) (h : Has id d c f) (hid : id ∈ c'.ids) :
    Has id d c c' := by
  obtain ⟨d'', c'', h''⟩ := exists_has_of_mem_ids hid
  obtain ⟨rfl, rfl⟩ := (hb.trans h'').unique hf h
  exact h''

/-! ## Looking for a node -/

lemma find?_eq_none_iff : f.find? id = none ↔ id ∉ f.ids := by
  induction f with
  | nil => simp [find?, ids]
  | node i d c n ihc ihn =>
    simp only [find?, ids, List.mem_cons, List.mem_append, not_or, ← ihc, ← ihn]
    split
    · next hi => simp [hi]
    · next hi => simp [Ne.symm hi]

lemma Has.find? (hf : f.ids.Nodup) (h : Has id d c f) : f.find? id = some (d, c) := by
  induction h with
  | here next => simp [Forest.find?]
  | @inside i d' c' n h ih =>
    obtain ⟨hi, -, hc, -⟩ := nodup_ids_node hf
    have hne : i ≠ id := fun he => hi (he ▸ h.mem_ids)
    rw [Forest.find?, if_neg hne, ih hc]
    rfl
  | @behind i d' c' n h ih =>
    obtain ⟨-, hi, -, hn, hdisj⟩ := nodup_ids_node hf
    have hne : i ≠ id := fun he => hi (he ▸ h.mem_ids)
    have hnone := find?_eq_none_iff.2 fun hmem => hdisj _ hmem h.mem_ids
    rw [Forest.find?, if_neg hne, ih hn, hnone]
    rfl

lemma has_of_find? (h : f.find? id = some (d, c)) : Has id d c f := by
  induction f with
  | nil => simp [find?] at h
  | node i d' c' n ihc ihn =>
    rw [find?] at h
    split at h
    · next hi =>
      obtain ⟨rfl, rfl⟩ := by simpa using h
      exact hi ▸ .here n
    · rcases Option.or_eq_some_iff.1 h with h | ⟨-, h⟩
      · exact .inside (ihc h)
      · exact .behind (ihn h)

lemma find?_append (f g : Forest) : (f ++ g).find? id = (f.find? id).or (g.find? id) := by
  induction f with
  | nil => rfl
  | node i d c n _ ih =>
    rw [node_append, find?, find?, ih]
    split
    · rfl
    · rw [Option.or_assoc]

@[simp] lemma contains_iff : f.contains id = true ↔ id ∈ f.ids := by
  rw [contains, Option.isSome_iff_ne_none, Ne, find?_eq_none_iff, not_not]

lemma Has.data? (hf : f.ids.Nodup) (h : Has id d c f) : f.data? id = some d := by
  rw [Forest.data?, h.find? hf]
  rfl

lemma data?_eq_some_iff (hf : f.ids.Nodup) : f.data? id = some d ↔ (id, d) ∈ f.entries := by
  constructor
  · intro h
    obtain ⟨⟨d', c⟩, hfind, rfl⟩ := Option.map_eq_some_iff.1 h
    exact (has_of_find? hfind).mem_entries
  · intro h
    obtain ⟨c, hc⟩ := exists_has h
    exact hc.data? hf

lemma Has.childrenOf (hf : f.ids.Nodup) (h : Has id d c f) : f.childrenOf id = c := by
  rw [Forest.childrenOf, h.find? hf]
  rfl

lemma Has.tree (hf : f.ids.Nodup) (h : Has id d c f) : f.tree id = node id d c nil := by
  rw [Forest.tree, h.find? hf]

lemma Has.isWithin_iff (hf : f.ids.Nodup) (h : Has id d c f) :
    f.isWithin b id = true ↔ b = id ∨ b ∈ c.ids := by
  rw [isWithin, h.childrenOf hf, Bool.or_eq_true, decide_eq_true_eq, contains_iff]

/-- A node below another one has a parent. -/
lemma parent?_isSome_of_mem_ids (h : id ∈ f.ids) :
    id ∈ f.roots ∨ (f.parent? id).isSome = true := by
  induction f with
  | nil => simp [ids] at h
  | node i d c n ihc ihn =>
    simp only [ids, List.mem_cons, List.mem_append] at h
    by_cases hroot : c.roots.contains id = true
    · refine Or.inr ?_
      rw [parent?, if_pos hroot]
      rfl
    · rw [parent?, if_neg hroot, roots, List.mem_cons, Option.isSome_or, Bool.or_eq_true]
      rcases h with rfl | h | h
      · exact Or.inl (Or.inl rfl)
      · rcases ihc h with h | h
        · exact absurd (List.contains_iff_mem.2 h) hroot
        · exact Or.inr (Or.inl h)
      · rcases ihn h with h | h
        · exact Or.inl (Or.inr h)
        · exact Or.inr (Or.inr h)

lemma Has.parent?_isSome (h : Has b d c f) (hid : id ∈ c.ids) : (f.parent? id).isSome = true := by
  induction h with
  | here next =>
    rw [parent?]
    split
    · rfl
    · next hroot =>
      rw [List.contains_iff_mem] at hroot
      rw [Option.isSome_or, (parent?_isSome_of_mem_ids hid).resolve_left hroot]
      rfl
  | inside _ ih =>
    rw [parent?]
    split
    · rfl
    · rw [Option.isSome_or, ih]
      rfl
  | behind _ ih =>
    rw [parent?]
    split
    · rfl
    · rw [Option.isSome_or, ih, Bool.or_true]

lemma roots_subset (f : Forest) : f.roots ⊆ f.ids := by
  induction f with
  | nil => exact List.Subset.refl _
  | node i d c n _ ih =>
    rw [roots, ids]
    exact List.cons_subset_cons i (List.Subset.trans ih (List.subset_append_right _ _))

/-- Only nodes that are there have parents, and their parents are there. -/
lemma mem_ids_of_parent? {p : NodeId} (h : f.parent? id = some p) : id ∈ f.ids ∧ p ∈ f.ids := by
  induction f with
  | nil => simp [parent?] at h
  | node i d c n ihc ihn =>
    rw [parent?] at h
    simp only [ids, List.mem_cons, List.mem_append]
    split at h
    · next hroot =>
      obtain rfl := by simpa using h
      rw [List.contains_iff_mem] at hroot
      exact ⟨Or.inr (Or.inl (roots_subset c hroot)), Or.inl rfl⟩
    · rcases Option.or_eq_some_iff.1 h with h | ⟨-, h⟩
      · exact ⟨Or.inr (Or.inl (ihc h).1), Or.inr (Or.inl (ihc h).2)⟩
      · exact ⟨Or.inr (Or.inr (ihn h).1), Or.inr (Or.inr (ihn h).2)⟩

lemma Has.not_mem_roots (hf : f.ids.Nodup) (h : Has b d c f) (hid : id ∈ c.ids) : id ∉ f.roots := by
  induction h with
  | here next =>
    obtain ⟨hc, -, -, -, hdisj⟩ := nodup_ids_node hf
    rw [roots, List.mem_cons, not_or]
    exact ⟨fun he => hc (he ▸ hid), fun hmem => hdisj _ hid (roots_subset _ hmem)⟩
  | inside h ih =>
    obtain ⟨hc, -, -, -, hdisj⟩ := nodup_ids_node hf
    have hin := h.ids_subset hid
    rw [roots, List.mem_cons, not_or]
    exact ⟨fun he => hc (he ▸ hin), fun hmem => hdisj _ hin (roots_subset _ hmem)⟩
  | behind h ih =>
    obtain ⟨-, hn, -, hnn, -⟩ := nodup_ids_node hf
    rw [roots, List.mem_cons, not_or]
    exact ⟨fun he => hn (he ▸ h.ids_subset hid), ih hnn⟩

/-- The parent of a node below another one is that one or lies below it. -/
lemma Has.parent?_within (hf : f.ids.Nodup) (h : Has b d c f) (hid : id ∈ c.ids) {p : NodeId}
    (hp : f.parent? id = some p) : p = b ∨ p ∈ c.ids := by
  induction h with
  | here next =>
    obtain ⟨-, -, -, -, hdisj⟩ := nodup_ids_node hf
    rw [parent?] at hp
    split at hp
    · exact Or.inl (by simpa using hp.symm)
    · rcases Option.or_eq_some_iff.1 hp with hp | ⟨-, hp⟩
      · exact Or.inr (mem_ids_of_parent? hp).2
      · exact absurd (mem_ids_of_parent? hp).1 (hdisj _ hid)
  | inside h ih =>
    obtain ⟨-, -, hc, -, hdisj⟩ := nodup_ids_node hf
    rw [parent?] at hp
    split at hp
    · next hroot => exact absurd (List.contains_iff_mem.1 hroot) (h.not_mem_roots hc hid)
    · rcases Option.or_eq_some_iff.1 hp with hp | ⟨-, hp⟩
      · exact ih hc hp
      · exact absurd (mem_ids_of_parent? hp).1 (hdisj _ (h.ids_subset hid))
  | behind h ih =>
    obtain ⟨-, -, -, hn, hdisj⟩ := nodup_ids_node hf
    have hin := h.ids_subset hid
    rw [parent?] at hp
    split at hp
    · next hroot =>
      exact absurd hin (hdisj _ (roots_subset _ (List.contains_iff_mem.1 hroot)))
    · rcases Option.or_eq_some_iff.1 hp with hp | ⟨-, hp⟩
      · exact absurd hin (hdisj _ (mem_ids_of_parent? hp).1)
      · exact ih hn hp

/-! ## Operations at a node

All operations walk to a node and do something there. What is common to them is shown of `atNode`. -/

/-- Puts what `k` makes of a node, its children and the trees behind it in the place of these. -/
def atNode (id : NodeId) (k : NodeData → Forest → Forest → Forest) : Forest → Forest
  | nil => nil
  | node i d c n => if i = id then k d c n else node i d (c.atNode id k) (n.atNode id k)

lemma modify_eq_atNode (f : Forest) (id : NodeId) (change : NodeData → NodeData) :
    f.modify id change = f.atNode id fun d c n => node id (change d) c n := by
  induction f with
  | nil => rfl
  | node i d c n ihc ihn =>
    rw [modify, atNode, ihc, ihn]
    split
    · next hi => rw [hi]
    · rfl

lemma splice_eq_atNode (f : Forest) (id : NodeId) (new : Forest) :
    f.splice id new = f.atNode id fun _ _ n => new ++ n := by
  induction f with
  | nil => rfl
  | node i d c n ihc ihn => rw [splice, atNode, ihc, ihn]

lemma insertBefore_eq_atNode (f : Forest) (id : NodeId) (new : Forest) :
    f.insertBefore id new = f.atNode id fun d c n => new ++ node id d c n := by
  induction f with
  | nil => rfl
  | node i d c n ihc ihn =>
    rw [insertBefore, atNode, ihc, ihn]
    split
    · next hi => rw [hi]
    · rfl

lemma appendTo_eq_atNode (f : Forest) (id : NodeId) (new : Forest) :
    f.appendTo id new = f.atNode id fun d c n => node id d (c ++ new) n := by
  induction f with
  | nil => rfl
  | node i d c n ihc ihn =>
    rw [appendTo, atNode, ihc, ihn]
    split
    · next hi => rw [hi]
    · rfl

lemma setChildren_eq_atNode (f : Forest) (id : NodeId) (new : Forest) :
    f.setChildren id new = f.atNode id fun d _ n => node id d new n := by
  induction f with
  | nil => rfl
  | node i d c n ihc ihn =>
    rw [setChildren, atNode, ihc, ihn]
    split
    · next hi => rw [hi]
    · rfl

section AtNode

variable {k : NodeData → Forest → Forest → Forest}

lemma atNode_of_not_mem (h : id ∉ f.ids) : f.atNode id k = f := by
  induction f with
  | nil => rfl
  | node i d c n ihc ihn =>
    simp only [ids, List.mem_cons, List.mem_append, not_or] at h
    rw [atNode, if_neg (Ne.symm h.1), ihc h.2.1, ihn h.2.2]

lemma atNode_append_of_not_mem (h : id ∉ f.ids) (g : Forest) :
    (f ++ g).atNode id k = f ++ g.atNode id k := by
  induction f with
  | nil => rfl
  | node i d c n _ ihn =>
    simp only [ids, List.mem_cons, List.mem_append, not_or] at h
    rw [node_append, atNode, if_neg (Ne.symm h.1), atNode_of_not_mem h.2.1, ihn h.2.2]
    rfl

/-- The entries change as they change at the node. -/
lemma Has.perm_atNode {old added : List (NodeId × NodeData)} (hf : f.ids.Nodup) (h : Has id d c f)
    (hk : ∀ n, ((k d c n).entries ++ old).Perm ((node id d c n).entries ++ added)) :
    ((f.atNode id k).entries ++ old).Perm (f.entries ++ added) := by
  induction h with
  | here next => simpa [atNode] using hk next
  | @inside i d' c' n h ih =>
    obtain ⟨hi, -, hc, -, hdisj⟩ := nodup_ids_node hf
    have hne : i ≠ id := fun he => hi (he ▸ h.mem_ids)
    have hcount := List.perm_iff_count.1 (ih hc)
    rw [atNode, if_neg hne, atNode_of_not_mem (hdisj _ h.mem_ids), List.perm_iff_count]
    intro e
    have := hcount e
    simp only [entries, List.count_append, List.count_cons] at this ⊢
    omega
  | @behind i d' c' n h ih =>
    obtain ⟨-, hi, -, hn, hdisj⟩ := nodup_ids_node hf
    have hne : i ≠ id := fun he => hi (he ▸ h.mem_ids)
    have hnot : id ∉ c'.ids := fun hmem => hdisj _ hmem h.mem_ids
    have hcount := List.perm_iff_count.1 (ih hn)
    rw [atNode, if_neg hne, atNode_of_not_mem hnot, List.perm_iff_count]
    intro e
    have := hcount e
    simp only [entries, List.count_append, List.count_cons] at this ⊢
    omega

/-- A node that comes to stand at the node stands in the forest. -/
lemma Has.of_atNode (hf : f.ids.Nodup) (h : Has id d c f) (hk : ∀ n, Has b d' c' (k d c n)) :
    Has b d' c' (f.atNode id k) := by
  induction h with
  | here next =>
    rw [atNode, if_pos rfl]
    exact hk next
  | @inside i _ _ _ h ih =>
    obtain ⟨hi, -, hc, -⟩ := nodup_ids_node hf
    have hne : i ≠ id := fun he => hi (he ▸ h.mem_ids)
    rw [atNode, if_neg hne]
    exact .inside (ih hc)
  | @behind i _ _ _ h ih =>
    obtain ⟨-, hi, -, hn, -⟩ := nodup_ids_node hf
    have hne : i ≠ id := fun he => hi (he ▸ h.mem_ids)
    rw [atNode, if_neg hne]
    exact .behind (ih hn)

/-- Another node that is kept has its children with the same operation done to them. -/
lemma Has.atNode_of_ne (hf : f.ids.Nodup) (h : Has b d' c' f) (hne : b ≠ id)
    (hk : ∀ d c n, Has id d c f → Has b d' c' (node id d c n) → Has b d' c' (k d c n)) :
    Has b d' (c'.atNode id k) (f.atNode id k) := by
  induction h with
  | here next =>
    rw [atNode, if_neg hne]
    exact .here _
  | @inside i d c n h ih =>
    obtain ⟨hi, -, hc, -⟩ := nodup_ids_node hf
    rw [atNode]
    split
    · next hid =>
      have hnot : id ∉ c'.ids := fun hmem => hi (hid ▸ h.ids_subset hmem)
      rw [atNode_of_not_mem hnot]
      exact hk d c n (hid ▸ .here n) (.inside h)
    · exact .inside (ih hc fun d c n hid => hk d c n (.inside hid))
  | @behind i d c n h ih =>
    obtain ⟨-, hi, -, hn, -⟩ := nodup_ids_node hf
    rw [atNode]
    split
    · next hid =>
      have hnot : id ∉ c'.ids := fun hmem => hi (hid ▸ h.ids_subset hmem)
      rw [atNode_of_not_mem hnot]
      exact hk d c n (hid ▸ .here n) (.behind h)
    · exact .behind (ih hn fun d c n hid => hk d c n (.behind hid))

end AtNode

/-! ### The operations -/

lemma splice_of_not_mem (h : id ∉ f.ids) : f.splice id new = f := by
  rw [splice_eq_atNode, atNode_of_not_mem h]

lemma appendTo_of_not_mem (h : id ∉ f.ids) : f.appendTo id new = f := by
  rw [appendTo_eq_atNode, atNode_of_not_mem h]

lemma setChildren_of_not_mem (h : id ∉ f.ids) : f.setChildren id new = f := by
  rw [setChildren_eq_atNode, atNode_of_not_mem h]

lemma Has.perm_splice (hf : f.ids.Nodup) (h : Has id d c f) (new : Forest) :
    ((f.splice id new).entries ++ (node id d c nil).entries).Perm (f.entries ++ new.entries) := by
  rw [splice_eq_atNode]
  refine h.perm_atNode hf fun n => List.perm_iff_count.2 fun e => ?_
  simp only [entries, entries_append, List.count_append, List.count_cons, List.append_nil]
  omega

lemma Has.perm_insertBefore (hf : f.ids.Nodup) (h : Has id d c f) (new : Forest) :
    (f.insertBefore id new).entries.Perm (f.entries ++ new.entries) := by
  rw [insertBefore_eq_atNode, ← List.append_nil (entries (atNode _ _ _))]
  refine h.perm_atNode hf fun n => List.perm_iff_count.2 fun e => ?_
  simp only [entries, entries_append, List.count_append, List.count_cons, List.append_nil]
  omega

lemma Has.perm_appendTo (hf : f.ids.Nodup) (h : Has id d c f) (new : Forest) :
    (f.appendTo id new).entries.Perm (f.entries ++ new.entries) := by
  rw [appendTo_eq_atNode, ← List.append_nil (entries (atNode _ _ _))]
  refine h.perm_atNode hf fun n => List.perm_iff_count.2 fun e => ?_
  simp only [entries, entries_append, List.count_append, List.count_cons, List.append_nil]
  omega

lemma Has.perm_setChildren (hf : f.ids.Nodup) (h : Has id d c f) (new : Forest) :
    ((f.setChildren id new).entries ++ c.entries).Perm (f.entries ++ new.entries) := by
  rw [setChildren_eq_atNode]
  refine h.perm_atNode hf fun n => List.perm_iff_count.2 fun e => ?_
  simp only [entries, List.count_append, List.count_cons]
  omega

lemma Has.perm_detach (hf : f.ids.Nodup) (h : Has id d c f) :
    (f.detach id).entries.Perm f.entries := by
  rw [detach, erase, h.tree hf, entries_append]
  simpa [entries] using h.perm_splice hf nil

/-- Where the reference node and the parent are not below the child, moving keeps the nodes. -/
lemma Has.perm_move {parent : NodeId} {reference : Option NodeId} (hf : f.ids.Nodup)
    (h : Has id d c f) (hplace : ∀ p, p = reference.getD parent → p ∈ f.ids ∧ p ≠ id ∧ p ∉ c.ids) :
    (f.move parent id reference).entries.Perm f.entries := by
  have herase := h.perm_splice hf nil
  have hids : (f.erase id).ids.Nodup := by
    have := (herase.map Prod.fst).nodup_iff.2 (by simpa [entries, ← ids_eq_map] using hf)
    rw [List.map_append, ← ids_eq_map] at this
    exact (List.nodup_append'.1 this).1
  obtain ⟨hin, hne, hbelow⟩ := hplace _ rfl
  obtain ⟨d', c', htarget⟩ : ∃ d' c', Has (reference.getD parent) d' c' (f.erase id) := by
    obtain ⟨d', hd'⟩ := exists_mem_entries hin
    have hmem := herase.symm.subset (List.mem_append_left _ hd')
    simp only [entries, List.append_nil, List.mem_append, List.mem_cons, Prod.mk.injEq] at hmem
    rcases hmem with hmem | ⟨he, -⟩ | hmem
    · obtain ⟨c', hc'⟩ := exists_has hmem
      exact ⟨d', c', hc'⟩
    · exact absurd he hne
    · exact absurd (mem_ids_of_mem_entries hmem) hbelow
  have hback : ((f.erase id).entries ++ (node id d c nil).entries).Perm f.entries := by
    simpa [entries, erase] using herase
  cases reference with
  | none =>
    simp only [move, h.tree hf]
    exact (htarget.perm_appendTo hids _).trans hback
  | some r =>
    simp only [move, h.tree hf]
    exact (htarget.perm_insertBefore hids _).trans hback

lemma Has.splice (hf : f.ids.Nodup) (h : Has id d c f) (hb : Has b d' c' f) (hne : b ≠ id)
    (hbelow : b ∉ c.ids) (new : Forest) : Has b d' (c'.splice id new) (f.splice id new) := by
  simp only [splice_eq_atNode]
  refine hb.atNode_of_ne hf hne fun d₁ c₁ n hid hin => ?_
  obtain ⟨rfl, rfl⟩ := h.unique hf hid
  cases hin with
  | here => exact absurd rfl hne
  | inside hin => exact absurd hin.mem_ids hbelow
  | behind hin => exact hin.append_right new

lemma Has.appendTo (hf : f.ids.Nodup) (hb : Has b d' c' f) (hne : b ≠ id) (new : Forest) :
    Has b d' (c'.appendTo id new) (f.appendTo id new) := by
  simp only [appendTo_eq_atNode]
  refine hb.atNode_of_ne hf hne fun d₁ c₁ n _ hin => ?_
  cases hin with
  | here => exact absurd rfl hne
  | inside hin => exact .inside (hin.append_left new)
  | behind hin => exact .behind hin

lemma Has.setChildren (hf : f.ids.Nodup) (h : Has id d c f) (hb : Has b d' c' f) (hne : b ≠ id)
    (hbelow : b ∉ c.ids) (new : Forest) :
    Has b d' (c'.setChildren id new) (f.setChildren id new) := by
  simp only [setChildren_eq_atNode]
  refine hb.atNode_of_ne hf hne fun d₁ c₁ n hid hin => ?_
  obtain ⟨rfl, rfl⟩ := h.unique hf hid
  cases hin with
  | here => exact absurd rfl hne
  | inside hin => exact absurd hin.mem_ids hbelow
  | behind hin => exact .behind hin

lemma Has.setChildren_self (hf : f.ids.Nodup) (h : Has id d c f) (new : Forest) :
    Has id d new (f.setChildren id new) := by
  rw [setChildren_eq_atNode]
  exact h.of_atNode hf fun n => .here n

lemma Has.setChildren_eq (hf : f.ids.Nodup) (h : Has id d c f) : f.setChildren id c = f := by
  induction h with
  | here next => rw [Forest.setChildren, if_pos rfl]
  | @inside i _ _ _ h ih =>
    obtain ⟨hi, -, hc, -, hdisj⟩ := nodup_ids_node hf
    have hne : i ≠ id := fun he => hi (he ▸ h.mem_ids)
    rw [Forest.setChildren, if_neg hne, ih hc, setChildren_of_not_mem (hdisj _ h.mem_ids)]
  | @behind i _ c' _ h ih =>
    obtain ⟨-, hi, -, hn, hdisj⟩ := nodup_ids_node hf
    have hne : i ≠ id := fun he => hi (he ▸ h.mem_ids)
    have hnot : id ∉ c'.ids := fun hmem => hdisj _ hmem h.mem_ids
    rw [Forest.setChildren, if_neg hne, ih hn, setChildren_of_not_mem hnot]

lemma mem_entries_modify (change : NodeData → NodeData) (id : NodeId) (h : (b, d) ∈ f.entries) :
    (b, d) ∈ (f.modify id change).entries ∨
      b = id ∧ (b, change d) ∈ (f.modify id change).entries := by
  induction f with
  | nil => simp [entries] at h
  | node i d' c n ihc ihn =>
    simp only [entries, List.mem_cons, List.mem_append] at h
    rw [modify]
    split
    · next hi =>
      simp only [entries, List.mem_cons, List.mem_append, Prod.mk.injEq]
      rcases h with h | h | h
      · obtain ⟨rfl, rfl⟩ := by simpa using h
        exact Or.inr ⟨hi, Or.inl ⟨rfl, rfl⟩⟩
      · exact Or.inl (Or.inr (Or.inl h))
      · exact Or.inl (Or.inr (Or.inr h))
    · simp only [entries, List.mem_cons, List.mem_append]
      rcases h with h | h | h
      · exact Or.inl (Or.inl h)
      · refine (ihc h).imp (fun h => Or.inr (Or.inl h)) fun h => ⟨h.1, Or.inr (Or.inl h.2)⟩
      · refine (ihn h).imp (fun h => Or.inr (Or.inr h)) fun h => ⟨h.1, Or.inr (Or.inr h.2)⟩

lemma ids_modify (change : NodeData → NodeData) (f : Forest) (id : NodeId) :
    (f.modify id change).ids = f.ids := by
  induction f with
  | nil => rfl
  | node i d c n ihc ihn =>
    rw [modify]
    split
    · rfl
    · rw [ids, ids, ihc, ihn]

/-! ### The last tree -/

section LastTree

variable (hid : id ∉ f.ids)
include hid

lemma find?_last : (f ++ node id d c nil).find? id = some (d, c) := by
  rw [find?_append, find?_eq_none_iff.2 hid, find?, if_pos rfl]
  rfl

lemma tree_last : (f ++ node id d c nil).tree id = node id d c nil := by
  rw [tree, find?_last hid]

lemma erase_last : (f ++ node id d c nil).erase id = f := by
  rw [erase, splice_eq_atNode, atNode_append_of_not_mem hid, atNode, if_pos rfl]
  simp

lemma modify_last (change : NodeData → NodeData) :
    (f ++ node id d c nil).modify id change = f ++ node id (change d) c nil := by
  rw [modify_eq_atNode, atNode_append_of_not_mem hid, atNode, if_pos rfl]

lemma appendTo_last (new : Forest) :
    (f ++ node id d c nil).appendTo id new = f ++ node id d (c ++ new) nil := by
  rw [appendTo_eq_atNode, atNode_append_of_not_mem hid, atNode, if_pos rfl]

end LastTree

end MarkedMath.Forest
