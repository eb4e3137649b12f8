import MarkedMath.Proofs.Tree.Nodes

/-!
# Parents and children

Where no node stands twice, the parent of a node is the one among whose children it is. Every operation at
a node puts another forest in the place of the node, so what becomes of parents and children is shown for
`Forest.splice` alone.
-/

namespace MarkedMath

/-! ## Lists of children -/

/-- The list with other nodes in the place of a node. -/
def exchange (id : NodeId) (new children : List NodeId) : List NodeId :=
  children.flatMap fun i => if i = id then new else [i]

lemma exchange_of_not_mem {id : NodeId} {children : List NodeId} (h : id ∉ children) (new : List NodeId) :
    exchange id new children = children := by
  induction children with
  | nil => rfl
  | cons i children ih =>
    simp only [List.mem_cons, not_or] at h
    have hrest : (children.flatMap fun i => if i = id then new else [i]) = children := ih h.2
    rw [exchange, List.flatMap_cons, if_neg (Ne.symm h.1), hrest, List.singleton_append]

lemma exchange_cons_self {id : NodeId} {children : List NodeId} (h : id ∉ children) (new : List NodeId) :
    exchange id new (id :: children) = new ++ children := by
  have hrest := exchange_of_not_mem h new
  rw [exchange] at hrest ⊢
  rw [List.flatMap_cons, if_pos rfl, hrest]

lemma exchange_cons_of_ne {id i : NodeId} (h : i ≠ id) (new children : List NodeId) :
    exchange id new (i :: children) = i :: exchange id new children := by
  rw [exchange, List.flatMap_cons, if_neg h, exchange, List.singleton_append]

lemma exchange_self (id : NodeId) (children : List NodeId) : exchange id [id] children = children := by
  have hsame : (fun i => if i = id then [id] else [i]) = fun i => [i] := by
    funext i
    split
    · next h => rw [h]
    · rfl
  rw [exchange, hsame]
  exact List.flatMap_singleton' children

lemma exchange_nil (id : NodeId) (children : List NodeId) :
    exchange id [] children = children.filter (· ≠ id) := by
  induction children with
  | nil => rfl
  | cons i children ih =>
    by_cases h : i = id
    · rw [List.filter_cons_of_neg (by simpa using h), ← ih, exchange, List.flatMap_cons, if_pos h]
      rfl
    · rw [List.filter_cons_of_pos (by simpa using h), exchange_cons_of_ne h, ih]

lemma exchange_append_cons {id : NodeId} {before after : List NodeId} (h : (before ++ id :: after).Nodup)
    (new : List NodeId) : exchange id new (before ++ id :: after) = before ++ new ++ after := by
  obtain ⟨-, hafter, hdisj⟩ := List.nodup_append'.1 h
  have hbefore : id ∉ before := fun hmem => hdisj hmem (List.mem_cons_self ..)
  have hfirst := exchange_of_not_mem hbefore new
  rw [exchange] at hfirst ⊢
  rw [List.flatMap_append, hfirst, List.append_assoc]
  exact congrArg (before ++ ·) (exchange_cons_self (List.nodup_cons.1 hafter).1 new)

lemma mem_exchange_of_ne {id i : NodeId} {new children : List NodeId} (h : i ∈ children) (hne : i ≠ id) :
    i ∈ exchange id new children :=
  List.mem_flatMap.2 ⟨i, h, by simp [hne]⟩

/-- An exchange at the index of the node. -/
lemma exists_idxOf? {id : NodeId} {children : List NodeId} (hnodup : children.Nodup) (h : id ∈ children) :
    ∃ index, children.idxOf? id = some index ∧ index ≤ children.length ∧
      (∀ i, children.insertIdx index i = exchange id [i, id] children) ∧
      ∀ new, children.take index ++ new ++ children.drop (index + 1) = exchange id new children := by
  obtain ⟨before, after, rfl, hnot⟩ := List.eq_append_cons_of_mem h
  have hinsert : ∀ (l : List NodeId) (i : NodeId),
      (l ++ id :: after).insertIdx l.length i = l ++ i :: id :: after := by
    intro l i
    induction l with
    | nil => rfl
    | cons j l ih => rw [List.cons_append, List.length_cons, List.insertIdx_succ_cons, ih, List.cons_append]
  refine ⟨before.length, List.idxOf?_eq_some_iff.2 ⟨by simp, by simp, fun j hj => ?_⟩, by simp, fun i => ?_,
    fun new => ?_⟩
  · rw [List.getElem_append_left hj]
    rintro rfl
    exact hnot (List.getElem_mem hj)
  · rw [hinsert, exchange_append_cons hnodup, List.append_assoc]
    rfl
  · rw [exchange_append_cons hnodup]
    simp

namespace Forest

variable {f c n new : Forest} {id p i : NodeId} {d : NodeData}

/-! ## Parents -/

lemma parent?_of_not_mem (h : id ∉ f.ids) : f.parent? id = none := by
  rw [← Option.not_isSome_iff_eq_none, Option.isSome_iff_exists]
  rintro ⟨p, hp⟩
  exact h (mem_ids_of_parent? hp).1

/-- The parent of a node has it among its children. -/
lemma has_of_parent? (h : f.parent? id = some p) : ∃ d c, Has p d c f ∧ id ∈ c.roots := by
  induction f with
  | nil => simp [parent?] at h
  | node i d c n ihc ihn =>
    rw [parent?] at h
    split at h
    · next hroot =>
      obtain rfl := by simpa using h
      exact ⟨d, c, .here n, List.contains_iff_mem.1 hroot⟩
    · rcases Option.or_eq_some_iff.1 h with h | ⟨-, h⟩
      · obtain ⟨d', c', hp, hid⟩ := ihc h
        exact ⟨d', c', .inside hp, hid⟩
      · obtain ⟨d', c', hp, hid⟩ := ihn h
        exact ⟨d', c', .behind hp, hid⟩

lemma parent?_of_mem_roots (hf : f.ids.Nodup) (h : id ∈ f.roots) : f.parent? id = none := by
  rw [← Option.not_isSome_iff_eq_none, Option.isSome_iff_exists]
  rintro ⟨p, hp⟩
  obtain ⟨d, c, hhas, hid⟩ := has_of_parent? hp
  exact hhas.not_mem_roots hf (roots_subset c hid) h

lemma parent?_self (hf : (node id d c n).ids.Nodup) : (node id d c n).parent? id = none :=
  parent?_of_mem_roots hf (List.mem_cons_self ..)

/-- A node below the first root has that root as its parent when it has none below. -/
lemma parent?_children (hf : (node i d c n).ids.Nodup) (h : id ∈ c.ids) :
    (node i d c n).parent? id = (c.parent? id).or (some i) := by
  obtain ⟨-, -, hc, -, -⟩ := nodup_ids_node hf
  rw [parent?]
  split
  · next hroot => rw [parent?_of_mem_roots hc (List.contains_iff_mem.1 hroot), Option.none_or]
  · next hroot =>
    rw [List.contains_iff_mem] at hroot
    obtain ⟨p, hp⟩ := Option.isSome_iff_exists.1 ((parent?_isSome_of_mem_ids h).resolve_left hroot)
    rw [hp, Option.some_or, Option.some_or]

lemma parent?_next (hf : (node i d c n).ids.Nodup) (h : id ∈ n.ids) :
    (node i d c n).parent? id = n.parent? id := by
  obtain ⟨-, -, -, -, hdisj⟩ := nodup_ids_node hf
  have hnot : id ∉ c.ids := fun hc => hdisj _ hc h
  have hroot : ¬ c.roots.contains id = true := fun hc =>
    hnot (roots_subset c (List.contains_iff_mem.1 hc))
  rw [parent?, if_neg hroot, parent?_of_not_mem hnot, Option.none_or]

lemma Has.parent?_eq (hf : f.ids.Nodup) (h : Has p d c f) (hid : id ∈ c.roots) :
    f.parent? id = some p := by
  induction h with
  | here next => rw [parent?, if_pos (List.contains_iff_mem.2 hid)]
  | inside h ih =>
    obtain ⟨-, -, hc, -, -⟩ := nodup_ids_node hf
    rw [parent?_children hf (h.ids_subset (roots_subset _ hid)), ih hc, Option.some_or]
  | behind h ih =>
    obtain ⟨-, -, -, hn, -⟩ := nodup_ids_node hf
    rw [parent?_next hf (h.ids_subset (roots_subset _ hid)), ih hn]

lemma childrenOf_of_not_mem (h : id ∉ f.ids) : f.childrenOf id = nil := by
  rw [childrenOf, find?_eq_none_iff.2 h]
  rfl

lemma mem_roots_childrenOf_iff (hf : f.ids.Nodup) : i ∈ (f.childrenOf p).roots ↔ f.parent? i = some p := by
  constructor
  · intro h
    by_cases hp : p ∈ f.ids
    · obtain ⟨d, c, hhas⟩ := exists_has_of_mem_ids hp
      rw [hhas.childrenOf hf] at h
      exact hhas.parent?_eq hf h
    · rw [childrenOf_of_not_mem hp] at h
      simp [roots] at h
  · intro h
    obtain ⟨d, c, hhas, hi⟩ := has_of_parent? h
    rwa [hhas.childrenOf hf]

/-! ### The way up -/

lemma isWithin_iff (hf : f.ids.Nodup) :
    f.isWithin i id = true ↔ i = id ∨ ∃ d c, Has id d c f ∧ i ∈ c.ids := by
  by_cases hid : id ∈ f.ids
  · obtain ⟨d, c, hhas⟩ := exists_has_of_mem_ids hid
    rw [hhas.isWithin_iff hf]
    refine or_congr_right ⟨fun hi => ⟨d, c, hhas, hi⟩, ?_⟩
    rintro ⟨d', c', hhas', hi⟩
    exact (hhas.unique hf hhas').2 ▸ hi
  · rw [isWithin, childrenOf_of_not_mem hid]
    simp only [Bool.or_eq_true, decide_eq_true_eq, contains_iff, ids, List.not_mem_nil]
    refine or_congr_right ⟨False.elim, ?_⟩
    rintro ⟨d, c, hhas, -⟩
    exact hid hhas.mem_ids

/-- Another node lies below an ancestor when its parent does, or is that ancestor. -/
lemma isWithin_parent (hf : f.ids.Nodup) (hne : i ≠ id) (hp : f.parent? i = some p) :
    f.isWithin i id = f.isWithin p id := by
  rw [Bool.eq_iff_iff, isWithin_iff hf, isWithin_iff hf, or_iff_right hne]
  constructor
  · rintro ⟨d, c, hhas, hi⟩
    rcases hhas.parent?_within hf hi hp with rfl | hp
    · exact Or.inl rfl
    · exact Or.inr ⟨d, c, hhas, hp⟩
  · obtain ⟨d, c, hhas, hi⟩ := has_of_parent? hp
    rintro (rfl | ⟨d', c', hhas', hbelow⟩)
    · exact ⟨d, c, hhas, roots_subset c hi⟩
    · have hin := hhas'.restrict hf hhas hbelow
      exact ⟨d', c', hhas', hin.ids_subset (roots_subset c hi)⟩

lemma isWithin_of_parent?_eq_none (hf : f.ids.Nodup) (hne : i ≠ id) (hp : f.parent? i = none) :
    f.isWithin i id = false := by
  rw [Bool.eq_false_iff, Ne, isWithin_iff hf, or_iff_right hne]
  rintro ⟨d, c, hhas, hi⟩
  have hsome := hhas.parent?_isSome hi
  simp [hp] at hsome

/-- Fewer nodes stand below a child than below its parent. -/
lemma length_childrenOf_lt (hf : f.ids.Nodup) (hp : f.parent? i = some p) :
    (f.childrenOf i).ids.length < (f.childrenOf p).ids.length := by
  obtain ⟨d, c, hhas, hi⟩ := has_of_parent? hp
  obtain ⟨d', c', hhas'⟩ := exists_has_of_mem_ids (roots_subset c hi)
  have hle := hhas'.sublist.length_le
  rw [hhas.childrenOf hf, (hhas.trans hhas').childrenOf hf, ids_eq_map, ids_eq_map, List.length_map,
    List.length_map]
  simp only [entries, List.length_cons, List.append_nil] at hle
  omega

lemma ne_of_parent? (hf : f.ids.Nodup) (hp : f.parent? i = some p) : p ≠ i := by
  rintro rfl
  exact absurd (length_childrenOf_lt hf hp) (Nat.lt_irrefl _)

lemma length_childrenOf_le (hf : f.ids.Nodup) (id : NodeId) :
    (f.childrenOf id).ids.length ≤ f.ids.length := by
  by_cases hid : id ∈ f.ids
  · obtain ⟨d, c, hhas⟩ := exists_has_of_mem_ids hid
    have hle := hhas.sublist.length_le
    rw [hhas.childrenOf hf, ids_eq_map, ids_eq_map, List.length_map, List.length_map]
    simp only [entries, List.length_cons, List.append_nil] at hle
    omega
  · rw [childrenOf_of_not_mem hid]
    exact Nat.zero_le _

/-! ### Roots -/

lemma nodup_roots (hf : f.ids.Nodup) : f.roots.Nodup := by
  induction f with
  | nil => exact List.nodup_nil
  | node i d c n _ ih =>
    obtain ⟨-, hi, -, hn, -⟩ := nodup_ids_node hf
    exact List.nodup_cons.2 ⟨fun hmem => hi (roots_subset n hmem), ih hn⟩

@[simp] lemma roots_append (f g : Forest) : (f ++ g).roots = f.roots ++ g.roots := by
  induction f with
  | nil => rfl
  | node i d c n _ ih => rw [node_append, roots, roots, ih, List.cons_append]

/-! ## Operations as splices -/

lemma roots_splice (hf : f.ids.Nodup) (id : NodeId) (new : Forest) :
    (f.splice id new).roots = exchange id new.roots f.roots := by
  induction f with
  | nil => rfl
  | node i d c n _ ih =>
    obtain ⟨-, hi, -, hn, -⟩ := nodup_ids_node hf
    rw [Forest.splice]
    split
    · next h =>
      subst h
      rw [roots_append, roots, exchange_cons_self fun hmem => hi (roots_subset n hmem)]
    · next h => rw [roots, roots, ih hn, exchange_cons_of_ne h]

/-- A node keeps its data when another node leaves its place, and the other one is exchanged for what takes the
place among its children. -/
lemma Has.exists_has_leave {e : NodeData} {below : Forest} (hf : f.ids.Nodup) (hid : Has id d c f)
    (h : Has i e below f) (new : Forest) :
    ∃ below', Has i e below' (f.splice id new ++ f.tree id) ∧ below'.roots = exchange id new.roots below.roots := by
  rw [hid.tree hf]
  have hself := hid.nodup hf
  by_cases hi : i = id
  · subst hi
    obtain ⟨rfl, rfl⟩ := h.unique hf hid
    refine ⟨below, (Has.here _).append_right _, (exchange_of_not_mem ?_ _).symm⟩
    exact fun hmem => hself.1 (roots_subset _ hmem)
  · by_cases hin : i ∈ c.ids
    · have hrest := hid.restrict hf h hin
      refine ⟨below, (Has.inside hrest).append_right _, (exchange_of_not_mem ?_ _).symm⟩
      exact fun hmem => hself.1 (hrest.ids_subset (roots_subset _ hmem))
    · exact ⟨_, (hid.splice hf h hi hin new).append_left _, roots_splice (h.nodup hf).2 id new⟩

/-- What takes the place of a node stands in the forest. -/
lemma Has.has_splice {e : NodeData} {below : Forest} (hf : f.ids.Nodup) (hid : Has id d c f)
    (h : Has i e below new) : Has i e below (f.splice id new) := by
  rw [splice_eq_atNode]
  exact hid.of_atNode hf fun n => h.append_left n

lemma Has.atNode_congr {k k' : NodeData → Forest → Forest → Forest} (hf : f.ids.Nodup)
    (h : Has id d c f) (hk : ∀ n, k d c n = k' d c n) : f.atNode id k = f.atNode id k' := by
  induction h with
  | here next => rw [atNode, atNode, if_pos rfl, if_pos rfl, hk]
  | @inside i _ _ _ h ih =>
    obtain ⟨hi, -, hc, -, hdisj⟩ := nodup_ids_node hf
    have hne : i ≠ id := fun he => hi (he ▸ h.mem_ids)
    have hnot := hdisj _ h.mem_ids
    rw [atNode, atNode, if_neg hne, if_neg hne, ih hc, atNode_of_not_mem hnot, atNode_of_not_mem hnot]
  | @behind i _ c' _ h ih =>
    obtain ⟨-, hi, -, hn, hdisj⟩ := nodup_ids_node hf
    have hne : i ≠ id := fun he => hi (he ▸ h.mem_ids)
    have hnot : id ∉ c'.ids := fun hmem => hdisj _ hmem h.mem_ids
    rw [atNode, atNode, if_neg hne, if_neg hne, ih hn, atNode_of_not_mem hnot, atNode_of_not_mem hnot]

lemma Has.perm_erase (hf : f.ids.Nodup) (h : Has id d c f) :
    ((f.erase id).ids ++ (node id d c nil).ids).Perm f.ids := by
  have hperm := (h.perm_splice hf nil).map Prod.fst
  rw [List.map_append, ← ids_eq_map, ← ids_eq_map, entries, List.append_nil, ← ids_eq_map] at hperm
  exact hperm

/-- What stays when a node is taken out with all below it. -/
lemma Has.of_mem_ids_erase (hf : f.ids.Nodup) (h : Has id d c f) (hi : i ∈ (f.erase id).ids) :
    i ∈ f.ids ∧ i ≠ id ∧ i ∉ c.ids := by
  have hperm := h.perm_erase hf
  have hapart : i ∉ (node id d c nil).ids := (List.nodup_append'.1 (hperm.nodup_iff.2 hf)).2.2 hi
  simp only [ids, List.append_nil, List.mem_cons, not_or] at hapart
  exact ⟨hperm.subset (List.mem_append_left _ hi), hapart⟩

lemma Has.modify_eq_splice (hf : f.ids.Nodup) (h : Has id d c f) (change : NodeData → NodeData) :
    f.modify id change = f.splice id (node id (change d) c nil) := by
  rw [modify_eq_atNode, splice_eq_atNode]
  exact h.atNode_congr hf fun n => rfl

lemma Has.insertBefore_eq_splice (hf : f.ids.Nodup) (h : Has id d c f) (new : Forest) :
    f.insertBefore id new = f.splice id (new ++ node id d c nil) := by
  rw [insertBefore_eq_atNode, splice_eq_atNode]
  exact h.atNode_congr hf fun n => (append_assoc new (node id d c nil) n).symm

lemma Has.appendTo_eq_splice (hf : f.ids.Nodup) (h : Has id d c f) (new : Forest) :
    f.appendTo id new = f.splice id (node id d (c ++ new) nil) := by
  rw [appendTo_eq_atNode, splice_eq_atNode]
  exact h.atNode_congr hf fun n => rfl

lemma Has.setChildren_eq_splice (hf : f.ids.Nodup) (h : Has id d c f) (new : Forest) :
    f.setChildren id new = f.splice id (node id d new nil) := by
  rw [setChildren_eq_atNode, splice_eq_atNode]
  exact h.atNode_congr hf fun n => rfl

end Forest

end MarkedMath
