import MarkedMath.Proofs.Arena.Moves

/-!
# Replacing nodes in arenas

When trees without a place take the place of a node, all checks go through: the trees are there, nobody
lists them, and the parent of the node does not stand in them. Then the roots are listed where the node was,
and have its parent.
-/

namespace MarkedMath.Arena

open Forest (Has)

variable {a b : Arena} {f c new : Forest} {up : Option NodeId} {id p : NodeId} {d d' : Document}
  {data : NodeData}

/-- Parents are set one after the other. -/
lemma foldlM_setParent (parent : Option NodeId) (nodes : List NodeId) (a : Arena)
    (h : ∀ i ∈ nodes, i < a.size) :
    ∃ b, nodes.foldlM (fun b i => b.setParent i parent) a = some b ∧ b.size = a.size ∧
      ∀ i, b.slots[i]? = a.slots[i]?.map fun s => if i ∈ nodes then { s with parent } else s := by
  induction nodes generalizing a with
  | nil => exact ⟨a, rfl, rfl, fun i => by simp⟩
  | cons j nodes ih =>
    simp only [List.mem_cons, forall_eq_or_imp] at h
    obtain ⟨b, hfold, hsize, hslots⟩ := ih (a.modify j fun s => { s with parent })
      fun i hi => by rw [size_modify]; exact h.2 i hi
    refine ⟨b, ?_, hsize.trans (size_modify ..), fun i => ?_⟩
    · rw [List.foldlM_cons, setParent_eq_some h.1]
      exact hfold
    · rw [hslots]
      by_cases hi : i = j
      · subst hi
        rw [slots_modify_self]
        cases a.slots[i]? <;> simp
      · rw [slots_modify_of_ne hi]
        simp [hi]

/-- The roots get another parent. -/
lemma Holds.reparent {up' : Option NodeId} (hf : f.ids.Nodup) (h : a.Holds up f)
    (hslots : ∀ i ∈ f.ids, b.slots[i]? =
      a.slots[i]?.map fun s => if i ∈ f.roots then { s with parent := up' } else s) :
    b.Holds up' f := by
  induction f with
  | nil => trivial
  | node i e c n _ ih =>
    obtain ⟨hic, hin, -, hn, hdisj⟩ := Forest.nodup_ids_node hf
    obtain ⟨hslot, hbelow, hnext⟩ := h
    simp only [Forest.ids, Forest.roots, List.mem_cons, List.mem_append] at hslots
    refine ⟨?_, hbelow.of_slots fun j hj => ?_, ih hn hnext fun j hj => ?_⟩
    · rw [hslots i (Or.inl rfl), hslot, Option.map_some, if_pos (Or.inl rfl)]
    · have hne : j ≠ i := fun he => hic (he ▸ hj)
      have hroot : j ∉ n.roots := fun hmem => hdisj j hj (Forest.roots_subset n hmem)
      rw [hslots j (Or.inr (Or.inl hj))]
      simp [hne, hroot]
    · have hne : j ≠ i := fun he => hin (he ▸ hj)
      rw [hslots j (Or.inr (Or.inr hj))]
      simp [hne]

namespace Represents

/-- Roots other than the node, below none of which the parent stands, may take its place. -/
lemma replaceFault?_eq_none (h : a.Represents d) (hd : d.WellFormed) {checked nodes : List NodeId}
    (hnodup : (checked ++ nodes).Nodup) (hroots : ∀ i ∈ nodes, i ∈ d.forest.roots) (hid : id ∉ nodes)
    (hapart : ∀ i ∈ nodes, d.forest.isWithin p i = false) :
    a.replaceFault? id p checked nodes = some none := by
  induction nodes generalizing checked with
  | nil => rfl
  | cons i nodes ih =>
    simp only [List.mem_cons, forall_eq_or_imp, not_or] at hroots hid hapart
    have hlt : i < a.size := (h.mem_ids_iff hd).1 (Forest.roots_subset _ hroots.1)
    have hfree : ¬ (i = id ∨ (a.parent? i).isSome = true) := by
      rw [h.parent?_eq hd, Document.parent?, Forest.parent?_of_mem_roots hd.nodup hroots.1]
      simpa using Ne.symm hid.1
    have hnew : i ∉ checked := fun hmem => (List.nodup_append'.1 hnodup).2.2 hmem (List.mem_cons_self ..)
    rw [replaceFault?, if_neg (not_not.2 hlt), if_neg hfree, h.meets_eq hd, hapart.1]
    simpa [hnew] using ih (by simpa using hnodup) hroots.2 hid.2 hapart.2

/-- The last trees of a document take the place of a node that has a parent. -/
lemma replace (h : a.Represents d) (hd : d.WellFormed) (hforest : d.forest = f ++ new)
    (hid : Has id data c f) (hparent : f.parent? id = some p) :
    ∃ b, a.replace id new.roots = some (.ok (p, b)) ∧ b.size = a.size ∧
      b.Holds none (f.splice id new ++ f.tree id) := by
  obtain ⟨hf, hnew, hdisj⟩ := Forest.nodup_ids_append.1 (hforest ▸ hd.nodup)
  obtain ⟨hold, hroots⟩ := holds_append.1 (hforest ▸ h.holds)
  obtain ⟨e, siblings, hp, hmem⟩ := Forest.has_of_parent? hparent
  have hp' : Has p e siblings d.forest := hforest ▸ hp.append_left new
  have hup : a.parent? id = some p := by
    rw [h.parent?_eq hd, Document.parent?]
    exact hp'.parent?_eq hd.nodup hmem
  have hapart : ∀ i ∈ new.ids, i ∉ f.ids := fun i hi hi' => hdisj hi' hi
  have hlt : ∀ i ∈ new.roots, i < a.size := fun i hi =>
    (h.mem_ids_iff hd).1 (by simp [hforest, Forest.roots_subset new hi])
  -- the checks
  have hfault : a.replaceFault? id p [] new.roots = some none := by
    refine h.replaceFault?_eq_none hd (Forest.nodup_roots hnew) (fun i hi => by simp [hforest, hi])
      (fun hin => hapart id (Forest.roots_subset new hin) hid.mem_ids) fun i hi => ?_
    obtain ⟨e', below, hi'⟩ := Forest.exists_has_of_mem_ids (Forest.roots_subset new hi)
    have hi'' : Has i e' below d.forest := hforest ▸ hi'.append_right f
    rw [Bool.eq_false_iff, Ne, hi''.isWithin_iff hd.nodup, not_or]
    exact ⟨fun he => hapart i hi'.mem_ids (he ▸ hp.mem_ids),
      fun hin => hapart p (hi'.ids_subset hin) hp.mem_ids⟩
  have hchildren : a.children p = siblings.roots := by
    rw [h.children_eq hd, Document.children, hp'.childrenOf hd.nodup]
  obtain ⟨index, hindex, -, -, hexchange⟩ := exists_idxOf? (Forest.nodup_roots (hp.nodup hf).2) hmem
  -- the slots afterwards
  obtain ⟨b, hfold, hsize, hslots⟩ := foldlM_setParent (some p) new.roots
    ((a.mapChildren p fun l => l.take index ++ new.roots ++ l.drop (index + 1)).modify id
      fun s => { s with parent := none }) fun i hi => by simpa using hlt i hi
  have hset : (a.mapChildren p fun l => l.take index ++ new.roots ++ l.drop (index + 1)).setParent id none =
      some _ := setParent_eq_some (by simpa using (h.mem_ids_iff hd).1 (by simp [hforest, hid.mem_ids])) none
  refine ⟨b, ?_, hsize.trans (by simp), hold.leave hf hid (fun i hi hi' => ?_) ?_ ?_⟩
  · simp [Arena.replace, hup, hfault, hchildren, hindex, hset, hfold, -List.append_assoc]
  · have hroot : i ∉ new.roots := fun hin => hapart i (Forest.roots_subset new hin) hi
    rw [hslots, slots_modify_of_ne hi', mapChildren]
    by_cases hip : i = p
    · rw [hip, slots_modify_self, (hold.has hf hp).1]
      simp [hip ▸ hroot, Slot.mapChildren, hexchange, -List.append_assoc]
    · rw [slots_modify_of_ne hip, hold.slots_exchange hf hi (by simpa [hparent] using Ne.symm hip)]
      simp [hroot]
  · have hroot : id ∉ new.roots := fun hin => hapart id (Forest.roots_subset new hin) hid.mem_ids
    rw [hslots, slots_modify_self, mapChildren, slots_modify_of_ne (Forest.ne_of_parent? hf hparent).symm]
    simp [hroot, Function.comp_def]
  · rw [hparent]
    refine hroots.reparent hnew fun i hi => ?_
    have hi' : i ≠ id := fun he => hapart i hi (he ▸ hid.mem_ids)
    have hip : i ≠ p := fun he => hapart i hi (he ▸ hp.mem_ids)
    rw [hslots, slots_modify_of_ne hi', mapChildren, slots_modify_of_ne hip]

end Represents

end MarkedMath.Arena
