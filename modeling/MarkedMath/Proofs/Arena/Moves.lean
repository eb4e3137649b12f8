import MarkedMath.Proofs.Arena.Links

/-!
# Moving nodes in arenas

Making, changing, detaching and inserting nodes in an arena that represents a document gives an arena that
represents the document after the same operation. None of this asks for a slot that is not there, and an
insertion is refused for the same fault.
-/

namespace MarkedMath.Arena

open Forest (Has)

variable {a b : Arena} {f g c new : Forest} {up : Option NodeId} {id p i : NodeId} {d d' : Document}
  {data : NodeData} {change : List NodeId → List NodeId}

/-! ## Making and changing nodes -/

lemma slots_push_of_lt (h : i < a.size) (data : NodeData) : (a.push data).slots[i]? = a.slots[i]? :=
  List.getElem?_append_left h

lemma slots_push_size (a : Arena) (data : NodeData) :
    (a.push data).slots[a.size]? = some ⟨none, .of [] data⟩ :=
  List.getElem?_concat_length

namespace Represents

lemma push (h : a.Represents d) (hd : d.WellFormed) (data : NodeData) :
    (a.push data).Represents (d.create data).2 where
  size_eq := by rw [size_push, h.size_eq]; rfl
  complete id hid := by
    rw [Document.create, Forest.ids_append, List.mem_append]
    rcases Nat.lt_succ_iff_lt_or_eq.1 hid with hid | rfl
    · exact Or.inl (h.complete id hid)
    · exact Or.inr (by simp [Forest.leaf, Forest.ids])
  holds := by
    rw [Document.create, holds_append]
    refine ⟨h.holds.of_slots fun i hi => slots_push_of_lt ((h.mem_ids_iff hd).1 hi) data, ?_,
      trivial, trivial⟩
    rw [← h.size_eq]
    exact slots_push_size a data

/-- The slot of a node is changed as the node is. -/
lemma modify (h : a.Represents d) (hd : d.WellFormed) {change : NodeData → NodeData} {k : Slot → Slot}
    (hk : ∀ parent children data, k ⟨parent, .of children data⟩ = ⟨parent, .of children (change data)⟩) :
    (a.modify id k).Represents { d with forest := d.forest.modify id change } := by
  refine h.of_perm (size_modify ..) rfl (by rw [Forest.ids_modify]) ?_
  by_cases hid : id ∈ d.forest.ids
  · obtain ⟨data, c, hhas⟩ := Forest.exists_has_of_mem_ids hid
    obtain ⟨hslot, hbelow⟩ := h.holds.has hd.nodup hhas
    rw [hhas.modify_eq_splice hd.nodup]
    refine h.holds.renew hd.nodup (fun i hi => ?_) ?_ ?_
    · exact slots_modify_of_ne (hhas.of_mem_ids_erase hd.nodup hi).2.1 a k
    · rw [slots_modify_self, hslot, Option.map_some, hk]
    · refine hbelow.of_slots fun i hi => slots_modify_of_ne ?_ a k
      rintro rfl
      exact (hhas.nodup hd.nodup).1 hi
  · rw [Forest.modify_eq_atNode, Forest.atNode_of_not_mem hid]
    refine h.holds.of_slots fun i hi => slots_modify_of_ne ?_ a k
    rintro rfl
    exact hid hi

end Represents

/-! ## Leaving a place -/

/-- Other trees take the place of a node, which comes to stand alone. -/
lemma Holds.leave (hf : f.ids.Nodup) (h : a.Holds none f) (hid : Has id data c f)
    (hkept : ∀ i ∈ f.ids, i ≠ id →
      b.slots[i]? = a.slots[i]?.map (Slot.mapChildren (exchange id new.roots)))
    (hslot : b.slots[id]? = a.slots[id]?.map fun s => { s with parent := none })
    (hnew : b.Holds (f.parent? id) new) : b.Holds none (f.splice id new ++ f.tree id) := by
  obtain ⟨hslot', hbelow⟩ := h.has hf hid
  rw [holds_append, hid.tree hf]
  refine ⟨h.splice hf (fun i hi => ?_) fun _ => by rwa [Option.or_none], ?_, ?_, trivial⟩
  · obtain ⟨hi, hne, -⟩ := hid.of_mem_ids_erase hf hi
    exact hkept i hi hne
  · rw [hslot, hslot', Option.map_some]
  · obtain ⟨hnot, hc⟩ := hid.nodup hf
    exact hbelow.exchange_of_not_mem hc hnot fun i hi =>
      hkept i (hid.ids_subset hi) fun he => hnot (he ▸ hi)

namespace Represents

/-- A node that is there can be detached. -/
lemma detach (h : a.Represents d) (hd : d.WellFormed) (hid : id ∈ d.forest.ids) :
    ∃ b, a.detach id = some b ∧ b.size = a.size ∧
      b.Represents { d with forest := d.forest.detach id } := by
  obtain ⟨data, c, hhas⟩ := Forest.exists_has_of_mem_ids hid
  have hslot := h.slot hd hhas
  have hids := (hhas.perm_detach hd.nodup).map Prod.fst
  rw [← Forest.ids_eq_map, ← Forest.ids_eq_map] at hids
  have hparent := h.parent?_eq hd id
  rw [Document.parent?] at hparent
  cases hp : d.forest.parent? id with
  | none =>
    -- nobody lists a node without parent
    refine ⟨a, by rw [Arena.detach, hparent, hp], rfl, h.of_perm rfl rfl hids ?_⟩
    refine h.holds.leave hd.nodup hhas (fun i hi _ => ?_) ?_ trivial
    · exact (h.holds.slots_exchange hd.nodup hi (by simp [hp]) _).symm
    · rw [hslot, hp, Option.map_some]
  | some p =>
    have hne := Forest.ne_of_parent? hd.nodup hp
    have hlt : id < (a.mapChildren p fun l => l.filter (· ≠ id)).size := by
      rw [size_mapChildren]
      exact (h.mem_ids_iff hd).1 hid
    refine ⟨_, by rw [Arena.detach, hparent, hp]; exact setParent_eq_some hlt none, by simp, ?_⟩
    refine h.of_perm (by simp) rfl hids (h.holds.leave hd.nodup hhas (fun i hi hi' => ?_) ?_ trivial)
    · rw [slots_modify_of_ne hi', mapChildren]
      by_cases hip : i = p
      · subst hip
        have hfilter : (fun l => l.filter (· ≠ id)) = exchange id [] :=
          funext fun l => (exchange_nil id l).symm
        rw [slots_modify_self, hfilter]
        rfl
      · rw [slots_modify_of_ne hip, h.holds.slots_exchange hd.nodup hi (by simpa [hp] using Ne.symm hip)]
    · rw [slots_modify_self, mapChildren, slots_modify_of_ne hne.symm]

end Represents

/-! ## Coming into a place -/

section Attach

variable {tag : String} {attributes : List (String × Text)} {parent child : NodeId} {moved siblings : Forest}

/-- What attaching does to the slots: the parent lists the child at the index, and the child has the
parent. -/
lemma attach_eq_some {index : Option Nat} {l : List NodeId}
    (hparent : a.data? parent = some (.element tag attributes l)) (hchild : child < a.size)
    (hindex : index.getD l.length ≤ l.length) :
    a.attach parent child index =
      some ((a.mapChildren parent fun l' => l'.insertIdx (index.getD l.length) child).modify child
        fun s => { s with parent := some parent }) := by
  simp only [attach, hparent, if_pos hindex]
  exact setParent_eq_some (by simpa using hchild) _

/-- The slots after a node without parent, the last one of a forest, was put among the children of an
element. -/
lemma Holds.attached (hf : (g ++ .node child data moved .nil).ids.Nodup)
    (h : a.Holds none (g ++ .node child data moved .nil))
    (hparent : Has parent (.element tag attributes) siblings g)
    (hb : b = (a.mapChildren parent change).modify child fun s => { s with parent := some parent }) :
    (∀ i ∈ g.ids, i ≠ parent → b.slots[i]? = a.slots[i]?) ∧
      b.slots[parent]? = some ⟨g.parent? parent, .of (change siblings.roots) (.element tag attributes)⟩ ∧
      b.Holds (some parent) siblings ∧ b.Holds (some parent) (.node child data moved .nil) := by
  obtain ⟨hg, htree, hdisj⟩ := Forest.nodup_ids_append.1 hf
  obtain ⟨hfirst, hslot, hmoved, -⟩ := holds_append.1 h
  obtain ⟨hparentSlot, hsiblings⟩ := hfirst.has hg hparent
  have hchild : child ∉ g.ids := fun hmem => hdisj hmem (by simp [Forest.ids])
  have hne : parent ≠ child := fun he => hchild (he ▸ hparent.mem_ids)
  have hsame : ∀ i, i ≠ parent → i ≠ child → b.slots[i]? = a.slots[i]? := by
    intro i hp hc
    rw [hb, slots_modify_of_ne hc, mapChildren, slots_modify_of_ne hp]
  have hkept : ∀ i ∈ g.ids, i ≠ parent → b.slots[i]? = a.slots[i]? := fun i hi hp =>
    hsame i hp fun he => hchild (he ▸ hi)
  refine ⟨hkept, ?_, ?_, ?_, ?_, trivial⟩
  · rw [hb, slots_modify_of_ne hne, mapChildren, slots_modify_self, hparentSlot, Option.map_some,
      Slot.mapChildren, SlotData.mapChildren_of, Option.or_none]
  · refine hsiblings.of_slots fun i hi => hkept i (hparent.ids_subset hi) ?_
    rintro rfl
    exact (hparent.nodup hg).1 hi
  · rw [hb, slots_modify_self, mapChildren, slots_modify_of_ne hne.symm, hslot, Option.map_some]
  · refine hmoved.of_slots fun i hi => hsame i ?_ ?_
    · rintro rfl
      exact hdisj hparent.mem_ids (by simp [Forest.ids, hi])
    · rintro rfl
      exact (Forest.nodup_ids_node htree).1 hi

variable (hf : (g ++ .node child data moved .nil).ids.Nodup)
  (h : a.Holds none (g ++ .node child data moved .nil))
  (hparent : Has parent (.element tag attributes) siblings g)
include hf h hparent

lemma Holds.data?_parent : a.data? parent = some (.element tag attributes siblings.roots) := by
  have hg := (Forest.nodup_ids_append.1 hf).1
  rw [data?, ((holds_append.1 h).1.has hg hparent).1]
  rfl

variable (hchild : child < a.size)
include hchild

/-- At the end of the children. -/
lemma Holds.attach_end : ∃ b, a.attach parent child none = some b ∧ b.size = a.size ∧
    b.Holds none (g.appendTo parent (.node child data moved .nil)) := by
  have hg := (Forest.nodup_ids_append.1 hf).1
  have hattach : a.attach parent child none = _ :=
    attach_eq_some (h.data?_parent hf hparent) hchild (Nat.le_refl _)
  obtain ⟨hkept, hslot, hsiblings, hmoved⟩ := h.attached hf hparent rfl
  refine ⟨_, hattach, by simp, ?_⟩
  rw [hparent.appendTo_eq_splice hg]
  refine (holds_append.1 h).1.renew hg (fun i hi => ?_) ?_ (holds_append.2 ⟨hsiblings, hmoved⟩)
  · obtain ⟨hi, hne, -⟩ := hparent.of_mem_ids_erase hg hi
    exact hkept i hi hne
  · rw [hslot, Option.or_none, Option.getD_none, List.insertIdx_length_self, Forest.roots_append]
    rfl

/-- Right before one of the children. -/
lemma Holds.attach_before {reference : NodeId} (hreference : reference ∈ siblings.roots) :
    ∃ b, a.attach parent child (siblings.roots.idxOf? reference) = some b ∧ b.size = a.size ∧
      b.Holds none (g.insertBefore reference (.node child data moved .nil)) := by
  have hg := (Forest.nodup_ids_append.1 hf).1
  obtain ⟨index, hindex, hle, hinsert, -⟩ :=
    exists_idxOf? (Forest.nodup_roots (hparent.nodup hg).2) hreference
  have hattach : a.attach parent child (some index) = _ :=
    attach_eq_some (h.data?_parent hf hparent) hchild hle
  obtain ⟨hkept, hslot, hsiblings, hmoved⟩ := h.attached hf hparent rfl
  obtain ⟨e, below, hin⟩ := Forest.exists_has_of_mem_ids (Forest.roots_subset _ hreference)
  have hhas := hparent.trans hin
  have hup : g.parent? reference = some parent := hparent.parent?_eq hg hreference
  rw [hindex]
  refine ⟨_, hattach, by simp, ?_⟩
  rw [hhas.insertBefore_eq_splice hg]
  refine (holds_append.1 h).1.splice hg (fun i hi => ?_) fun _ => ?_
  · -- the reference node stands in the list of the parent and in no other one
    have hi' := (hhas.of_mem_ids_erase hg hi).1
    by_cases hip : i = parent
    · rw [hip, hslot, ((holds_append.1 h).1.has hg hparent).1, Option.map_some, Option.or_none,
        Slot.mapChildren, SlotData.mapChildren_of, Option.getD_some, hinsert]
      rfl
    · rw [hkept i hi' hip, (holds_append.1 h).1.slots_exchange hg hi' (by simpa [hup] using Ne.symm hip)]
  · rw [hup, Option.some_or, holds_append]
    obtain ⟨hslot', hbelow⟩ := hsiblings.has (hparent.nodup hg).2 hin
    rw [Forest.parent?_of_mem_roots (hparent.nodup hg).2 hreference, Option.none_or] at hslot'
    exact ⟨hmoved, hslot', hbelow, trivial⟩

end Attach

/-! ## Inserting -/

section Inserting

variable {parent child : NodeId} {reference : Option NodeId}

namespace Represents

/-- The checks before an insertion find the fault that the document finds. -/
lemma insert_eq (h : a.Represents d) (hd : d.WellFormed) (parent child : NodeId) (reference : Option NodeId) :
    a.insert parent child reference =
      match d.insertFault? parent child reference with
      | some fault => some (.error fault)
      | none => do
        let b ← a.detach child
        return .ok (← b.attach parent child (reference.bind fun r => (b.children parent).idxOf? r)) := by
  rw [Arena.insert, Document.insertFault?.eq_def, h.tag?_eq hd, h.meets_eq hd]
  simp only [h.parent?_eq hd]
  by_cases hparent : parent < a.size ∧ child < a.size
  · have hin : (!d.forest.contains parent || !d.forest.contains child) = false := by
      simpa [← h.mem_ids_iff hd, ← Forest.contains_iff] using hparent
    rw [if_neg (not_not.2 hparent), hin, if_neg Bool.false_ne_true]
    split
    · rfl
    · cases hwithin : d.forest.isWithin parent child with
      | true => rfl
      | false =>
        cases reference with
        | none => rfl
        | some r =>
          by_cases hr : r = child
          · simp [hr]
          · by_cases hr' : d.parent? r = some parent
            · simp [hr, hr']
            · simp [hr, hr']
  · have hin : (!d.forest.contains parent || !d.forest.contains child) = true := by
      simpa [← h.mem_ids_iff hd, ← Forest.contains_iff, or_iff_not_imp_left] using hparent
    rw [if_pos hparent, if_pos hin]

/-- What nothing is in the way of is done. -/
lemma insert (h : a.Represents d) (hd : d.WellFormed)
    (hfault : d.insertFault? parent child reference = none) :
    ∃ b, a.insert parent child reference = some (.ok b) ∧ b.Represents (d.place parent child reference) := by
  obtain ⟨data, moved, tag, attributes, hhas, hin, hne, hbelow, hreference⟩ :=
    Document.insertFault?_eq_none hd hfault
  have hplace :=
    Document.apart_of_insertFault? hd hhas (Forest.mem_ids_of_mem_entries hin) hne hbelow hreference
  obtain ⟨old, hold⟩ := Forest.exists_has hin
  -- the child leaves its place
  obtain ⟨a₁, hdetach, hsize, h₁⟩ := h.detach hd hhas.mem_ids
  have hd₁ := (Document.follows_detach hd hhas.mem_ids).wellFormed
  have hparent : Has parent (.element tag attributes) (old.erase child) (d.forest.erase child) :=
    hhas.splice hd.nodup hold hne hbelow .nil
  have hchildren : a₁.children parent = (old.erase child).roots := by
    rw [h₁.children_eq hd₁, Document.children, (hparent.append_left _).childrenOf hd₁.nodup]
  have hnodup := hd₁.nodup
  have hholds := h₁.holds
  have hchild : child < a₁.size := hsize ▸ (h.mem_ids_iff hd).1 hhas.mem_ids
  simp only [Forest.detach, hhas.tree hd.nodup] at hnodup hholds
  -- and comes into the new one
  obtain ⟨b, hattach, hsize', hb⟩ : ∃ b,
      a₁.attach parent child (reference.bind fun r => (a₁.children parent).idxOf? r) = some b ∧
      b.size = a₁.size ∧ b.Holds none (d.forest.move parent child reference) := by
    rw [hchildren]
    cases reference with
    | none =>
      rw [Forest.move, hhas.tree hd.nodup]
      exact hholds.attach_end hnodup hparent hchild
    | some r =>
      obtain ⟨hr, hup⟩ := hreference r rfl
      have hmem : r ∈ (old.erase child).roots := by
        have hr' := (Forest.mem_roots_childrenOf_iff hd.nodup).2 hup
        rw [hold.childrenOf hd.nodup] at hr'
        rw [Forest.erase, Forest.roots_splice (hold.nodup hd.nodup).2, Forest.roots, exchange_nil]
        exact List.mem_filter.2 ⟨hr', by simpa using hr⟩
      rw [Forest.move, hhas.tree hd.nodup]
      exact hholds.attach_before hnodup hparent hchild hmem
  refine ⟨b, ?_, h.of_perm (hsize'.trans hsize) rfl ?_ hb⟩
  · rw [h.insert_eq hd, hfault, hdetach]
    simp [hattach]
  · rw [Forest.ids_eq_map, Forest.ids_eq_map]
    exact (hhas.perm_move hd.nodup hplace).map Prod.fst

end Represents

end Inserting

end MarkedMath.Arena
