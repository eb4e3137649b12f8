import Mathlib.Data.List.Count
import MarkedMath.Proofs.Arena.Forests

/-!
# Links between nodes

What can be read of the links between nodes, from an arena or from a document, and what it means that they
agree: each node is listed once by its parent and by no other node, no link leads outside, only elements
have children, and both the way up and the ways down come to an end. The links of well-formed documents
agree, and so do those of the arenas that represent them. A walk upwards ends and finds whether a node lies
below another one.
-/

namespace MarkedMath

/-- The links between nodes. -/
structure Links where
  /-- How many nodes there are. -/
  size : Nat
  /-- Which nodes are elements. -/
  isElement : NodeId → Bool
  /-- The parents. -/
  parent? : NodeId → Option NodeId
  /-- The lists of children. -/
  children : NodeId → List NodeId

/-- The links agree with each other and form trees. -/
structure Links.Consistent (l : Links) : Prop where
  /-- A node is listed once by its parent and by no other node. -/
  count_children : ∀ p c, (l.children p).count c = if l.parent? c = some p then 1 else 0
  /-- Parents, and the nodes that have them, are there. -/
  parent_lt : ∀ p c, l.parent? c = some p → p < l.size ∧ c < l.size
  /-- Children, and the nodes that list them, are there. -/
  children_lt : ∀ p, ∀ c ∈ l.children p, p < l.size ∧ c < l.size
  /-- Only elements have children. -/
  isElement : ∀ p, l.children p ≠ [] → l.isElement p = true
  /-- The way from parent to parent ends. -/
  ascends : WellFounded fun p c => l.parent? c = some p
  /-- The ways from children to children end. -/
  descends : WellFounded fun c p => c ∈ l.children p

/-- The links that an arena has in its slots. -/
def Arena.links (a : Arena) : Links where
  size := a.size
  isElement id := (a.tag? id).isSome
  parent? := a.parent?
  children := a.children

namespace Document

variable {d : Document}

/-- The links between the nodes of a document. -/
def links (d : Document) : Links where
  size := d.fresh
  isElement id := (d.tag? id).isSome
  parent? := d.parent?
  children := d.children

lemma mem_children_iff (h : d.WellFormed) {p c : NodeId} : c ∈ d.children p ↔ d.parent? c = some p :=
  Forest.mem_roots_childrenOf_iff h.nodup

lemma nodup_children (h : d.WellFormed) (p : NodeId) : (d.children p).Nodup := by
  rw [children]
  by_cases hp : p ∈ d.forest.ids
  · obtain ⟨data, c, hhas⟩ := Forest.exists_has_of_mem_ids hp
    rw [hhas.childrenOf h.nodup]
    exact Forest.nodup_roots (hhas.nodup h.nodup).2
  · rw [Forest.childrenOf_of_not_mem hp]
    exact List.nodup_nil

lemma length_ids_le (h : d.WellFormed) : d.forest.ids.length ≤ d.fresh := by
  have hsub : d.forest.ids ⊆ List.range d.fresh := fun id hid => List.mem_range.2 (h.lt_fresh id hid)
  simpa using (List.subperm_of_subset h.nodup hsub).length_le

lemma lt_of_parent? (h : d.WellFormed) {p c : NodeId} (hp : d.parent? c = some p) :
    p < d.fresh ∧ c < d.fresh :=
  have hin := Forest.mem_ids_of_parent? hp
  ⟨h.lt_fresh p hin.2, h.lt_fresh c hin.1⟩

lemma isElement_of_children (h : d.WellFormed) {p : NodeId} (hp : d.children p ≠ []) :
    (d.tag? p).isSome = true := by
  by_cases hin : p ∈ d.forest.ids
  · obtain ⟨data, c, hhas⟩ := Forest.exists_has_of_mem_ids hin
    rw [tag?, data?, hhas.data? h.nodup]
    refine (hhas.proper h.proper).1.resolve_right ?_
    rintro rfl
    exact hp (by rw [children, hhas.childrenOf h.nodup]; rfl)
  · exact absurd (by rw [children, Forest.childrenOf_of_not_mem hin]; rfl) hp

/-- **The links of a well-formed document agree.** -/
theorem WellFormed.consistent (h : d.WellFormed) : d.links.Consistent where
  count_children p c := by
    show (d.children p).count c = if d.parent? c = some p then 1 else 0
    rw [List.Nodup.count (nodup_children h p)]
    exact if_congr (mem_children_iff h) rfl rfl
  parent_lt p c hp := lt_of_parent? h hp
  children_lt p c hc := lt_of_parent? h ((mem_children_iff h).1 hc)
  isElement p hp := isElement_of_children h hp
  ascends := by
    -- the nodes that do not stand below a node get fewer on the way up
    refine Subrelation.wf ?_
      (measure fun id => d.forest.ids.length - (d.forest.childrenOf id).ids.length).wf
    intro p c hp
    have hlt := Forest.length_childrenOf_lt h.nodup hp
    have hle := Forest.length_childrenOf_le h.nodup p
    show d.forest.ids.length - _ < d.forest.ids.length - _
    omega
  descends := by
    refine Subrelation.wf ?_ (measure fun id => (d.forest.childrenOf id).ids.length).wf
    intro c p hc
    exact Forest.length_childrenOf_lt h.nodup ((mem_children_iff h).1 hc)

end Document

namespace Arena.Represents

variable {a : Arena} {d : Document}

/-- An arena has the links of the document that it represents. -/
lemma links_eq (h : a.Represents d) (hd : d.WellFormed) : a.links = d.links := by
  simp only [Arena.links, Document.links, h.size_eq, h.tag?_eq hd, funext (h.parent?_eq hd),
    funext (h.children_eq hd)]

/-- A walk upwards ends before it has been to all nodes that do not stand below its first one. -/
lemma meetsWithin_eq (h : a.Represents d) (hd : d.WellFormed) (ancestor : NodeId) {steps : Nat} {id : NodeId}
    (hsteps : d.forest.ids.length - (d.forest.childrenOf id).ids.length < steps) :
    a.meetsWithin ancestor steps (some id) = some (d.forest.isWithin id ancestor) := by
  induction steps generalizing id with
  | zero => cases hsteps
  | succ steps ih =>
    rw [meetsWithin]
    by_cases hid : id = ancestor
    · rw [if_pos hid, hid, Forest.isWithin, decide_eq_true rfl, Bool.true_or]
    · rw [if_neg hid, h.parent?_eq hd]
      cases hp : d.parent? id with
      | none => rw [meetsWithin, Forest.isWithin_of_parent?_eq_none hd.nodup hid hp]
      | some p =>
        have hlt := Forest.length_childrenOf_lt hd.nodup hp
        have hle := Forest.length_childrenOf_le hd.nodup p
        rw [ih (by omega), Forest.isWithin_parent hd.nodup hid hp]

/-- A walk upwards ends and finds whether a node lies below another one. -/
lemma meets_eq (h : a.Represents d) (hd : d.WellFormed) (ancestor id : NodeId) :
    a.meets ancestor (some id) = some (d.forest.isWithin id ancestor) := by
  have hle := Document.length_ids_le hd
  rw [meets, h.size_eq]
  exact h.meetsWithin_eq hd ancestor (by omega)

end Arena.Represents

end MarkedMath
