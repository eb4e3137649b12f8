import MarkedMath.Proofs.Arena.Slots
import MarkedMath.Proofs.Documents
import MarkedMath.Proofs.Tree.Parents

/-!
# Forests in arenas

An arena holds a forest when the slot of every node says what the forest says: what the node is, which node
is its parent and which nodes are its children. What an operation does to slots is then seen to be what it
does to the forest: a splice exchanges a node for others in lists of children (`Arena.Holds.splice`).
-/

namespace MarkedMath

namespace SlotData

variable {children : List NodeId} {data : NodeData}

@[simp] lemma mapChildren_of (change : List NodeId → List NodeId) :
    (of children data).mapChildren change = of (change children) data := by
  cases data <;> rfl

@[simp] lemma node_of : (of children data).node = data := by
  cases data <;> rfl

/-- The children of a node that is no element get lost. -/
lemma children_of (h : data.isElement = true ∨ children = []) : (of children data).children = children := by
  cases data with
  | element => rfl
  | _ =>
    obtain rfl := h.resolve_left (by simp [NodeData.isElement, NodeData.tag?])
    rfl

lemma mapChildren_self {data : SlotData} {change : List NodeId → List NodeId}
    (h : change data.children = data.children) : data.mapChildren change = data := by
  cases data with
  | element tag attributes children => exact congrArg (element tag attributes) h
  | _ => rfl

end SlotData

lemma Slot.mapChildren_self {s : Slot} {change : List NodeId → List NodeId}
    (h : change s.data.children = s.data.children) : s.mapChildren change = s := by
  rw [Slot.mapChildren, SlotData.mapChildren_self h]

lemma Slot.map_mapChildren_self {s : Option Slot} {change : List NodeId → List NodeId}
    (h : ∀ t ∈ s, change t.data.children = t.data.children) : s.map (Slot.mapChildren change) = s := by
  cases s with
  | none => rfl
  | some s => rw [Option.map_some, Slot.mapChildren_self (h s rfl)]

namespace Arena

open Forest (Has)

variable {a b : Arena} {f g c new : Forest} {up : Option NodeId} {id p : NodeId} {d : Document}
  {data : NodeData}

/-! ## Slots after a change -/

lemma slots_modify (a : Arena) (id : NodeId) (change : Slot → Slot) (i : NodeId) :
    (a.modify id change).slots[i]? = a.slots[i]?.map fun s => if id = i then change s else s := by
  rw [modify, List.getElem?_modify]
  rfl

lemma slots_modify_of_ne {i : NodeId} (h : i ≠ id) (a : Arena) (change : Slot → Slot) :
    (a.modify id change).slots[i]? = a.slots[i]? := by
  simp [slots_modify, Ne.symm h]

lemma slots_modify_self (a : Arena) (id : NodeId) (change : Slot → Slot) :
    (a.modify id change).slots[id]? = a.slots[id]?.map change := by
  simp [slots_modify]

@[simp] lemma size_modify (a : Arena) (id : NodeId) (change : Slot → Slot) :
    (a.modify id change).size = a.size := by
  simp [modify, size]

@[simp] lemma size_mapChildren (a : Arena) (id : NodeId) (change : List NodeId → List NodeId) :
    (a.mapChildren id change).size = a.size :=
  size_modify ..

@[simp] lemma size_push (a : Arena) (data : NodeData) : (a.push data).size = a.size + 1 := by
  simp [push, size]

lemma setParent_eq_some (h : id < a.size) (parent : Option NodeId) :
    a.setParent id parent = some (a.modify id fun s => { s with parent }) :=
  if_pos h

/-! ## Forests in slots -/

/-- The slots of a forest's nodes say what the forest says, with `up` for the parent of the roots. -/
def Holds (a : Arena) (up : Option NodeId) : Forest → Prop
  | .nil => True
  | .node id data children next =>
    a.slots[id]? = some ⟨up, .of children.roots data⟩ ∧ a.Holds (some id) children ∧ a.Holds up next

lemma holds_append : a.Holds up (f ++ g) ↔ a.Holds up f ∧ a.Holds up g := by
  induction f with
  | nil => simp [Holds]
  | node i e c n _ ih => rw [Forest.node_append, Holds, Holds, ih, and_assoc, and_assoc]

lemma Holds.of_slots (h : a.Holds up f) (hsame : ∀ i ∈ f.ids, b.slots[i]? = a.slots[i]?) :
    b.Holds up f := by
  induction f generalizing up with
  | nil => trivial
  | node i e c n ihc ihn =>
    simp only [Forest.ids, List.mem_cons, List.mem_append] at hsame
    obtain ⟨hslot, hc, hn⟩ := h
    exact ⟨(hsame i (Or.inl rfl)).trans hslot, ihc hc fun j hj => hsame j (Or.inr (Or.inl hj)),
      ihn hn fun j hj => hsame j (Or.inr (Or.inr hj))⟩

/-- The slot of a node, and the slots below it. -/
lemma Holds.has (hf : f.ids.Nodup) (h : a.Holds up f) (hid : Has id data c f) :
    a.slots[id]? = some ⟨(f.parent? id).or up, .of c.roots data⟩ ∧ a.Holds (some id) c := by
  induction hid generalizing up with
  | here next => exact ⟨by rw [Forest.parent?_self hf, Option.none_or, h.1], h.2.1⟩
  | inside hid ih =>
    obtain ⟨-, -, hc, -, -⟩ := Forest.nodup_ids_node hf
    obtain ⟨hslot, hbelow⟩ := ih hc h.2.1
    refine ⟨?_, hbelow⟩
    rw [hslot, Forest.parent?_children hf hid.mem_ids, Option.or_assoc, Option.some_or]
  | behind hid ih =>
    obtain ⟨-, -, -, hn, -⟩ := Forest.nodup_ids_node hf
    obtain ⟨hslot, hbelow⟩ := ih hn h.2.2
    refine ⟨?_, hbelow⟩
    rw [hslot, Forest.parent?_next hf hid.mem_ids]

/-- A forest takes the place of a node: elsewhere its roots are exchanged for the node in lists of children,
and the node's parent becomes that of the roots. -/
lemma Holds.splice (hf : f.ids.Nodup) (h : a.Holds up f)
    (hkept : ∀ i ∈ (f.erase id).ids,
      b.slots[i]? = a.slots[i]?.map (Slot.mapChildren (exchange id new.roots)))
    (hnew : id ∈ f.ids → b.Holds ((f.parent? id).or up) new) : b.Holds up (f.splice id new) := by
  induction f generalizing up with
  | nil => trivial
  | node i e c n ihc ihn =>
    obtain ⟨hslot, hc, hn⟩ := h
    obtain ⟨-, hin, hcn, hnn, -⟩ := Forest.nodup_ids_node hf
    by_cases hi : i = id
    · -- the node has been found, and behind it there is none of its name
      subst hi
      rw [Forest.splice, if_pos rfl, holds_append]
      constructor
      · simpa [Forest.parent?_self hf] using hnew (by simp [Forest.ids])
      · have herase : (Forest.node i e c n).erase i = n := by
          rw [Forest.erase, Forest.splice, if_pos rfl, Forest.nil_append]
        have hrest := ihn hnn hn (fun j hj => hkept j ?_) fun hmem => absurd hmem hin
        · rwa [Forest.splice_of_not_mem hin] at hrest
        · rwa [Forest.erase, Forest.splice_of_not_mem hin, ← herase] at hj
    · have herase : (Forest.node i e c n).erase id = .node i e (c.erase id) (n.erase id) := by
        rw [Forest.erase, Forest.splice, if_neg hi]
        rfl
      simp only [herase, Forest.ids, List.mem_cons, List.mem_append] at hkept hnew
      rw [Forest.splice, if_neg hi]
      -- the slot of another node, the trees below it and those behind it
      refine ⟨?_, ihc hcn hc (fun j hj => hkept j (Or.inr (Or.inl hj))) fun hid => ?_,
        ihn hnn hn (fun j hj => hkept j (Or.inr (Or.inr hj))) fun hid => ?_⟩
      · rw [hkept i (Or.inl rfl), hslot, Option.map_some, Slot.mapChildren, SlotData.mapChildren_of,
          Forest.roots_splice hcn]
      · have hid' := hnew (Or.inr (Or.inl hid))
        rwa [Forest.parent?_children hf hid, Option.or_assoc, Option.some_or] at hid'
      · have hid' := hnew (Or.inr (Or.inr hid))
        rwa [Forest.parent?_next hf hid] at hid'

/-- Only the parent of a node lists it. -/
lemma Holds.slots_exchange {i : NodeId} (hf : f.ids.Nodup) (h : a.Holds up f) (hi : i ∈ f.ids)
    (hparent : f.parent? id ≠ some i) (others : List NodeId) :
    a.slots[i]?.map (Slot.mapChildren (exchange id others)) = a.slots[i]? := by
  refine Slot.map_mapChildren_self fun s hs => ?_
  obtain ⟨e, c, hhas⟩ := Forest.exists_has_of_mem_ids hi
  obtain rfl : s = _ := Option.some.inj (hs.symm.trans (h.has hf hhas).1)
  refine exchange_of_not_mem (fun hmem => hparent (hhas.parent?_eq hf ?_)) others
  cases e with
  | element => exact hmem
  | _ => simp [SlotData.of, SlotData.children] at hmem

/-- Nothing changes where the node does not stand. -/
lemma Holds.exchange_of_not_mem (hf : f.ids.Nodup) (h : a.Holds up f) (hid : id ∉ f.ids)
    {others : List NodeId}
    (hsame : ∀ i ∈ f.ids, b.slots[i]? = a.slots[i]?.map (Slot.mapChildren (exchange id others))) :
    b.Holds up f := by
  refine h.of_slots fun i hi => (hsame i hi).trans (h.slots_exchange hf hi ?_ others)
  simp [Forest.parent?_of_not_mem hid]

/-- The slot of a node is changed, but for its parent. -/
lemma Holds.renew {data' : NodeData} {c' : Forest} (hf : f.ids.Nodup) (h : a.Holds up f)
    (hkept : ∀ i ∈ (f.erase id).ids, b.slots[i]? = a.slots[i]?)
    (hslot : b.slots[id]? = some ⟨(f.parent? id).or up, .of c'.roots data'⟩)
    (hbelow : b.Holds (some id) c') : b.Holds up (f.splice id (.node id data' c' .nil)) := by
  refine h.splice hf (fun i hi => ?_) fun _ => ⟨hslot, hbelow, trivial⟩
  exact (hkept i hi).trans (Slot.map_mapChildren_self fun s _ => exchange_self id s.data.children).symm

/-! ## Documents in arenas -/

/-- The arena has a slot for each node of a document and holds its forest. -/
structure Represents (a : Arena) (d : Document) : Prop where
  /-- There is a slot for each number. -/
  size_eq : a.size = d.fresh
  /-- Every number is the number of a node. -/
  complete : ∀ id < d.fresh, id ∈ d.forest.ids
  /-- The slots say what the forest says. -/
  holds : a.Holds none d.forest

namespace Represents

lemma mem_ids_iff (h : a.Represents d) (hd : d.WellFormed) : id ∈ d.forest.ids ↔ id < a.size := by
  rw [h.size_eq]
  exact ⟨hd.lt_fresh id, h.complete id⟩

lemma slot (h : a.Represents d) (hd : d.WellFormed) (hid : Has id data c d.forest) :
    a.slots[id]? = some ⟨d.forest.parent? id, .of c.roots data⟩ := by
  rw [(h.holds.has hd.nodup hid).1, Option.or_none]

lemma slot_of_not_mem (h : a.Represents d) (hd : d.WellFormed) (hid : id ∉ d.forest.ids) :
    a.slots[id]? = none := by
  rw [h.mem_ids_iff hd] at hid
  exact List.getElem?_eq_none (Nat.not_lt.1 hid)

lemma parent?_eq (h : a.Represents d) (hd : d.WellFormed) (id : NodeId) : a.parent? id = d.parent? id := by
  rw [Arena.parent?, Document.parent?]
  by_cases hid : id ∈ d.forest.ids
  · obtain ⟨data, c, hhas⟩ := Forest.exists_has_of_mem_ids hid
    rw [h.slot hd hhas, Option.bind_some]
  · rw [h.slot_of_not_mem hd hid, Forest.parent?_of_not_mem hid, Option.bind_none]

lemma node?_eq (h : a.Represents d) (hd : d.WellFormed) (id : NodeId) : a.node? id = d.data? id := by
  rw [node?, Arena.data?, Document.data?]
  by_cases hid : id ∈ d.forest.ids
  · obtain ⟨data, c, hhas⟩ := Forest.exists_has_of_mem_ids hid
    rw [h.slot hd hhas, hhas.data? hd.nodup, Option.map_some, Option.map_some, SlotData.node_of]
  · rw [h.slot_of_not_mem hd hid, Forest.data?, Forest.find?_eq_none_iff.2 hid]
    rfl

lemma children_eq (h : a.Represents d) (hd : d.WellFormed) (id : NodeId) :
    a.children id = d.children id := by
  rw [Arena.children, Arena.data?, Document.children]
  by_cases hid : id ∈ d.forest.ids
  · obtain ⟨data, c, hhas⟩ := Forest.exists_has_of_mem_ids hid
    have hroots : data.isElement = true ∨ c.roots = [] :=
      (hhas.proper hd.proper).1.imp_right (congrArg Forest.roots)
    rw [h.slot hd hhas, hhas.childrenOf hd.nodup, Option.map_some, Option.map_some, Option.getD_some,
      SlotData.children_of hroots]
  · rw [h.slot_of_not_mem hd hid, Forest.childrenOf, Forest.find?_eq_none_iff.2 hid]
    rfl

lemma tag?_eq (h : a.Represents d) (hd : d.WellFormed) (id : NodeId) : a.tag? id = d.tag? id := by
  rw [Arena.tag?, Document.tag?, h.node?_eq hd]

/-- Where the observers and the state of loading do not matter. -/
lemma of_forest {d' : Document} (h : a.Represents d) (hforest : d'.forest = d.forest)
    (hfresh : d'.fresh = d.fresh) : a.Represents d' :=
  ⟨hfresh ▸ h.size_eq, hfresh ▸ hforest ▸ h.complete, hforest ▸ h.holds⟩

/-- The nodes stay, and so do the slots. -/
lemma of_perm {d' : Document} (h : a.Represents d) (hsize : b.size = a.size)
    (hfresh : d'.fresh = d.fresh) (hids : d'.forest.ids.Perm d.forest.ids)
    (hholds : b.Holds none d'.forest) : b.Represents d' where
  size_eq := by rw [hsize, h.size_eq, hfresh]
  complete id hid := hids.symm.subset (h.complete id (hfresh ▸ hid))
  holds := hholds

end Represents

end Arena

end MarkedMath
