import MarkedMath.Proofs.Arena.Noting
import MarkedMath.Proofs.Specified

/-!
# What there is to be seen of a document

A `Scene` is all that can be asked of the nodes of a document and of the queues of its observers, read from a
document or from slots. What it means that a child was put into a parent, that a node was taken out, or that
new nodes took the place of a node, is said here of two scenes, by what is to be seen in the one and in the
other: `Scene.Inserts`, `Scene.Removes` and `Scene.Replaces`.
-/

namespace MarkedMath

/-! ## Scenes -/

/-- What there is to be seen of a document: its nodes, and what has been noted for observers. -/
structure Scene where
  /-- How many nodes there are. -/
  size : Nat
  /-- What the nodes are. -/
  node? : NodeId → Option NodeData
  /-- The parents. -/
  parent? : NodeId → Option NodeId
  /-- The lists of children. -/
  children : NodeId → List NodeId
  /-- What has been noted for each observer. -/
  queues : List (List NodeId)

/-- What there is to be seen of a document. -/
def Document.scene (d : Document) : Scene where
  size := d.fresh
  node? := d.data?
  parent? := d.parent?
  children := d.children
  queues := d.queues

/-- All but the nodes and what is noted for observers is as it was: whether the document is being loaded, who
waits for this to end, and who is told of insertions. -/
def Document.SameOtherwise (d d' : Document) : Prop :=
  d' = { d with forest := d'.forest, fresh := d'.fresh, observers := d'.observers } ∧
    d'.listeners = d.listeners

/-- What there is to be seen in the slots and the queues. -/
def Observed.scene (o : Observed) : Scene where
  size := o.arena.size
  node? := o.arena.node?
  parent? := o.arena.parent?
  children := o.arena.children
  queues := o.queues

namespace Scene

/-- The way up from a node leads to another one, or it is that one. -/
def Within (s : Scene) : NodeId → NodeId → Prop :=
  Relation.ReflTransGen fun i p => s.parent? i = some p

/-- What lets a child be put into a parent: both are there, the parent is an element, and the child is neither
the parent nor an ancestor of it. -/
structure Admits (s : Scene) (parent child : NodeId) : Prop where
  parent_lt : parent < s.size
  child_lt : child < s.size
  isElement : ∃ tag attributes, s.node? parent = some (.element tag attributes)
  apart : ¬ s.Within parent child

/-- Nodes that came into a parent are noted for every observer when the parent is the body or below it, and for
none otherwise. -/
structure Notes (s s' : Scene) (parent : NodeId) (nodes : List NodeId) : Prop where
  observed : s'.Within parent Document.body → s'.queues = s.queues.map fun q => q ++ nodes
  unobserved : ¬ s'.Within parent Document.body → s'.queues = s.queues

/-- A child was put into a parent, right before a reference node if there is one. -/
structure Inserts (s s' : Scene) (parent child : NodeId) (reference : Option NodeId) : Prop where
  /-- The nodes are what they were. -/
  size_eq : s'.size = s.size
  node?_eq : ∀ i, s'.node? i = s.node? i
  /-- The child has the parent, and no other node has another parent than before. -/
  parent?_eq : ∀ i, s'.parent? i = if i = child then some parent else s.parent? i
  /-- The child is in no other list. -/
  children_eq : ∀ p, p ≠ parent → s'.children p = (s.children p).filter (· ≠ child)
  /-- At the end of the list of the parent. -/
  at_end : reference = none → s'.children parent = (s.children parent).filter (· ≠ child) ++ [child]
  /-- Right before the reference node. -/
  before : ∀ r, reference = some r → ∃ front back,
    (s.children parent).filter (· ≠ child) = front ++ r :: back ∧
      s'.children parent = front ++ child :: r :: back
  notes : s.Notes s' parent [child]

/-- A node was taken out of its parent. -/
structure Removes (s s' : Scene) (node : NodeId) : Prop where
  size_eq : s'.size = s.size
  node?_eq : ∀ i, s'.node? i = s.node? i
  parent?_eq : ∀ i, s'.parent? i = if i = node then none else s.parent? i
  children_eq : ∀ p, s'.children p = (s.children p).filter (· ≠ node)
  queues_eq : s'.queues = s.queues

/-- A node is as the specification says, with nothing but new nodes below it. -/
def Fits (s : Scene) (base i : NodeId) : NodeSpec → Prop
  | .text data => s.node? i = some (.text data) ∧ s.children i = []
  | .element tag attributes content => ∃ set t, SetTo attributes set ∧
      s.node? i = some (.element (lowerName tag) set) ∧ s.children i = [t] ∧
      base ≤ t ∧ s.node? t = some (.text content) ∧ s.parent? t = some i ∧ s.children t = []

/-- New nodes took the place of a node. -/
structure Replaces (s s' : Scene) (node : NodeId) (specs : List NodeSpec) : Prop where
  /-- No node is gone. -/
  size_le : s.size ≤ s'.size
  /-- The nodes that were there are what they were. -/
  node?_eq : ∀ i < s.size, s'.node? i = s.node? i
  /-- The node has no parent, and the others have those that they had. -/
  parent?_eq : ∀ i < s.size, s'.parent? i = if i = node then none else s.parent? i
  /-- The new nodes, in order, are as the specifications say. They stand where the node stood, no other node
  that was there has other children, and there are no new nodes but these and those below them. -/
  place : ∃ parent front back new,
    s.parent? node = some parent ∧ s.children parent = front ++ node :: back ∧
      s'.children parent = front ++ new ++ back ∧
      (∀ p < s.size, p ≠ parent → s'.children p = s.children p) ∧
      (∀ i ∈ new, s.size ≤ i ∧ s'.parent? i = some parent) ∧ List.Forall₂ (s'.Fits s.size) new specs ∧
      (∀ i, s.size ≤ i → i < s'.size → i ∈ new ∨ ∃ p ∈ new, s'.children p = [i]) ∧ s.Notes s' parent new

end Scene

/-! ## Reading scenes -/

variable {d : Document} {i : NodeId}

lemma Observed.Shows.scene_eq {o : Observed} (h : o.Shows d) (hd : d.WellFormed) : o.scene = d.scene := by
  simp only [Observed.scene, Document.scene, h.represents.size_eq, funext (h.represents.node?_eq hd),
    funext (h.represents.parent?_eq hd), funext (h.represents.children_eq hd), h.queues_eq]

/-- A document is shown by one state only. -/
lemma Observed.Shows.unique {o o' : Observed} (h : o.Shows d) (h' : o'.Shows d) (hd : d.WellFormed) : o = o' := by
  have hslots : o.arena.slots = o'.arena.slots := by
    refine List.ext_getElem? fun i => ?_
    by_cases hi : i ∈ d.forest.ids
    · obtain ⟨data, c, hhas⟩ := Forest.exists_has_of_mem_ids hi
      rw [h.represents.slot hd hhas, h'.represents.slot hd hhas]
    · rw [h.represents.slot_of_not_mem hd hi, h'.represents.slot_of_not_mem hd hi]
  obtain ⟨⟨slots⟩, queues⟩ := o
  obtain ⟨⟨slots'⟩, queues'⟩ := o'
  obtain rfl : slots = slots' := hslots
  obtain rfl : queues = queues' := h.queues_eq.trans h'.queues_eq.symm
  rfl

/-- A walk upwards finds what the parents lead to. -/
lemma Document.isWithin_iff_within (h : d.WellFormed) (ancestor : NodeId) :
    d.forest.isWithin i ancestor = true ↔ d.scene.Within i ancestor := by
  constructor
  · induction i using h.consistent.ascends.induction with
    | _ i ih =>
      intro hin
      by_cases hi : i = ancestor
      · exact hi ▸ Relation.ReflTransGen.refl
      · cases hp : d.forest.parent? i with
        | none => simp [Forest.isWithin_of_parent?_eq_none h.nodup hi hp] at hin
        | some p =>
          rw [Forest.isWithin_parent h.nodup hi hp] at hin
          exact Relation.ReflTransGen.head hp (ih p hp hin)
  · intro hwithin
    induction hwithin using Relation.ReflTransGen.head_induction_on with
    | refl => simp [Forest.isWithin]
    | @head i p hp _ ih =>
      by_cases hi : i = ancestor
      · simp [hi, Forest.isWithin]
      · rwa [Forest.isWithin_parent h.nodup hi hp]

/-- Noting is to be seen in the queues alone. -/
lemma Document.scene_noteInsertions (d : Document) (parent : NodeId) (nodes : List NodeId) :
    (d.noteInsertions parent nodes).scene =
      { d.scene with queues := (d.noteInsertions parent nodes).queues } := by
  rw [noteInsertions]
  split <;> rfl

lemma Document.noteInsertions_otherwise (d : Document) (parent : NodeId) (nodes : List NodeId) :
    d.noteInsertions parent nodes =
      { d with
        forest := (d.noteInsertions parent nodes).forest
        fresh := (d.noteInsertions parent nodes).fresh
        observers := (d.noteInsertions parent nodes).observers } := by
  rw [noteInsertions]
  split <;> rfl

/-- Noting does with the queues what it should, whatever was to be seen before. -/
lemma Document.notes_scene {s : Scene} (hd : d.WellFormed) (hqueues : d.queues = s.queues) (parent : NodeId)
    (nodes : List NodeId) : s.Notes (d.noteInsertions parent nodes).scene parent nodes := by
  have hnoted := (follows_noteInsertions hd parent nodes).wellFormed
  have hwithin := isWithin_iff_within hnoted (i := parent) body
  rw [noteInsertions_forest] at hwithin
  have hafter := d.queues_noteInsertions parent nodes
  refine ⟨fun hin => ?_, fun hout => ?_⟩
  · rw [if_pos (hwithin.2 hin), hqueues] at hafter
    exact hafter
  · rw [if_neg fun hin => hout (hwithin.1 hin), hqueues] at hafter
    exact hafter

end MarkedMath
