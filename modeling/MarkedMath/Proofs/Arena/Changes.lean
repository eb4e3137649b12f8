import MarkedMath.Proofs.Arena.Forests

/-!
# What changes in arenas

Taking a node out of its parent and putting it into another one are two changes of slots each, to a list of
children and to a parent. What is to be seen of the nodes afterwards is said here for all nodes at once:
`Arena.detach_spec` and `Arena.attach_spec`.
-/

namespace MarkedMath.Arena

variable {a b : Arena} {id i parent child : NodeId} {up : Option NodeId}

@[simp] lemma parent?_mapChildren (a : Arena) (p : NodeId) (change : List NodeId → List NodeId) (i : NodeId) :
    (a.mapChildren p change).parent? i = a.parent? i := by
  rw [parent?, parent?, mapChildren, slots_modify, Option.bind_map]
  congr 1
  funext s
  by_cases h : p = i <;> simp [h, Slot.mapChildren]

@[simp] lemma node?_mapChildren (a : Arena) (p : NodeId) (change : List NodeId → List NodeId) (i : NodeId) :
    (a.mapChildren p change).node? i = a.node? i := by
  rw [node?, node?, data?, data?, mapChildren, slots_modify, Option.map_map, Option.map_map, Option.map_map]
  congr 1
  funext s
  by_cases h : p = i
  · cases hs : s.data <;> simp [h, Slot.mapChildren, SlotData.mapChildren, SlotData.node, hs]
  · simp [h]

lemma children_mapChildren (a : Arena) (p : NodeId) (change : List NodeId → List NodeId) (i : NodeId) :
    (a.mapChildren p change).children i =
      if i = p ∧ (a.tag? i).isSome = true then change (a.children i) else a.children i := by
  rw [children, children, tag?, node?, data?, data?, mapChildren, slots_modify]
  cases a.slots[i]? with
  | none => simp
  | some s =>
    by_cases h : p = i
    · cases hs : s.data <;>
        simp [h, Slot.mapChildren, SlotData.mapChildren, SlotData.children, SlotData.node, NodeData.tag?, hs]
    · simp [h, Ne.symm h]

lemma children_of_tag?_eq_none (h : a.tag? i = none) : a.children i = [] := by
  rw [tag?, node?] at h
  rw [children]
  cases hdata : a.data? i with
  | none => rfl
  | some s =>
    rw [hdata] at h
    cases s with
    | element => simp [SlotData.node, NodeData.tag?] at h
    | _ => rfl

section SetParent

variable (h : a.setParent id up = some b)
include h

lemma slots_setParent (i : NodeId) :
    b.slots[i]? = a.slots[i]?.map fun s => if id = i then { s with parent := up } else s := by
  rw [setParent] at h
  split at h
  · obtain rfl := Option.some.inj h
    exact slots_modify ..
  · cases h

lemma parent?_setParent (hid : id < a.size) (i : NodeId) :
    b.parent? i = if i = id then up else a.parent? i := by
  rw [parent?, parent?, slots_setParent h]
  by_cases hi : i = id
  · subst hi
    rw [if_pos rfl, List.getElem?_eq_getElem hid]
    simp
  · simp [hi, Ne.symm hi]

lemma data?_of_setParent (i : NodeId) : b.data? i = a.data? i := by
  rw [data?, data?, slots_setParent h, Option.map_map]
  congr 1
  funext s
  by_cases hi : id = i <;> simp [hi]

lemma size_setParent : b.size = a.size := by
  rw [setParent] at h
  split at h
  · obtain rfl := Option.some.inj h
    exact size_modify ..
  · cases h

lemma lt_of_setParent : id < a.size := by
  by_contra hid
  simp [setParent, hid] at h

end SetParent

/-- Taking a node out of its parent changes nothing but this, where the parents list their children. -/
lemma detach_spec (hb : a.detach id = some b) (hid : id < a.size)
    (hlisted : ∀ p, id ∈ a.children p → a.parent? id = some p) :
    b.size = a.size ∧ (∀ i, b.node? i = a.node? i) ∧
      (∀ i, b.parent? i = if i = id then none else a.parent? i) ∧
      ∀ p, b.children p = (a.children p).filter (· ≠ id) := by
  have hkept : ∀ p, a.parent? id ≠ some p → (a.children p).filter (· ≠ id) = a.children p := by
    intro p hp
    refine List.filter_eq_self.2 fun i hi => ?_
    have hne : i ≠ id := fun he => hp (hlisted p (he ▸ hi))
    simpa using hne
  rw [detach] at hb
  cases hp : a.parent? id with
  | none =>
    rw [hp] at hb
    obtain rfl := Option.some.inj hb
    refine ⟨rfl, fun _ => rfl, fun i => ?_, fun p => (hkept p (by simp [hp])).symm⟩
    split
    · next hi => rw [hi, hp]
    · rfl
  | some q =>
    rw [hp] at hb
    refine ⟨?_, fun i => ?_, fun i => ?_, fun p => ?_⟩
    · rw [size_setParent hb, size_mapChildren]
    · rw [node?, data?_of_setParent hb, ← node?, node?_mapChildren]
    · rw [parent?_setParent hb (by simpa using hid), parent?_mapChildren]
    · rw [children, data?_of_setParent hb, ← children, children_mapChildren]
      by_cases hpq : p = q
      · subst hpq
        cases htag : a.tag? p with
        | none =>
          rw [children_of_tag?_eq_none htag]
          simp
        | some tag => simp
      · rw [if_neg fun h => hpq h.1, hkept p fun he => hpq (Option.some.inj (hp.symm.trans he)).symm]

/-- Putting a child into an element changes nothing but this. -/
lemma attach_spec {index : Option Nat} (hb : a.attach parent child index = some b)
    (hparent : (a.tag? parent).isSome = true) :
    b.size = a.size ∧ (∀ i, b.node? i = a.node? i) ∧
      (∀ i, b.parent? i = if i = child then some parent else a.parent? i) ∧
      ∀ p, b.children p =
        if p = parent then (a.children p).insertIdx (index.getD (a.children p).length) child
        else a.children p := by
  rw [attach] at hb
  cases hdata : a.data? parent with
  | none => simp [tag?, node?, hdata] at hparent
  | some s =>
    cases s with
    | element tag attributes l =>
      have hl : a.children parent = l := by
        rw [children, hdata]
        rfl
      simp only [hdata] at hb
      split at hb
      · refine ⟨?_, fun i => ?_, fun i => ?_, fun p => ?_⟩
        · rw [size_setParent hb, size_mapChildren]
        · rw [node?, data?_of_setParent hb, ← node?, node?_mapChildren]
        · rw [parent?_setParent hb (lt_of_setParent hb), parent?_mapChildren]
        · rw [children, data?_of_setParent hb, ← children, children_mapChildren]
          by_cases hp : p = parent
          · rw [hp, if_pos ⟨rfl, hparent⟩, if_pos rfl, hl]
          · rw [if_neg fun h => hp h.1, if_neg hp]
      · cases hb
    | _ => simp [tag?, node?, hdata, SlotData.node, NodeData.tag?] at hparent

end MarkedMath.Arena
