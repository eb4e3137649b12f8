import MarkedMath.Proofs.Arena.Links

/-!
# Nodes made for specifications

The nodes that are made for specifications, in order, are as these say (`NodeSpec.forall₂_shapes`): an element
has each attribute once, with the value that was set last (`SetTo`), and a single text in it. Where they take
the place of a node, they stand in the document as they were made, and of the nodes that were there only the
replaced one has another parent and only its parent has other children.
-/

namespace MarkedMath

open Forest (Has)

/-! ## Attributes set one after the other -/

section Attributes

variable {name : String} {value : Text} {l : List (String × Text)}

namespace NodeData

lemma map_fst_setAttribute (name : String) (value : Text) (l : List (String × Text)) :
    (setAttribute name value l).map Prod.fst =
      if name ∈ l.map Prod.fst then l.map Prod.fst else l.map Prod.fst ++ [name] := by
  induction l with
  | nil => rfl
  | cons a l ih =>
    obtain ⟨n, v⟩ := a
    rw [setAttribute]
    by_cases hn : n = name
    · simp [hn]
    · rw [if_neg hn, List.map_cons, ih]
      by_cases hmem : name ∈ l.map Prod.fst
      · simp [hmem]
      · simp [hmem, Ne.symm hn]

lemma mem_setAttribute_iff (hl : (l.map Prod.fst).Nodup) (a : String × Text) :
    a ∈ setAttribute name value l ↔ if name = a.1 then a = (name, value) else a ∈ l := by
  induction l with
  | nil =>
    rw [setAttribute, List.mem_singleton]
    split
    · exact Iff.rfl
    · next hne => exact iff_of_false (fun he => hne (by rw [he])) List.not_mem_nil
  | cons b l ih =>
    obtain ⟨n, v⟩ := b
    rw [List.map_cons, List.nodup_cons] at hl
    rw [setAttribute]
    by_cases hn : n = name
    · subst hn
      rw [if_pos rfl, List.mem_cons]
      by_cases ha : n = a.1
      · rw [if_pos ha]
        exact or_iff_left fun hmem => hl.1 (List.mem_map.2 ⟨a, hmem, ha.symm⟩)
      · rw [if_neg ha, List.mem_cons]
        exact or_congr_left (iff_of_false (fun he => ha (by rw [he])) fun he => ha (by rw [he]))
    · rw [if_neg hn, List.mem_cons, ih hl.2, List.mem_cons]
      by_cases ha : name = a.1
      · rw [if_pos ha, if_pos ha]
        exact or_iff_right fun he => hn (by rw [ha, he])
      · rw [if_neg ha, if_neg ha]

end NodeData

/-- Attributes are what comes of setting these one after the other: of those with the same name the last
one counts, and no name is there twice. -/
structure SetTo (attributes set : List (String × Text)) : Prop where
  nodup : (set.map Prod.fst).Nodup
  mem_iff : ∀ a, a ∈ set ↔ attributes.reverse.find? (fun b => b.1 = a.1) = some a

/-- Attributes set one after the other. -/
lemma setTo_foldl (attributes : List (String × Text)) :
    SetTo attributes (attributes.foldl (fun set (n, v) => NodeData.setAttribute n v set) []) := by
  induction attributes using List.reverseRecOn with
  | nil => exact ⟨List.nodup_nil, fun a => by simp⟩
  | append_singleton attributes a ih =>
    obtain ⟨name, value⟩ := a
    rw [List.foldl_concat]
    refine ⟨?_, fun a => ?_⟩
    · rw [NodeData.map_fst_setAttribute]
      split
      · exact ih.nodup
      · next hnew =>
        rw [← List.concat_eq_append]
        exact ih.nodup.concat hnew
    · rw [NodeData.mem_setAttribute_iff ih.nodup, List.reverse_concat]
      by_cases ha : name = a.1
      · rw [if_pos ha, List.find?_cons_of_pos (by simpa using ha), Option.some_inj, eq_comm]
      · rw [if_neg ha, List.find?_cons_of_neg (by simpa using ha), ih.mem_iff]

end Attributes

/-! ## New nodes -/

section Shapes

variable {f g : Forest} {i : NodeId} {spec : NodeSpec}

/-- A node is as the specification says. -/
def Forest.Shapes (f : Forest) (i : NodeId) : NodeSpec → Prop
  | .text data => Has i (.text data) .nil f
  | .element tag attributes content => ∃ set t, SetTo attributes set ∧
      Has i (.element (lowerName tag) set) (.leaf t (.text content)) f

lemma Forest.Shapes.imp (h : f.Shapes i spec) (hfg : ∀ e c, Has i e c f → Has i e c g) : g.Shapes i spec := by
  cases spec with
  | text data => exact hfg _ _ h
  | element tag attributes content =>
    obtain ⟨set, t, hset, hhas⟩ := h
    exact ⟨set, t, hset, hfg _ _ hhas⟩

lemma NodeSpec.shapes_build (fresh : NodeId) (spec : NodeSpec) : (spec.build fresh).1.Shapes fresh spec := by
  cases spec with
  | text data => exact .here _
  | element tag attributes content => exact ⟨_, _, setTo_foldl attributes, .here _⟩

/-- The new nodes are as the specifications say, and below them stand only the nodes that these ask for. -/
lemma NodeSpec.forall₂_shapes (fresh : NodeId) (specs : List NodeSpec) :
    List.Forall₂ ((buildAll fresh specs).1.Shapes) (buildAll fresh specs).1.roots specs ∧
      ∀ j ∈ (buildAll fresh specs).1.ids, j ∈ (buildAll fresh specs).1.roots ∨
        ∃ i ∈ (buildAll fresh specs).1.roots, ∃ e u, Has i e (.leaf j u) (buildAll fresh specs).1 := by
  induction specs generalizing fresh with
  | nil => exact ⟨.nil, fun j hj => absurd hj List.not_mem_nil⟩
  | cons spec specs ih =>
    obtain ⟨hshapes, hbelow⟩ := ih (spec.build fresh).2
    rw [buildAll]
    simp only [Forest.roots_append, Forest.ids_append, roots_build]
    refine ⟨.cons ((shapes_build fresh spec).imp fun _ _ hhas => hhas.append_left _) ?_, fun j hj => ?_⟩
    · exact hshapes.imp fun _ _ h => h.imp fun _ _ hhas => hhas.append_right _
    · rcases List.mem_append.1 hj with hj | hj
      · cases spec with
        | text data =>
          simp only [build, Forest.leaf, Forest.ids, List.append_nil] at hj
          exact Or.inl (List.mem_append_left _ hj)
        | element tag attributes content =>
          simp only [build, Forest.leaf, Forest.ids, List.append_nil, List.mem_cons, List.not_mem_nil,
            or_false] at hj
          rcases hj with rfl | rfl
          · exact Or.inl (by simp)
          · exact Or.inr ⟨fresh, by simp, _, _, (Has.here _).append_left _⟩
      · rcases hbelow j hj with hj | ⟨i, hi, e, u, hhas⟩
        · exact Or.inl (List.mem_append_right _ hj)
        · exact Or.inr ⟨i, List.mem_append_right _ hi, e, u, hhas.append_right _⟩

end Shapes

/-! ## New nodes in the place of a node -/

namespace Document

variable {d d' : Document} {id i : NodeId} {e : NodeData} {c : Forest} {specs : List NodeSpec}

lemma replaceText_eq_ok_iff : d.replaceText id specs = .ok d' ↔ ∃ p, d.parent? id = some p ∧
    d' = ({ d with
      forest := d.forest.splice id (NodeSpec.buildAll d.fresh specs).1 ++ d.forest.tree id
      fresh := (NodeSpec.buildAll d.fresh specs).2 } : Document).noteInsertions p
        (NodeSpec.buildAll d.fresh specs).1.roots := by
  rw [replaceText]
  cases d.parent? id with
  | none => simp
  | some p => simp [eq_comm]

lemma exists_has_replaced (hok : d.replaceText id specs = .ok d') : ∃ data below, Has id data below d.forest ∧
    d'.forest = d.forest.splice id (NodeSpec.buildAll d.fresh specs).1 ++ d.forest.tree id := by
  obtain ⟨p, hp, rfl⟩ := replaceText_eq_ok_iff.1 hok
  obtain ⟨data, below, hhas⟩ := Forest.exists_has_of_mem_ids (Forest.mem_ids_of_parent? hp).1
  exact ⟨data, below, hhas, noteInsertions_forest ..⟩

section ReplaceText

variable (hd : d.WellFormed) (hok : d.replaceText id specs = .ok d')
include hd hok

/-- New nodes stand in the document as they were made. -/
lemma has_replaceText_of_new (h : Has i e c (NodeSpec.buildAll d.fresh specs).1) : Has i e c d'.forest := by
  obtain ⟨data, below, hhas, hforest⟩ := exists_has_replaced hok
  rw [hforest]
  exact (hhas.has_splice hd.nodup h).append_left _

lemma has_replaceText_of_old (h : Has i e c d.forest) : ∃ c', Has i e c' d'.forest ∧
    c'.roots = exchange id (NodeSpec.buildAll d.fresh specs).1.roots c.roots := by
  obtain ⟨data, below, hhas, hforest⟩ := exists_has_replaced hok
  rw [hforest]
  exact hhas.exists_has_leave hd.nodup h _

variable (hi : i ∈ d.forest.ids)
include hi

lemma data?_replaceText : d'.data? i = d.data? i := by
  obtain ⟨e, c, h⟩ := Forest.exists_has_of_mem_ids hi
  obtain ⟨c', h', -⟩ := has_replaceText_of_old hd hok h
  exact (h'.data? (follows_replaceText hd hok).wellFormed.nodup).trans (h.data? hd.nodup).symm

lemma children_replaceText :
    d'.children i = exchange id (NodeSpec.buildAll d.fresh specs).1.roots (d.children i) := by
  obtain ⟨e, c, h⟩ := Forest.exists_has_of_mem_ids hi
  obtain ⟨c', h', hroots⟩ := has_replaceText_of_old hd hok h
  rw [children, children, h'.childrenOf (follows_replaceText hd hok).wellFormed.nodup, h.childrenOf hd.nodup,
    hroots]

lemma parent?_replaceText : d'.parent? i = if i = id then none else d.parent? i := by
  have hd' := (follows_replaceText hd hok).wellFormed
  obtain ⟨data, below, hhas, hforest⟩ := exists_has_replaced hok
  by_cases hid : i = id
  · -- the replaced node has become a root
    rw [if_pos hid, hid]
    refine Forest.parent?_of_mem_roots hd'.nodup ?_
    rw [hforest, Forest.roots_append, hhas.tree hd.nodup]
    exact List.mem_append_right _ (List.mem_singleton_self id)
  · rw [if_neg hid]
    cases hp : d.parent? i with
    | none =>
      have hroot : i ∈ d.forest.roots :=
        (Forest.parent?_isSome_of_mem_ids hi).resolve_right (by simp [show d.forest.parent? i = none from hp])
      refine Forest.parent?_of_mem_roots hd'.nodup ?_
      rw [hforest, Forest.roots_append, Forest.roots_splice hd.nodup]
      exact List.mem_append_left _ (mem_exchange_of_ne hroot hid)
    | some q =>
      rw [← mem_children_iff hd', children_replaceText hd hok (Forest.mem_ids_of_parent? hp).2]
      exact mem_exchange_of_ne ((mem_children_iff hd).2 hp) hid

end ReplaceText

end Document

end MarkedMath
