import MarkedMath.Proofs.Arena.Links

/-!
# Merging texts in arenas

Normalizing an arena goes through the children of a node from left to right, and into each element that it
meets. It merges a text into the one that it kept right before. `Arena.Merges` is shown along the recursion of
`Forest.normalizeRun`, in which that text is the open run.
-/

namespace MarkedMath.Arena

open Forest (Has normalizeRun closeRun)

variable {a b : Arena} {f c n : Forest} {i k p : NodeId} {kept rest : List NodeId} {t before : Text}
  {d : Document} {run : Option (NodeId × Text)} {inner : Arena → NodeId → Option Arena}

/-! ## One child -/

lemma data?_of_slot {s : Slot} (h : a.slots[i]? = some s) : a.data? i = some s.data := by
  rw [data?, h]
  rfl

lemma data?_setParent (a : Arena) (id : NodeId) (parent : Option NodeId) (i : NodeId) :
    (a.modify id fun s => { s with parent }).data? i = a.data? i := by
  rw [data?, data?, slots_modify, Option.map_map]
  congr 1
  funext s
  by_cases h : id = i <;> simp [h]

lemma lt_size_of_data? {s : SlotData} (h : a.data? i = some s) : i < a.size := by
  obtain ⟨slot, hslot, -⟩ := Option.map_eq_some_iff.1 h
  exact (List.getElem?_eq_some_iff.1 hslot).1

lemma merge_nil (a : Arena) (kept : List NodeId) : a.merge inner kept [] = some (a, kept) := rfl

lemma merge_element {tag : String} {attributes : List (String × Text)} {children : List NodeId}
    (h : a.data? i = some (.element tag attributes children)) (hb : inner a i = some b) :
    a.merge inner kept (i :: rest) = b.merge inner (kept ++ [i]) rest := by
  rw [merge, h]
  simp [hb]

lemma merge_comment (h : a.data? i = some (.comment t)) :
    a.merge inner kept (i :: rest) = a.merge inner (kept ++ [i]) rest := by
  rw [merge, h]
  rfl

lemma merge_empty (h : a.data? i = some (.text [])) :
    a.merge inner kept (i :: rest) = (a.modify i fun s => { s with parent := none }).merge inner kept rest := by
  rw [merge, h]
  simp [setParent_eq_some (lt_size_of_data? h)]

/-- A text behind no text is kept. -/
lemma merge_first (h : a.data? i = some (.text t)) (ht : t ≠ [])
    (hlast : ∀ last ∈ kept.getLast?, ∃ s, a.data? last = some s ∧ s.node.text? = none) :
    a.merge inner kept (i :: rest) = a.merge inner (kept ++ [i]) rest := by
  rw [merge, h]
  simp only [Option.bind_eq_bind, Option.bind_some, List.isEmpty_iff, if_neg ht]
  split
  · rfl
  · next last hmem =>
    obtain ⟨s, hs, hnone⟩ := hlast last hmem
    rw [hs]
    cases s with
    | text => simp [SlotData.node, NodeData.text?] at hnone
    | _ => rfl

/-- A text right behind a text is merged into it. -/
lemma merge_next (h : a.data? i = some (.text t)) (ht : t ≠ []) (hk : a.data? k = some (.text before)) :
    a.merge inner (kept ++ [k]) (i :: rest) =
      ((a.modify k fun s => { s with data := .text (before ++ t) }).modify i
        fun s => { s with parent := none }).merge inner (kept ++ [k]) rest := by
  have hlt : i < (a.modify k fun s => { s with data := .text (before ++ t) }).size := by
    simpa using lt_size_of_data? h
  rw [merge, h]
  simp [ht, hk, setParent_eq_some hlt]

/-! ## All children -/

/-- What becomes of the slots: they hold the normal form, the dropped texts have no parents, and no other
slots are touched. -/
structure Merged (a b : Arena) (p : NodeId) (run : Option (NodeId × Text)) (f : Forest) : Prop where
  size_eq : b.size = a.size
  holds : b.Holds (some p) (normalizeRun run f).1
  dropped : ∀ e ∈ (normalizeRun run f).2, b.slots[e.1]? = some ⟨none, .text e.2⟩
  others : ∀ i, i ∉ (run.map Prod.fst).toList → i ∉ f.ids → b.slots[i]? = a.slots[i]?

lemma mem_ids_of_mem_normalizeRun (hf : f.Proper) (h : i ∈ (normalizeRun none f).1.ids) : i ∈ f.ids := by
  simpa using (Forest.perm_normalizeRun hf).subset (List.mem_append_left _ h)

lemma mem_ids_of_mem_dropped (hf : f.Proper) {e : NodeId × Text} (h : e ∈ (normalizeRun none f).2) :
    e.1 ∈ f.ids := by
  simpa using (Forest.perm_normalizeRun hf).subset
    (List.mem_append_right _ (List.mem_map_of_mem (f := Prod.fst) h))

/-- Merging texts among the children `f` of a node and below them ends, since there are not more levels than
nodes. The nodes in `kept` were kept before the open run, and when there is no open run the last of them is no
text. -/
def Merges (run : Option (NodeId × Text)) (f : Forest) : Prop :=
  ∀ (levels : Nat) (a : Arena) (p : NodeId) (kept : List NodeId), f.ids.length ≤ levels →
    ((run.map Prod.fst).toList ++ f.ids).Nodup → a.Holds (some p) f →
    (∀ r, run = some r → a.slots[r.1]? = some ⟨some p, .text r.2⟩) →
    (run = none → ∀ last ∈ kept.getLast?, ∃ s, a.data? last = some s ∧ s.node.text? = none) →
    ∃ b, a.merge (normalizeWithin levels) (kept ++ (run.map Prod.fst).toList) f.roots =
      some (b, kept ++ (normalizeRun run f).1.roots) ∧ Merged a b p run f

lemma merges_nil (run : Option (NodeId × Text)) : Merges run .nil := by
  intro levels a p kept _ _ _ hrun _
  refine ⟨a, ?_, rfl, ?_, by simp [Forest.normalizeRun_nil], fun _ _ _ => rfl⟩
  · rw [Forest.roots, merge_nil, Forest.normalizeRun_nil]
    cases run <;> rfl
  · rw [Forest.normalizeRun_nil]
    cases run with
    | none => trivial
    | some r => exact ⟨hrun r rfl, trivial, trivial⟩

/-- A node that is no text is kept, and its children are normalized. -/
lemma merge_other {e : NodeData} (he : e.text? = none) (hroot : e.isElement = true ∨ c = .nil)
    (hproper : c.Proper) (hc : c.ids.Nodup) (hic : i ∉ c.ids) (hmerges : Merges none c)
    {levels : Nat} (hlevels : c.ids.length < levels)
    (hslot : a.slots[i]? = some ⟨some p, .of c.roots e⟩) (hbelow : a.Holds (some i) c)
    (kept rest : List NodeId) :
    ∃ b : Arena, a.merge (normalizeWithin levels) kept (i :: rest) =
        b.merge (normalizeWithin levels) (kept ++ [i]) rest ∧ b.size = a.size ∧
      b.slots[i]? = some ⟨some p, .of (normalizeRun none c).1.roots e⟩ ∧
      b.Holds (some i) (normalizeRun none c).1 ∧
      (∀ r ∈ (normalizeRun none c).2, b.slots[r.1]? = some ⟨none, .text r.2⟩) ∧
      ∀ j, j ≠ i → j ∉ c.ids → b.slots[j]? = a.slots[j]? := by
  cases e with
  | text t => simp [NodeData.text?] at he
  | comment t =>
    obtain rfl := hroot.resolve_left (by simp [NodeData.isElement, NodeData.tag?])
    exact ⟨a, merge_comment (data?_of_slot hslot), rfl, hslot, trivial, by simp [Forest.normalizeRun_nil],
      fun _ _ _ => rfl⟩
  | element tag attributes =>
    obtain ⟨levels, rfl⟩ := Nat.exists_eq_add_one_of_ne_zero (Nat.ne_zero_of_lt hlevels)
    obtain ⟨b, hmerge, hb⟩ := hmerges levels a i [] (Nat.le_of_lt_succ hlevels) (by simpa using hc) hbelow
      (by simp) (by simp)
    have hchildren : a.children i = c.roots := by
      rw [children, data?_of_slot hslot]
      rfl
    have hnormalize : a.normalizeWithin (levels + 1) i =
        some (b.mapChildren i fun _ => (normalizeRun none c).1.roots) := by
      simp only [Option.map_none, Option.toList_none, List.append_nil, List.nil_append] at hmerge
      rw [normalizeWithin, hchildren, hmerge]
      rfl
    have hsame : ∀ j, j ≠ i →
        (b.mapChildren i fun _ => (normalizeRun none c).1.roots).slots[j]? = b.slots[j]? :=
      fun j hj => slots_modify_of_ne hj _ _
    have hne : ∀ j ∈ c.ids, j ≠ i := fun j hj he => hic (he ▸ hj)
    refine ⟨_, merge_element (data?_of_slot hslot) hnormalize, ?_, ?_, ?_, ?_, ?_⟩
    · rw [size_mapChildren, hb.size_eq]
    · rw [mapChildren, slots_modify_self, hb.others i (by simp) hic, hslot]
      rfl
    · exact hb.holds.of_slots fun j hj => hsame j (hne j (mem_ids_of_mem_normalizeRun hproper hj))
    · intro r hr
      rw [hsame r.1 (hne r.1 (mem_ids_of_mem_dropped hproper hr)), hb.dropped r hr]
    · intro j hj hjc
      rw [hsame j hj, hb.others j (by simp) hjc]

lemma merges_other {e : NodeData} (he : e.text? = none) (hf : (Forest.node i e c n).Proper)
    (hc : Merges none c) (hn : Merges none n) : Merges run (.node i e c n) := by
  rintro levels a p kept hlevels hnodup ⟨hslot, hbelow, hnext⟩ hrun -
  obtain ⟨hroot, hproper, -⟩ := hf
  simp only [Forest.ids, List.length_cons, List.length_append] at hlevels
  rw [Forest.ids, List.nodup_middle, List.nodup_cons, List.mem_append, List.mem_append, not_or,
    not_or] at hnodup
  obtain ⟨⟨hirun, hic, hin⟩, hnodup⟩ := hnodup
  obtain ⟨-, hcn, hrunDisj⟩ := List.nodup_append'.1 hnodup
  obtain ⟨hcnodup, hnnodup, hdisj⟩ := List.nodup_append'.1 hcn
  have hclevels : c.ids.length < levels := by omega
  obtain ⟨b₁, hstep, hsize₁, hslot₁, hholds₁, hdropped₁, hothers₁⟩ :=
    merge_other he hroot hproper hcnodup hic hc hclevels hslot hbelow
      (kept ++ (run.map Prod.fst).toList) n.roots
  -- what comes behind the node starts without an open run
  obtain ⟨b, hmerge, hb⟩ := hn levels b₁ p (kept ++ (run.map Prod.fst).toList ++ [i]) (by omega)
    (by simpa using hnnodup)
    (hnext.of_slots fun j hj => hothers₁ j (fun he => hin (he ▸ hj)) fun hjc => hdisj hjc hj) (by simp)
    (fun _ last hmem => by
      obtain rfl : i = last := by simpa using hmem
      exact ⟨_, data?_of_slot hslot₁, by rwa [SlotData.node_of]⟩)
  simp only [Option.map_none, Option.toList_none, List.append_nil] at hmerge
  have heq : normalizeRun run (.node i e c n) = _ := Forest.normalizeRun_of_isElement he
  have hkeep : ∀ j, j ∉ n.ids → b.slots[j]? = b₁.slots[j]? := fun j hj => hb.others j (by simp) hj
  have hapart : ∀ j ∈ c.ids, j ∉ n.ids := fun j hj hj' => hdisj hj hj'
  refine ⟨b, ?_, hb.size_eq.trans hsize₁, ?_, ?_, ?_⟩
  · rw [Forest.roots, hstep, heq, hmerge]
    cases run <;> simp [closeRun, Forest.roots]
  · have hnode : b.Holds (some p) (.node i e (normalizeRun none c).1 (normalizeRun none n).1) :=
      ⟨(hkeep i hin).trans hslot₁, hholds₁.of_slots fun j hj =>
        hkeep j (hapart j (mem_ids_of_mem_normalizeRun hproper hj)), hb.holds⟩
    rw [heq]
    cases run with
    | none => exact hnode
    | some r =>
      simp only [Option.map_some, Option.toList_some, List.mem_singleton] at hirun hrunDisj
      have hrest : r.1 ∉ c.ids ++ n.ids := fun hmem => hrunDisj (List.mem_singleton_self _) hmem
      rw [List.mem_append, not_or] at hrest
      refine ⟨?_, trivial, hnode⟩
      rw [hkeep r.1 hrest.2, hothers₁ r.1 (Ne.symm hirun) hrest.1, hrun r rfl]
      rfl
  · intro r hr
    rw [heq] at hr
    rcases List.mem_append.1 hr with hr | hr
    · rw [hkeep r.1 (hapart r.1 (mem_ids_of_mem_dropped hproper hr)), hdropped₁ r hr]
    · exact hb.dropped r hr
  · intro j _ hj
    simp only [Forest.ids, List.mem_cons, List.mem_append, not_or] at hj
    rw [hkeep j hj.2.2, hothers₁ j hj.1 hj.2.1]

lemma merges_empty (hn : Merges run n) : Merges run (.node i (.text []) .nil n) := by
  rintro levels a p kept hlevels hnodup ⟨hslot, -, hnext⟩ hrun hlast
  simp only [Forest.ids, List.nil_append, List.nodup_middle, List.nodup_cons, List.mem_append,
    not_or] at hnodup
  obtain ⟨⟨hirun, hin⟩, hnodup⟩ := hnodup
  have hsame : ∀ j, j ≠ i → (a.modify i fun s => { s with parent := none }).slots[j]? = a.slots[j]? :=
    fun j hj => slots_modify_of_ne hj _ _
  obtain ⟨b, hmerge, hb⟩ := hn levels (a.modify i fun s => { s with parent := none }) p kept
    (Nat.le_of_succ_le hlevels) hnodup
    (hnext.of_slots fun j hj => hsame j fun he => hin (he ▸ hj))
    (fun r hr => by
      subst hr
      rw [hsame r.1 fun he => hirun (by simp [he])]
      exact hrun r rfl)
    (fun hnone last hmem => by
      rw [data?_setParent]
      exact hlast hnone last hmem)
  refine ⟨b, ?_, hb.size_eq.trans (size_modify ..), ?_, ?_, ?_⟩
  · rw [Forest.roots, merge_empty (data?_of_slot hslot), hmerge, Forest.normalizeRun_text_nil]
  · rw [Forest.normalizeRun_text_nil]
    exact hb.holds
  · rw [Forest.normalizeRun_text_nil]
    simp only [List.mem_cons, forall_eq_or_imp]
    refine ⟨?_, hb.dropped⟩
    rw [hb.others i hirun hin, slots_modify_self, hslot]
    rfl
  · intro j hj hj'
    simp only [Forest.ids, List.nil_append, List.mem_cons, not_or] at hj'
    rw [hb.others j hj hj'.2, hsame j hj'.1]

lemma merges_first (ht : t ≠ []) (hn : Merges (some (i, t)) n) : Merges none (.node i (.text t) .nil n) := by
  rintro levels a p kept hlevels hnodup ⟨hslot, -, hnext⟩ - hlast
  obtain ⟨b, hmerge, hb⟩ := hn levels a p kept (Nat.le_of_succ_le hlevels)
    (by simpa [Forest.ids] using hnodup) hnext
    (fun r hr => by
      obtain rfl : (i, t) = r := by simpa using hr
      exact hslot)
    (by simp)
  have heq : normalizeRun none (.node i (.text t) .nil n) = _ := Forest.normalizeRun_text_first ht
  refine ⟨b, ?_, hb.size_eq, ?_, ?_, ?_⟩
  · rw [Forest.roots, Option.map_none, Option.toList_none, List.append_nil,
      merge_first (data?_of_slot hslot) ht (hlast rfl), heq]
    exact hmerge
  · rw [heq]
    exact hb.holds
  · rw [heq]
    exact hb.dropped
  · intro j _ hj
    simp only [Forest.ids, List.nil_append, List.mem_cons, not_or] at hj
    exact hb.others j (by simpa using hj.1) hj.2

lemma merges_next (ht : t ≠ []) (hn : Merges (some (k, before ++ t)) n) :
    Merges (some (k, before)) (.node i (.text t) .nil n) := by
  rintro levels a p kept hlevels hnodup ⟨hslot, -, hnext⟩ hrun -
  have hk := hrun (k, before) rfl
  -- the text before grows by this one, which is left without a parent
  simp only [Forest.ids, List.nil_append, Option.map_some, Option.toList_some, List.singleton_append,
    List.nodup_cons, List.mem_cons, not_or] at hnodup
  obtain ⟨⟨hki, hkn⟩, hin, hnnodup⟩ := hnodup
  have hsame : ∀ j, j ≠ i → j ≠ k → ((a.modify k fun s => { s with data := .text (before ++ t) }).modify i
      fun s => { s with parent := none }).slots[j]? = a.slots[j]? := fun j hj hj' => by
    rw [slots_modify_of_ne hj, slots_modify_of_ne hj']
  obtain ⟨b, hmerge, hb⟩ := hn levels ((a.modify k fun s => { s with data := .text (before ++ t) }).modify i
      fun s => { s with parent := none }) p kept (Nat.le_of_succ_le hlevels) (by simpa using ⟨hkn, hnnodup⟩)
    (hnext.of_slots fun j hj => hsame j (fun he => hin (he ▸ hj)) fun he => hkn (he ▸ hj))
    (fun r hr => by
      obtain rfl : (k, before ++ t) = r := by simpa using hr
      rw [slots_modify_of_ne hki, slots_modify_self, hk]
      rfl)
    (by simp)
  refine ⟨b, ?_, hb.size_eq.trans (by simp), ?_, ?_, ?_⟩
  · rw [Forest.roots, Option.map_some, Option.toList_some,
      merge_next (data?_of_slot hslot) ht (data?_of_slot hk), Forest.normalizeRun_text_next ht]
    exact hmerge
  · rw [Forest.normalizeRun_text_next ht]
    exact hb.holds
  · rw [Forest.normalizeRun_text_next ht]
    simp only [List.mem_cons, forall_eq_or_imp]
    refine ⟨?_, hb.dropped⟩
    rw [hb.others i (by simpa using Ne.symm hki) hin, slots_modify_self,
      slots_modify_of_ne (Ne.symm hki), hslot]
    rfl
  · intro j hj hj'
    simp only [Forest.ids, List.nil_append, List.mem_cons, not_or] at hj'
    rw [hb.others j hj hj'.2, hsame j hj'.1 (by simpa using hj)]

/-- Merging ends among the children of any node. -/
lemma merges (run : Option (NodeId × Text)) (f : Forest) (hf : f.Proper) : Merges run f := by
  induction run, f using Forest.normalizeRun_induction with
  | nil run => exact merges_nil run
  | other run i e c n he ihc ihn => exact merges_other he hf (ihc hf.2.1) (ihn hf.2.2)
  | empty run i c n ih =>
    obtain rfl := (Has.here n).eq_nil_of_text hf
    exact merges_empty (ih hf.2.2)
  | first i t c n ht ih =>
    obtain rfl := (Has.here n).eq_nil_of_text hf
    exact merges_first ht (ih hf.2.2)
  | next k before i t c n ht ih =>
    obtain rfl := (Has.here n).eq_nil_of_text hf
    exact merges_next ht (ih hf.2.2)

/-! ## The body -/

lemma holds_leaves (texts : List (NodeId × Text)) (h : ∀ e ∈ texts, a.slots[e.1]? = some ⟨none, .text e.2⟩) :
    a.Holds none (texts.foldr (fun (id, data) f => .node id (.text data) .nil f) .nil) := by
  induction texts with
  | nil => trivial
  | cons e texts ih =>
    rw [List.forall_mem_cons] at h
    exact ⟨h.1, trivial, ih h.2⟩

/-- Normalizing the body ends, and what it does to the slots is what it does to the document. -/
lemma Represents.normalize (h : a.Represents d) (hd : d.WellFormed) :
    ∃ b, a.normalize Document.body = some b ∧ b.Represents d.normalize := by
  obtain ⟨attributes, children, hbody⟩ := hd.exists_has_body
  have hproper := (hbody.proper hd.proper).2
  obtain ⟨hnot, hnodup⟩ := hbody.nodup hd.nodup
  obtain ⟨hslot, hholds⟩ := h.holds.has hd.nodup hbody
  have hlevels : children.ids.length ≤ a.size := by
    have hle := Forest.length_childrenOf_le hd.nodup Document.body
    rw [hbody.childrenOf hd.nodup] at hle
    exact h.size_eq ▸ hle.trans (Document.length_ids_le hd)
  obtain ⟨b, hmerge, hb⟩ := merges none children hproper a.size a Document.body [] hlevels
    (by simpa using hnodup) hholds (by simp) (by simp)
  simp only [Option.map_none, Option.toList_none, List.append_nil, List.nil_append] at hmerge
  have hchildren : a.children Document.body = children.roots := by
    rw [Arena.children, data?_of_slot hslot]
    rfl
  have hnormalize : a.normalize Document.body =
      some (b.mapChildren Document.body fun _ => children.normalize.roots) := by
    rw [Arena.normalize, normalizeWithin, hchildren, hmerge]
    rfl
  have hsame : ∀ j, j ≠ Document.body →
      (b.mapChildren Document.body fun _ => children.normalize.roots).slots[j]? = b.slots[j]? :=
    fun j hj => slots_modify_of_ne hj _ _
  have hne : ∀ j ∈ children.ids, j ≠ Document.body := fun j hj he => hnot (he ▸ hj)
  refine ⟨_, hnormalize, h.of_perm (by simpa using hb.size_eq) rfl (Document.perm_ids_normalize hd) ?_⟩
  rw [Document.normalize, hbody.childrenOf hd.nodup, hbody.setChildren_eq_splice hd.nodup, holds_append]
  constructor
  · refine h.holds.renew hd.nodup (fun i hi => ?_) ?_ (hb.holds.of_slots fun j hj => ?_)
    · obtain ⟨-, hne, hbelow⟩ := hbody.of_mem_ids_erase hd.nodup hi
      rw [hsame i hne, hb.others i (by simp) hbelow]
    · rw [mapChildren, slots_modify_self, hb.others _ (by simp) hnot, hslot]
      rfl
    · exact hsame j (hne j (mem_ids_of_mem_normalizeRun hproper hj))
  · refine holds_leaves _ fun e he => ?_
    rw [hsame e.1 (hne e.1 (mem_ids_of_mem_dropped hproper he)), hb.dropped e he]

end MarkedMath.Arena
