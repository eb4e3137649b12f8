import MarkedMath.Proofs.Documents

/-!
# Nodes that are kept

Normalizing a document and replacing its texts touch no other nodes: a node that is no text keeps its
place, and of the nodes below it those that are neither texts nor new stay the same. `Document.Keeps` says
this for the nodes of a class `q`.
-/

namespace MarkedMath

namespace Document

variable {q : NodeId → NodeData → Prop} {d d' d'' : Document} {id : NodeId} {t : Text}

/-- Below any node that is no text, the nodes of the class are the same. -/
def Keeps (q : NodeId → NodeData → Prop) (d d' : Document) : Prop :=
  ∀ b data children, data.text? = none → Forest.Has b data children d.forest →
    ∃ children', Forest.Has b data children' d'.forest ∧
      ∀ i e, q i e → ((i, e) ∈ children'.entries ↔ (i, e) ∈ children.entries)

lemma Keeps.refl (q : NodeId → NodeData → Prop) (d : Document) : Keeps q d d :=
  fun _ _ children _ h => ⟨children, h, fun _ _ _ => Iff.rfl⟩

lemma Keeps.trans (h : Keeps q d d') (h' : Keeps q d' d'') : Keeps q d d'' := by
  intro b data children hdata hhas
  obtain ⟨children', hhas', hmem⟩ := h b data children hdata hhas
  obtain ⟨children'', hhas'', hmem'⟩ := h' b data children' hdata hhas'
  exact ⟨children'', hhas'', fun i e he => (hmem' i e he).trans (hmem i e he)⟩

lemma Keeps.mono {q' : NodeId → NodeData → Prop} (h : Keeps q d d') (hq : ∀ i e, q' i e → q i e) :
    Keeps q' d d' := by
  intro b data children hdata hhas
  obtain ⟨children', hhas', hmem⟩ := h b data children hdata hhas
  exact ⟨children', hhas', fun i e he => hmem i e (hq i e he)⟩

lemma keeps_normalize (h : d.WellFormed) (hq : ∀ i t, ¬ q i (.text t)) : Keeps q d d.normalize := by
  obtain ⟨attributes, bodyChildren, hbody⟩ := h.exists_has_body
  have hproper := (hbody.proper h.proper).2
  have hbody' := has_body_normalize h hbody
  have htext : ∀ {i e}, q i e → e.text? = none := by
    intro i e he
    cases e with
    | text t => exact absurd he (hq i t)
    | _ => rfl
  intro b data children hdata hhas
  by_cases hb : b = body
  · subst hb
    obtain ⟨rfl, rfl⟩ := hbody.unique h.nodup hhas
    refine ⟨_, hbody', fun i e he => ?_⟩
    rw [← List.count_pos_iff, ← List.count_pos_iff, Forest.normalize,
      Forest.count_normalizeRun hproper (htext he)]
  · by_cases hbelow : b ∈ bodyChildren.ids
    · -- below the body: its children are normalized
      have hhas' := hbody.restrict h.nodup hhas hbelow
      have hproper' := (hhas'.proper hproper).2
      refine ⟨_, hbody'.trans (hhas'.normalizeRun hproper hdata), fun i e he => ?_⟩
      rw [← List.count_pos_iff, ← List.count_pos_iff,
        Forest.count_normalizeRun hproper' (htext he)]
    · -- elsewhere: the body with its new children may stand below it
      refine ⟨children.setChildren body bodyChildren.normalize, ?_, fun i e he => ?_⟩
      · rw [normalize, hbody.childrenOf h.nodup]
        exact (hbody.setChildren h.nodup hhas hb hbelow _).append_left _
      · by_cases hin : body ∈ children.ids
        · have hbody'' := hhas.restrict h.nodup hbody hin
          have hperm := List.perm_iff_count.1
            (hbody''.perm_setChildren (hhas.nodup h.nodup).2 bodyChildren.normalize) (i, e)
          rw [List.count_append, List.count_append, Forest.normalize,
            Forest.count_normalizeRun hproper (htext he)] at hperm
          rw [← List.count_pos_iff, ← List.count_pos_iff, Forest.normalize]
          omega
        · rw [Forest.setChildren_of_not_mem hin]

/-- Replacing a text by nodes that are not of the class keeps the class. -/
lemma keeps_splice (h : d.WellFormed) (hq : ∀ i t, ¬ q i (.text t))
    (hid : (id, .text t) ∈ d.forest.entries) {new rest : Forest}
    (hnew : ∀ i e, (i, e) ∈ new.entries → ¬ q i e)
    (hforest : d'.forest = d.forest.splice id new ++ rest) : Keeps q d d' := by
  obtain ⟨below, htext⟩ := Forest.exists_has hid
  obtain rfl := htext.eq_nil_of_text h.proper
  intro b data children hdata hhas
  have hb : b ≠ id := by
    rintro rfl
    rw [(hhas.unique h.nodup htext).1] at hdata
    simp [NodeData.text?] at hdata
  refine ⟨children.splice id new, ?_, fun i e he => ?_⟩
  · rw [hforest]
    exact (htext.splice h.nodup hhas hb (by simp [Forest.ids]) new).append_left rest
  · by_cases hin : id ∈ children.ids
    · have htext' := hhas.restrict h.nodup htext hin
      have hperm := List.perm_iff_count.1
        (htext'.perm_splice (hhas.nodup h.nodup).2 new) (i, e)
      have hne : (i, e) ∉ (Forest.node id (.text t) .nil .nil).entries := by
        rintro hmem
        obtain ⟨rfl, rfl⟩ := by simpa [Forest.entries] using hmem
        exact hq _ _ he
      rw [List.count_append, List.count_append,
        List.count_eq_zero_of_not_mem fun hmem => hnew i e hmem he,
        List.count_eq_zero_of_not_mem hne] at hperm
      rw [← List.count_pos_iff, ← List.count_pos_iff]
      omega
    · rw [Forest.splice_of_not_mem hin]

end Document

end MarkedMath
