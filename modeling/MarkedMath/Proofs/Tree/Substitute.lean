import MarkedMath.Proofs.Tree.Texts

/-!
# Forests in the places of nodes

A pass puts forests in the places of text nodes one after the other. `Forest.substitute` does all of this
at once, so that what a pass makes of a forest can be read off by recursion on the forest. The bridge is
`splice_substitute`: one more node replaced is one more node substituted, as long as the forests that were
put in hold none of the nodes that are still to be replaced.
-/

namespace MarkedMath.Forest

/-- The forest with other forests in the places of the nodes for which `σ` has one. -/
def substitute (σ : NodeId → Option Forest) : Forest → Forest
  | nil => nil
  | node id data children next =>
    match σ id with
    | some new => new ++ next.substitute σ
    | none => node id data (children.substitute σ) (next.substitute σ)

variable {σ τ : NodeId → Option Forest} {f c n new : Forest} {id i : NodeId} {d : NodeData} {t : Text}

lemma substitute_of_some (h : σ id = some new) :
    (node id d c n).substitute σ = new ++ n.substitute σ := by
  simp only [substitute, h]

lemma substitute_of_none (h : σ id = none) :
    (node id d c n).substitute σ = node id d (c.substitute σ) (n.substitute σ) := by
  simp only [substitute, h]

lemma substitute_congr (h : ∀ i ∈ f.ids, σ i = τ i) : f.substitute σ = f.substitute τ := by
  induction f with
  | nil => rfl
  | node i d c n ihc ihn =>
    simp only [ids, List.mem_cons, List.mem_append, forall_eq_or_imp] at h
    rw [substitute, substitute, h.1, ihc fun j hj => h.2 j (Or.inl hj),
      ihn fun j hj => h.2 j (Or.inr hj)]

lemma substitute_none (h : ∀ i ∈ f.ids, σ i = none) : f.substitute σ = f := by
  induction f with
  | nil => rfl
  | node i d c n ihc ihn =>
    simp only [ids, List.mem_cons, List.mem_append, forall_eq_or_imp] at h
    rw [substitute_of_none h.1, ihc fun j hj => h.2 j (Or.inl hj), ihn fun j hj => h.2 j (Or.inr hj)]

lemma not_mem_ids_substitute (hid : id ∉ f.ids) (hσ : ∀ i new, σ i = some new → id ∉ new.ids) :
    id ∉ (f.substitute σ).ids := by
  induction f with
  | nil => exact hid
  | node i d c n ihc ihn =>
    simp only [ids, List.mem_cons, List.mem_append, not_or] at hid
    cases hi : σ i with
    | some new =>
      rw [substitute_of_some hi, ids_append, List.mem_append, not_or]
      exact ⟨hσ i new hi, ihn hid.2.2⟩
    | none =>
      simp only [substitute_of_none hi, ids, List.mem_cons, List.mem_append, not_or]
      exact ⟨hid.1, ihc hid.2.1, ihn hid.2.2⟩

/-- Replacing one more node. -/
lemma splice_substitute (hf : f.ids.Nodup) (hid : σ id = none)
    (hσ : ∀ i new, σ i = some new → id ∉ new.ids) (new : Forest) :
    (f.substitute σ).splice id new = f.substitute (Function.update σ id (some new)) := by
  -- a part without the node is left alone on both sides
  have hkept : ∀ {g : Forest}, id ∉ g.ids →
      (g.substitute σ).splice id new = g.substitute (Function.update σ id (some new)) := by
    intro g hg
    rw [splice_of_not_mem (not_mem_ids_substitute hg hσ)]
    refine substitute_congr fun j hj => ?_
    have hne : j ≠ id := fun he => hg (he ▸ hj)
    rw [Function.update_of_ne hne]
  induction f with
  | nil => rfl
  | node i d c n ihc ihn =>
    obtain ⟨-, hn, hcn, hnn, -⟩ := nodup_ids_node hf
    by_cases hi : i = id
    · subst hi
      rw [substitute_of_none hid, splice, if_pos rfl,
        substitute_of_some (Function.update_self i (some new) σ), ← hkept hn,
        splice_of_not_mem (not_mem_ids_substitute hn hσ)]
    · have hupdate : Function.update σ id (some new) i = σ i := Function.update_of_ne hi _ _
      cases hsome : σ i with
      | some m =>
        have hm := hσ i m hsome
        rw [substitute_of_some hsome, substitute_of_some (hupdate.trans hsome), ← ihn hnn,
          splice_eq_atNode, atNode_append_of_not_mem hm, ← splice_eq_atNode]
      | none =>
        rw [substitute_of_none hsome, substitute_of_none (hupdate.trans hsome), splice, if_neg hi,
          ihc hcn, ihn hnn]

/-- Where only text nodes are replaced, each node is in its place, or what was put there. -/
lemma entries_substitute (hf : f.Proper)
    (hσ : ∀ i d, (i, d) ∈ f.entries → (σ i).isSome = true → d.text?.isSome = true) :
    (f.substitute σ).entries =
      f.entries.flatMap fun e => ((σ e.1).map entries).getD [e] := by
  induction f with
  | nil => rfl
  | node i d c n ihc ihn =>
    simp only [entries, List.mem_cons, List.mem_append] at hσ
    have hc := ihc hf.2.1 fun j e h => hσ j e (Or.inr (Or.inl h))
    have hn := ihn hf.2.2 fun j e h => hσ j e (Or.inr (Or.inr h))
    cases hi : σ i with
    | some new =>
      have htext := hσ i d (Or.inl rfl) (by rw [hi]; rfl)
      obtain ⟨t, rfl⟩ : ∃ t, d = .text t := by
        cases d with
        | text t => exact ⟨t, rfl⟩
        | _ => simp [NodeData.text?] at htext
      obtain rfl := (Has.here n).eq_nil_of_text hf
      rw [substitute_of_some hi, entries_append, hn]
      simp [entries, hi]
    | none =>
      rw [substitute_of_none hi, entries, entries, hc, hn]
      simp [hi]

lemma mem_entries_substitute (hf : f.Proper)
    (hσ : ∀ i d, (i, d) ∈ f.entries → (σ i).isSome = true → d.text?.isSome = true)
    (h : (id, d) ∈ f.entries) (hid : σ id = none) : (id, d) ∈ (f.substitute σ).entries := by
  rw [entries_substitute hf hσ]
  refine List.mem_flatMap.2 ⟨(id, d), h, ?_⟩
  simp [hid]

end MarkedMath.Forest
