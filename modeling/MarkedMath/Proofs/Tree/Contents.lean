import MarkedMath.Proofs.Tree.Normal
import MarkedMath.Proofs.Tree.Substitute

/-!
# The text of a forest

Normalizing keeps the text of a forest. Putting forests with less text in the places of text nodes leaves less
of it.
-/

namespace MarkedMath.Forest

variable {f g c n : Forest} {σ : NodeId → Option Forest} {id : NodeId} {d : NodeData}
  {run : Option (NodeId × Text)}

@[simp] lemma textContent_append (f g : Forest) : (f ++ g).textContent = f.textContent ++ g.textContent := by
  induction f with
  | nil => rfl
  | node i d c n _ ihn =>
    show (node i d c (n ++ g)).textContent = _
    cases d <;> simp only [textContent, ihn, List.append_assoc]

/-- The text of a node that is no text node. -/
lemma textContent_of_text?_eq_none (hd : d.text? = none) :
    (node id d c n).textContent = (if d.isElement then c.textContent else []) ++ n.textContent := by
  cases d with
  | text t => simp [NodeData.text?] at hd
  | _ => rfl

lemma textContent_closeRun (run : Option (NodeId × Text)) (f : Forest) :
    (closeRun run f).textContent = (run.map Prod.snd).getD [] ++ f.textContent := by
  cases run <;> rfl

lemma textContent_normalizeRun (f : Forest) :
    (normalizeRun run f).1.textContent = (run.map Prod.snd).getD [] ++ f.textContent := by
  induction run, f using normalizeRun_induction with
  | nil run => exact textContent_closeRun run nil
  | other run id d c n hd ihc ihn =>
    rw [normalizeRun_of_isElement hd, textContent_closeRun, textContent_of_text?_eq_none hd,
      textContent_of_text?_eq_none hd, ihc, ihn]
    rfl
  | empty run id c n ih =>
    rw [normalizeRun_text_nil, ih]
    rfl
  | first id t c n ht ih =>
    rw [normalizeRun_text_first ht, ih]
    rfl
  | next kept before id t c n ht ih =>
    rw [normalizeRun_text_next ht, ih]
    exact List.append_assoc ..

@[simp] lemma textContent_normalize (f : Forest) : f.normalize.textContent = f.textContent :=
  textContent_normalizeRun f

/-- Other children with the same text leave the text as it is. -/
lemma textContent_setChildren {new : Forest} (h : ∀ d c, Has id d c f → new.textContent = c.textContent) :
    (f.setChildren id new).textContent = f.textContent := by
  induction f with
  | nil => rfl
  | node i d c n ihc ihn =>
    rw [setChildren]
    split
    · next hi =>
      have hnew := h d c (hi ▸ .here n)
      cases d <;> simp only [textContent, hnew]
    · have hc := ihc fun d c hhas => h d c (.inside hhas)
      have hn := ihn fun d c hhas => h d c (.behind hhas)
      cases d <;> simp only [textContent, hc, hn]

/-- Where each new forest has less text than the text node that it replaces, the text gets no longer, and
shorter when there is a new forest at all. -/
lemma length_textContent_substitute (hf : f.Proper)
    (hσ : ∀ i d, (i, d) ∈ f.entries → ∀ new, σ i = some new →
      ∃ t, d = .text t ∧ new.textContent.length < t.length) :
    (f.substitute σ).textContent.length ≤ f.textContent.length ∧
      ((∃ i ∈ f.ids, (σ i).isSome = true) →
        (f.substitute σ).textContent.length < f.textContent.length) := by
  induction f with
  | nil => exact ⟨Nat.le_refl _, fun ⟨i, hi, _⟩ => absurd hi List.not_mem_nil⟩
  | node id d c n ihc ihn =>
    have hc := ihc hf.2.1 fun i e he => hσ i e (by simp [entries, he])
    have hn := ihn hf.2.2 fun i e he => hσ i e (by simp [entries, he])
    cases hid : σ id with
    | some new =>
      obtain ⟨t, rfl, hlt⟩ := hσ id d (by simp [entries]) new hid
      rw [substitute_of_some hid, textContent_append, textContent, List.length_append, List.length_append]
      have := hn.1
      exact ⟨by omega, fun _ => by omega⟩
    | none =>
      rw [substitute_of_none hid]
      have hsome : (∃ i ∈ (node id d c n).ids, (σ i).isSome = true) →
          (∃ i ∈ c.ids, (σ i).isSome = true) ∨ ∃ i ∈ n.ids, (σ i).isSome = true := by
        rintro ⟨i, hi, hnew⟩
        simp only [ids, List.mem_cons, List.mem_append] at hi
        rcases hi with rfl | hi | hi
        · simp [hid] at hnew
        · exact Or.inl ⟨i, hi, hnew⟩
        · exact Or.inr ⟨i, hi, hnew⟩
      rcases hf.1 with helement | rfl
      · obtain ⟨tag, attributes, rfl⟩ : ∃ tag attributes, d = .element tag attributes := by
          cases d with
          | element tag attributes => exact ⟨tag, attributes, rfl⟩
          | _ => simp [NodeData.isElement, NodeData.tag?] at helement
        simp only [textContent, List.length_append]
        refine ⟨by omega, fun hnew => ?_⟩
        rcases hsome hnew with hnew | hnew
        · have := hc.2 hnew
          omega
        · have := hn.2 hnew
          omega
      · -- only the trees behind this one have new forests in them
        have hbehind := fun hnew => (hsome hnew).resolve_left fun ⟨i, hi, _⟩ => absurd hi List.not_mem_nil
        simp only [substitute, textContent, List.length_append]
        exact ⟨by omega, fun hnew => by have := hn.2 (hbehind hnew); omega⟩

end MarkedMath.Forest
