import MarkedMath.Proofs.Tree.Texts

/-!
# What markup shows

Markup shows every text that stands outside the elements whose text is written as it is, with its
characters escaped. It grows when trees are put behind the children of an element.
-/

namespace MarkedMath.Forest

variable {style : MarkupStyle} {raw : Bool} {f g c n new : Forest} {id x : NodeId} {d : NodeData}
  {t : Text} {tag : String} {attributes : List (String × Text)}

lemma write_text (id : NodeId) (t : Text) (c n : Forest) :
    (node id (.text t) c n).write style raw =
      (if raw then t else t.flatMap style.textChar) ++ n.write style raw := rfl

/-- An element with children is written with both tags, also one that has no end tag otherwise. -/
lemma write_element (hstyle : style.voidHidesChildren = false) (hc : c ≠ nil) (id : NodeId)
    (tag : String) (attributes : List (String × Text)) (n : Forest) :
    (node id (.element tag attributes) c n).write style raw =
      startTag style tag attributes ++ c.write style (style.rawTags.contains tag) ++ endTag tag ++
        n.write style raw := by
  have hlone : isLoneTag style tag c = false := by
    cases c with
    | nil => exact absurd rfl hc
    | node => simp [isLoneTag, hstyle, isEmpty]
  simp only [write, hlone]
  rfl

lemma length_write_element_pos (id : NodeId) (tag : String) (attributes : List (String × Text))
    (c n : Forest) : 0 < ((node id (.element tag attributes) c n).write style raw).length := by
  simp only [write, startTag]
  split <;> simp

lemma write_append (f g : Forest) :
    (f ++ g).write style raw = f.write style raw ++ g.write style raw := by
  induction f with
  | nil => rfl
  | node i d c n _ ih =>
    cases d with
    | text t => rw [node_append, write_text, write_text, ih, List.append_assoc]
    | element tag attributes =>
      rw [node_append]
      simp only [write, ih, List.append_assoc]
    | comment t =>
      rw [node_append]
      simp only [write, ih, List.append_assoc]

/-- The text of a text node is written, escaped, when no element around it writes texts as they are. -/
lemma infix_write {hidden : NodeId → NodeData → Bool} (hstyle : style.voidHidesChildren = false)
    (hraw : ∀ id tag attributes, style.rawTags.contains tag = true →
      hidden id (.element tag attributes) = true)
    (hf : f.Proper) (h : (x, t) ∈ f.textsOutside hidden) :
    t.flatMap style.textChar <:+: f.write style false := by
  induction f with
  | nil => simp [textsOutside] at h
  | node i d c n ihc ihn =>
    have hnext : (x, t) ∈ n.textsOutside hidden →
        t.flatMap style.textChar <:+: (node i d c n).write style false := by
      intro h
      refine (ihn hf.2.2 h).trans (List.IsSuffix.isInfix ?_)
      cases d <;> exact List.suffix_append _ _
    rcases mem_textsOutside_node.1 h with ⟨hshown, ⟨rfl, rfl⟩ | hbelow⟩ | hbehind
    · rw [write_text]
      exact (List.prefix_append _ _).isInfix
    · -- below the node, which must be an element: nothing else has children
      have hc : c ≠ nil := by
        rintro rfl
        simp [textsOutside] at hbelow
      cases d with
      | element tag attributes =>
        have hshows : style.rawTags.contains tag = false := by
          by_contra hshows
          rw [hraw i tag attributes (by simpa using hshows)] at hshown
          exact absurd hshown (by decide)
        have hin := ihc hf.2.1 hbelow
        rw [write_element hstyle hc, hshows]
        refine hin.trans ⟨startTag style tag attributes, endTag tag ++ n.write style false, ?_⟩
        simp only [List.append_assoc]
      | text t =>
        exact absurd ((Has.here n).eq_nil_of_text hf) hc
      | comment t =>
        exact absurd (hf.1.resolve_left (by simp [NodeData.isElement, NodeData.tag?])) hc
    · exact hnext hbehind

/-- Trees put behind the children of an element make the markup longer. -/
lemma Has.length_write_appendTo (hstyle : style.voidHidesChildren = false) (hf : f.Proper)
    (hnodup : f.ids.Nodup) (h : Has id (.element tag attributes) c f)
    (hvoid : voidTags.contains tag = false)
    (hnew : ∀ raw, 0 < (new.write style raw).length) :
    (f.write style raw).length < ((f.appendTo id new).write style raw).length := by
  induction h generalizing raw with
  | here next =>
    -- the element has an end tag, with children or without them
    have hlone : ∀ c, isLoneTag style tag c = false := fun c => by
      simp only [isLoneTag, hvoid, Bool.false_and]
    have := hnew (style.rawTags.contains tag)
    rw [Forest.appendTo, if_pos rfl]
    simp only [write, hlone, Bool.false_eq_true, if_false, List.length_append, write_append]
    omega
  | @inside i d' c' n h ih =>
    obtain ⟨hi, -, hc, -, hdisj⟩ := nodup_ids_node hnodup
    have hne : i ≠ id := fun he => hi (he ▸ h.mem_ids)
    have hnil : c' ≠ nil := by
      rintro rfl
      cases h
    -- an element around it has children before and after, so it is written with both tags
    have hnil' : c'.appendTo id new ≠ nil := by
      cases c' with
      | nil => exact absurd rfl hnil
      | node j =>
        rw [Forest.appendTo]
        split <;> simp
    rw [Forest.appendTo, if_neg hne, appendTo_of_not_mem (hdisj _ h.mem_ids)]
    cases d' with
    | element tag' attributes' =>
      have : (c'.write style (style.rawTags.contains tag')).length < _ := ih hf.2.1 hc
      rw [write_element hstyle hnil, write_element hstyle hnil']
      simp only [List.length_append]
      omega
    | text t =>
      exact absurd ((Has.here n).eq_nil_of_text hf) hnil
    | comment t =>
      exact absurd (hf.1.resolve_left (by simp [NodeData.isElement, NodeData.tag?])) hnil
  | @behind i d' c' n h ih =>
    obtain ⟨-, hi, -, hn, hdisj⟩ := nodup_ids_node hnodup
    have hne : i ≠ id := fun he => hi (he ▸ h.mem_ids)
    have hnot : id ∉ c'.ids := fun hmem => hdisj _ hmem h.mem_ids
    have : (n.write style raw).length < _ := ih hf.2.2 hn
    rw [Forest.appendTo, if_neg hne, appendTo_of_not_mem hnot]
    cases d' <;> simp only [write, List.length_append] <;> omega

end MarkedMath.Forest
