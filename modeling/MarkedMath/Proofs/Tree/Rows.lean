import Mathlib.Data.List.SplitBy
import MarkedMath.Proofs.Tree.Contents

/-!
# Rows of siblings

The roots of a forest stand in a row, each with what it is. Normalizing cuts the row into its longest runs
of texts and the other nodes between them, and leaves at most one text of each run (`Forest.row_normalize`).
The walk over the siblings knows of a run only the text that it would leave of it so far, so the induction
goes over the siblings that are still to come, for every run before them.
-/

namespace MarkedMath

/-! ## Runs of texts -/

namespace NodeData

/-- Whether a node is a text. -/
def isText (data : NodeData) : Bool :=
  data.text?.isSome

/-- The data of a text. -/
def textData (data : NodeData) : Text :=
  data.text?.getD []

@[simp] lemma isText_text (t : Text) : (text t).isText = true := rfl

@[simp] lemma textData_text (t : Text) : (text t).textData = t := rfl

lemma isText_eq_false_iff {data : NodeData} : data.isText = false ↔ data.text? = none := by
  rw [isText, Option.isSome_eq_false_iff, Option.isNone_iff_eq_none]

end NodeData

/-- The longest runs of texts in a row of nodes, with the other nodes one by one between them. -/
def textRuns (row : List (NodeId × NodeData)) : List (List (NodeId × NodeData)) :=
  row.splitBy fun e e' => e.2.isText && e'.2.isText

/-- What is left of a run of texts when one of them is not empty: the first such node, with the data of all
of them. -/
def joined? (run : List (NodeId × NodeData)) : Option (NodeId × Text) :=
  (run.find? fun e => e.2.textData ≠ []).map fun e => (e.1, run.flatMap fun e => e.2.textData)

/-- What is left of a run of texts. Other nodes stay. -/
def represent (run : List (NodeId × NodeData)) : List (NodeId × NodeData) :=
  if run.all fun e => e.2.isText then (joined? run).toList.map fun e => (e.1, .text e.2) else run

section Runs

variable {row run : List (NodeId × NodeData)} {e : NodeId × NodeData} {id : NodeId} {data : NodeData}
  {t : Text}

/-- A text comes to the end of a run. -/
lemma joined?_concat (run : List (NodeId × NodeData)) (id : NodeId) (t : Text) :
    joined? (run ++ [(id, .text t)]) =
      match joined? run with
      | some (kept, before) => some (kept, before ++ t)
      | none => if t = [] then none else some (id, t) := by
  rw [joined?, joined?, List.find?_append, List.flatMap_append]
  cases hfind : run.find? fun e => e.2.textData ≠ [] with
  | some e => simp
  | none =>
    -- all texts of the run are empty
    have hempty : (run.flatMap fun e => e.2.textData) = [] :=
      List.flatMap_eq_nil_iff.2 fun e he => by simpa using List.find?_eq_none.1 hfind e he
    by_cases ht : t = []
    · simp [ht]
    · simp [hempty, ht]

lemma represent_of_texts (h : ∀ e ∈ run, e.2.isText = true) :
    represent run = (joined? run).toList.map fun e => (e.1, .text e.2) :=
  if_pos (List.all_eq_true.2 h)

lemma represent_other (h : e.2.isText = false) : represent [e] = [e] :=
  if_neg (by simp [h])

lemma flatten_textRuns (row : List (NodeId × NodeData)) : (textRuns row).flatten = row :=
  List.flatten_splitBy ..

/-- A node stands in one run. -/
lemma textRuns_unique {other : List (NodeId × NodeData)} (hrow : (row.map Prod.fst).Nodup)
    (hrun : run ∈ textRuns row) (hother : other ∈ textRuns row) (hid : id ∈ run.map Prod.fst)
    (hid' : id ∈ other.map Prod.fst) : run = other := by
  by_contra hne
  have hnodup : ((textRuns row).map (List.map Prod.fst)).flatten.Nodup := by
    rwa [← List.map_flatten, flatten_textRuns]
  have hdisjoint := List.pairwise_map.1 (List.nodup_flatten.1 hnodup).2
  have : Std.Symm fun run other : List (NodeId × NodeData) =>
      (run.map Prod.fst).Disjoint (other.map Prod.fst) := ⟨fun _ _ hdisj _ hi hi' => hdisj hi' hi⟩
  exact hdisjoint.forall hrun hother hne hid hid'

lemma textRuns_of_texts (hne : run ≠ []) (h : ∀ e ∈ run, e.2.isText = true) : textRuns run = [run] := by
  refine List.splitBy_of_isChain hne (List.Pairwise.isChain ?_)
  exact List.Pairwise.imp_of_mem (R := fun _ _ => True)
    (fun {a b} ha hb _ => by simp [h a ha, h b hb]) (List.pairwise_of_forall fun _ _ => trivial)

/-- The texts before a node that is no text make up a run. -/
lemma textRuns_append_cons (run row : List (NodeId × NodeData)) (h : e.2.isText = false) :
    textRuns (run ++ e :: row) = textRuns run ++ [e] :: textRuns row := by
  have hrow : textRuns (e :: row) = [e] :: textRuns row := by
    refine (List.splitBy_append (l := [e]) fun x hx y _ => ?_).trans rfl
    obtain rfl : e = x := by simpa using hx
    rw [h, Bool.false_and]
  rw [← hrow]
  exact List.splitBy_append_cons row fun x _ => by rw [h, Bool.and_false]

/-- No other nodes than those of a run are left of it. -/
lemma map_fst_represent_subset (run : List (NodeId × NodeData)) :
    (represent run).map Prod.fst ⊆ run.map Prod.fst := by
  rw [represent]
  split
  · rw [joined?]
    cases hfind : run.find? fun e => e.2.textData ≠ [] with
    | none => simp
    | some e => simpa using List.mem_map_of_mem (f := Prod.fst) (List.mem_of_find?_eq_some hfind)
  · exact List.Subset.refl _

/-- The nodes that are no texts are left, in their order. -/
lemma filter_represent (run : List (NodeId × NodeData)) :
    ((represent run).filter fun e => !e.2.isText) = run.filter fun e => !e.2.isText := by
  rw [represent]
  split
  · next htexts =>
    have hrun : (run.filter fun e => !e.2.isText) = [] := by
      simpa [List.filter_eq_nil_iff] using htexts
    rw [hrun, List.filter_eq_nil_iff]
    intro e he
    obtain ⟨left, -, rfl⟩ := List.mem_map.1 he
    simp
  · rfl

lemma filter_flatMap_represent (row : List (NodeId × NodeData)) :
    (((textRuns row).flatMap represent).filter fun e => !e.2.isText) = row.filter fun e => !e.2.isText := by
  calc (((textRuns row).flatMap represent).filter fun e => !e.2.isText)
      = (textRuns row).flatMap fun run => run.filter fun e => !e.2.isText := by
        rw [List.filter_flatMap]
        simp only [filter_represent]
    _ = (textRuns row).flatten.filter fun e => !e.2.isText := by
        rw [List.filter_flatten, List.flatMap_def]
    _ = row.filter fun e => !e.2.isText := by rw [flatten_textRuns]

end Runs

namespace Forest

/-! ## Rows -/

/-- The roots in order, each with what it is. -/
def row : Forest → List (NodeId × NodeData)
  | nil => []
  | node id data _ next => (id, data) :: next.row

variable {f new : Forest} {id : NodeId} {run : Option (NodeId × Text)}

lemma map_fst_row (f : Forest) : f.row.map Prod.fst = f.roots := by
  induction f with
  | nil => rfl
  | node i d c n _ ih => rw [row, List.map_cons, ih, roots]

lemma row_subset_entries (f : Forest) : f.row ⊆ f.entries := by
  induction f with
  | nil => exact List.Subset.refl _
  | node i d c n _ ih =>
    exact List.cons_subset_cons _ (List.Subset.trans ih (List.subset_append_right _ _))

@[simp] lemma row_setChildren (f : Forest) (id : NodeId) (new : Forest) : (f.setChildren id new).row = f.row := by
  induction f with
  | nil => rfl
  | node i d c n _ ih =>
    rw [setChildren]
    split
    · rfl
    · rw [row, row, ih]

lemma row_closeRun (run : Option (NodeId × Text)) (f : Forest) :
    (closeRun run f).row = (run.toList.map fun e => (e.1, .text e.2)) ++ f.row := by
  cases run <;> rfl

/-- A text joins the run before it. -/
lemma normalizeRun_joined? (texts : List (NodeId × NodeData)) (id : NodeId) (t : Text) (c n : Forest) :
    (normalizeRun (joined? texts) (node id (.text t) c n)).1 =
      (normalizeRun (joined? (texts ++ [(id, .text t)])) n).1 := by
  rw [joined?_concat]
  by_cases ht : t = []
  · subst ht
    rw [normalizeRun_text_nil]
    cases joined? texts <;> simp
  · cases joined? texts with
    | none => rw [normalizeRun_text_first ht, if_neg ht]
    | some kept => rw [normalizeRun_text_next ht]

/-- Texts that stand before a forest are normalized with it as an open run. -/
lemma row_normalizeRun (texts : List (NodeId × NodeData)) (h : ∀ e ∈ texts, e.2.isText = true) (f : Forest) :
    (normalizeRun (joined? texts) f).1.row = (textRuns (texts ++ f.row)).flatMap represent := by
  have hleft : ∀ texts : List (NodeId × NodeData), (∀ e ∈ texts, e.2.isText = true) →
      (textRuns texts).flatMap represent = (joined? texts).toList.map fun e => (e.1, .text e.2) := by
    intro texts htexts
    by_cases hne : texts = []
    · rw [hne]
      rfl
    · rw [textRuns_of_texts hne htexts, List.flatMap_singleton, represent_of_texts htexts]
  induction f generalizing texts with
  | nil => rw [normalizeRun_nil, row_closeRun, row, List.append_nil, List.append_nil, hleft texts h]
  | node id data c n _ ih =>
    cases hdata : data.isText with
    | true =>
      obtain ⟨t, rfl⟩ : ∃ t, data = .text t := by
        obtain ⟨t, ht⟩ := Option.isSome_iff_exists.1 hdata
        exact ⟨t, NodeData.text?_eq_some_iff.1 ht⟩
      rw [normalizeRun_joined?, ih _ (by simpa [or_imp, forall_and] using h), List.append_assoc]
      rfl
    | false =>
      rw [normalizeRun_of_isElement (NodeData.isText_eq_false_iff.1 hdata), row_closeRun, row, row,
        textRuns_append_cons texts n.row hdata, List.flatMap_append, List.flatMap_cons,
        represent_other hdata, hleft texts h]
      exact congrArg (_ ++ (id, data) :: ·) (ih [] (by simp))

/-- **Normalizing leaves one text of each run.** -/
lemma row_normalize (f : Forest) : f.normalize.row = (textRuns f.row).flatMap represent :=
  row_normalizeRun [] (by simp) f

end Forest

end MarkedMath
