import MarkedMath.Tree.Normalize
import MarkedMath.Proofs.Tree.Texts

/-!
# Normal forests

The forest that normalizing yields is normal, and a normal forest stays as it is. Normalizing keeps all
nodes that are not texts and all numbers, those of the dropped texts included. A normal forest stays
normal when a normal forest takes the place of a text node, since the neighbours of a text are no texts.
-/

namespace MarkedMath.Forest

/-- No text node is empty and no two text nodes are neighbours, where a text stands right before the forest
when `behindText` holds. -/
def NormalFrom : (behindText : Bool) → Forest → Prop
  | _, nil => True
  | behindText, node _ (.text t) _ next => behindText = false ∧ t ≠ [] ∧ next.NormalFrom true
  | _, node _ (.element _ _) children next => children.NormalFrom false ∧ next.NormalFrom false
  | _, node _ (.comment _) children next => children.NormalFrom false ∧ next.NormalFrom false

/-- No text node is empty and no two text nodes are neighbours. -/
def Normal (f : Forest) : Prop :=
  f.NormalFrom false

/-- The nodes that are not texts. -/
def otherEntries (f : Forest) : List (NodeId × NodeData) :=
  f.entries.filter fun e => e.2.text?.isNone

variable {f g c n new : Forest} {id : NodeId} {d : NodeData} {t : Text} {behindText : Bool}
  {run : Option (NodeId × Text)}

lemma NormalFrom.of_true (h : f.NormalFrom true) : f.NormalFrom behindText := by
  cases f with
  | nil => trivial
  | node i d c n =>
    cases d with
    | text t => exact absurd h.1 (by decide)
    | _ => exact h

lemma NormalFrom.append (hf : f.NormalFrom behindText) (hg : g.NormalFrom true) :
    (f ++ g).NormalFrom behindText := by
  induction f generalizing behindText with
  | nil => exact hg.of_true
  | node i d c n _ ih =>
    cases d with
    | text t => exact ⟨hf.1, hf.2.1, ih hf.2.2⟩
    | _ => exact ⟨hf.1, ih hf.2⟩

/-- A normal forest may take the place of a text node. -/
lemma NormalFrom.splice (hf : f.NormalFrom behindText) (hnew : new.Normal)
    (hid : ∀ d, (id, d) ∈ f.entries → d.text?.isSome = true) :
    (f.splice id new).NormalFrom behindText := by
  induction f generalizing behindText with
  | nil => trivial
  | node i d c n ihc ihn =>
    simp only [entries, List.mem_cons, List.mem_append, Prod.mk.injEq] at hid
    rw [Forest.splice]
    split
    · next hi =>
      have htext := hid d (Or.inl ⟨hi.symm, rfl⟩)
      cases d with
      | text t =>
        obtain ⟨rfl, -, hn⟩ := hf
        exact NormalFrom.append hnew hn
      | _ => simp [NodeData.text?] at htext
    · have hc := fun d h => hid d (Or.inr (Or.inl h))
      have hn := fun d h => hid d (Or.inr (Or.inr h))
      cases d with
      | text t => exact ⟨hf.1, hf.2.1, ihn hf.2.2 hn⟩
      | _ => exact ⟨ihc hf.1 hc, ihn hf.2 hn⟩

/-- Trees that begin with no text may be put behind the children of a node. -/
lemma NormalFrom.appendTo (hf : f.NormalFrom behindText) (hnew : new.NormalFrom true) (id : NodeId) :
    (f.appendTo id new).NormalFrom behindText := by
  induction f generalizing behindText with
  | nil => trivial
  | node i d c n ihc ihn =>
    rw [Forest.appendTo]
    split
    · cases d with
      | text t => exact hf
      | _ => exact ⟨hf.1.append hnew, hf.2⟩
    · cases d with
      | text t => exact ⟨hf.1, hf.2.1, ihn hf.2.2⟩
      | _ => exact ⟨ihc hf.1, ihn hf.2⟩

/-! ## Normalizing -/

lemma normalizeRun_nil : normalizeRun run nil = (closeRun run nil, []) := rfl

lemma normalizeRun_of_isElement (h : d.text? = none) :
    normalizeRun run (node id d c n) =
      (closeRun run (node id d (normalizeRun none c).1 (normalizeRun none n).1),
        (normalizeRun none c).2 ++ (normalizeRun none n).2) := by
  cases d with
  | text t => simp [NodeData.text?] at h
  | _ => rfl

lemma normalizeRun_text_nil :
    normalizeRun run (node id (.text []) c n) =
      ((normalizeRun run n).1, (id, []) :: (normalizeRun run n).2) := rfl

lemma normalizeRun_text_first (ht : t ≠ []) :
    normalizeRun none (node id (.text t) c n) = normalizeRun (some (id, t)) n := by
  cases t with
  | nil => exact absurd rfl ht
  | cons => rfl

lemma normalizeRun_text_next (ht : t ≠ []) (kept : NodeId) (before : Text) :
    normalizeRun (some (kept, before)) (node id (.text t) c n) =
      ((normalizeRun (some (kept, before ++ t)) n).1,
        (id, t) :: (normalizeRun (some (kept, before ++ t)) n).2) := by
  cases t with
  | nil => exact absurd rfl ht
  | cons => rfl

/-- Induction along normalizing: over the nodes and the run of text nodes that ends before them. -/
@[elab_as_elim]
lemma normalizeRun_induction {motive : Option (NodeId × Text) → Forest → Prop}
    (nil : ∀ run, motive run nil)
    (other : ∀ run id d c n, d.text? = none → motive none c → motive none n →
      motive run (node id d c n))
    (empty : ∀ run id c n, motive run n → motive run (node id (.text []) c n))
    (first : ∀ id t c n, t ≠ [] → motive (some (id, t)) n → motive none (node id (.text t) c n))
    (next : ∀ kept before id t c n, t ≠ [] → motive (some (kept, before ++ t)) n →
      motive (some (kept, before)) (node id (.text t) c n))
    (run : Option (NodeId × Text)) (f : Forest) : motive run f := by
  induction f generalizing run with
  | nil => exact nil run
  | node id d c n ihc ihn =>
    cases d with
    | text t =>
      by_cases ht : t = []
      · exact ht ▸ empty run id c n (ihn run)
      · cases run with
        | none => exact first id t c n ht (ihn _)
        | some kept => exact next kept.1 kept.2 id t c n ht (ihn _)
    | _ => exact other run id _ c n rfl (ihc none) (ihn none)

/-- Normalizing keeps and drops all numbers. -/
lemma perm_normalizeRun (hf : f.Proper) :
    ((normalizeRun run f).1.ids ++ (normalizeRun run f).2.map Prod.fst).Perm
      ((run.map Prod.fst).toList ++ f.ids) := by
  -- the number of an open run is among those kept, so it counts on the right from the start
  induction run, f using normalizeRun_induction with
  | nil run =>
    rw [normalizeRun_nil]
    cases run <;> simp [closeRun, ids]
  | other run id d c n hd ihc ihn =>
    have hc := List.perm_iff_count.1 (ihc hf.2.1)
    have hn := List.perm_iff_count.1 (ihn hf.2.2)
    rw [normalizeRun_of_isElement hd, List.perm_iff_count]
    intro e
    have hce := hc e
    have hne := hn e
    cases run <;>
      simp only [closeRun, ids, Option.map_none, Option.map_some, Option.toList_none,
        Option.toList_some, List.map_append, List.count_append, List.count_cons,
        List.nil_append, List.count_nil] at hce hne ⊢ <;>
      omega
  | empty run id c n ih =>
    obtain rfl := (Has.here n).eq_nil_of_text hf
    rw [normalizeRun_text_nil]
    have hn := List.perm_iff_count.1 (ih hf.2.2)
    rw [List.perm_iff_count]
    intro e
    have hne := hn e
    simp only [ids, List.map_cons, List.count_append, List.count_cons, List.nil_append] at hne ⊢
    omega
  | first id t c n ht ih =>
    obtain rfl := (Has.here n).eq_nil_of_text hf
    rw [normalizeRun_text_first ht]
    exact ih hf.2.2
  | next kept before id t c n ht ih =>
    obtain rfl := (Has.here n).eq_nil_of_text hf
    rw [normalizeRun_text_next ht]
    have hn := List.perm_iff_count.1 (ih hf.2.2)
    rw [List.perm_iff_count]
    intro e
    have hne := hn e
    simp only [ids, List.map_cons, List.count_append, List.count_cons, List.nil_append,
      Option.map_some, Option.toList_some, List.count_nil] at hne ⊢
    omega

/-- The dropped texts are texts of the forest. -/
lemma mem_entries_of_mem_dropped (h : (id, t) ∈ (normalizeRun run f).2) : (id, .text t) ∈ f.entries := by
  induction run, f using normalizeRun_induction with
  | nil run => simp [normalizeRun_nil] at h
  | other run i d c n hd ihc ihn =>
    rw [normalizeRun_of_isElement hd, List.mem_append] at h
    rw [entries, List.mem_cons, List.mem_append]
    exact Or.inr (h.imp ihc ihn)
  | empty run i c n ih =>
    rw [normalizeRun_text_nil, List.mem_cons, Prod.mk.injEq] at h
    rw [entries, List.mem_cons, List.mem_append]
    rcases h with ⟨rfl, rfl⟩ | h
    · exact Or.inl rfl
    · exact Or.inr (Or.inr (ih h))
  | first i u c n hu ih =>
    rw [normalizeRun_text_first hu] at h
    rw [entries, List.mem_cons, List.mem_append]
    exact Or.inr (Or.inr (ih h))
  | next kept before i u c n hu ih =>
    rw [normalizeRun_text_next hu, List.mem_cons, Prod.mk.injEq] at h
    rw [entries, List.mem_cons, List.mem_append]
    rcases h with ⟨rfl, rfl⟩ | h
    · exact Or.inl rfl
    · exact Or.inr (Or.inr (ih h))

lemma otherEntries_closeRun (run : Option (NodeId × Text)) (f : Forest) :
    (closeRun run f).otherEntries = f.otherEntries := by
  cases run <;> simp [closeRun, otherEntries, entries, NodeData.text?]

lemma otherEntries_node (h : d.text? = none) :
    (node id d c n).otherEntries = (id, d) :: (c.otherEntries ++ n.otherEntries) := by
  simp [otherEntries, entries, h]

lemma otherEntries_text (t : Text) (n : Forest) :
    (node id (.text t) nil n).otherEntries = n.otherEntries := by
  simp [otherEntries, entries, NodeData.text?]

/-- Normalizing keeps the nodes that are not texts. -/
lemma otherEntries_normalizeRun (hf : f.Proper) :
    (normalizeRun run f).1.otherEntries = f.otherEntries := by
  induction run, f using normalizeRun_induction with
  | nil run => rw [normalizeRun_nil, otherEntries_closeRun]
  | other run id d c n hd ihc ihn =>
    rw [normalizeRun_of_isElement hd, otherEntries_closeRun, otherEntries_node hd,
      otherEntries_node hd, ihc hf.2.1, ihn hf.2.2]
  | empty run id c n ih =>
    obtain rfl := (Has.here n).eq_nil_of_text hf
    rw [normalizeRun_text_nil, otherEntries_text, ih hf.2.2]
  | first id t c n ht ih =>
    obtain rfl := (Has.here n).eq_nil_of_text hf
    rw [normalizeRun_text_first ht, otherEntries_text, ih hf.2.2]
  | next kept before id t c n ht ih =>
    obtain rfl := (Has.here n).eq_nil_of_text hf
    rw [normalizeRun_text_next ht, otherEntries_text, ih hf.2.2]

lemma count_normalizeRun (hf : f.Proper) (hd : d.text? = none) :
    (normalizeRun run f).1.entries.count (id, d) = f.entries.count (id, d) := by
  have hother : List.count (id, d) (normalizeRun run f).1.otherEntries =
      List.count (id, d) f.otherEntries := by rw [otherEntries_normalizeRun hf]
  have hkept : ∀ f : Forest, f.otherEntries.count (id, d) = f.entries.count (id, d) := fun f =>
    List.count_filter (p := fun e : NodeId × NodeData => e.2.text?.isNone) (by simp [hd])
  rwa [hkept, hkept] at hother

lemma Has.closeRun {b : NodeId} (h : Has b d c f) (run : Option (NodeId × Text)) :
    Has b d c (Forest.closeRun run f) := by
  cases run with
  | none => exact h
  | some kept => exact .behind h

/-- A node that is no text is kept, with its children normalized. -/
lemma Has.normalizeRun {b : NodeId} (hf : f.Proper) (hd : d.text? = none) (h : Has b d c f) :
    Has b d (Forest.normalizeRun none c).1 (Forest.normalizeRun run f).1 := by
  induction run, f using normalizeRun_induction with
  | nil run => cases h
  | other run id d' c' n hd' ihc ihn =>
    rw [normalizeRun_of_isElement hd']
    refine Has.closeRun ?_ run
    cases h with
    | here => exact .here _
    | inside h => exact .inside (ihc hf.2.1 h)
    | behind h => exact .behind (ihn hf.2.2 h)
  | empty run id c' n ih =>
    rw [normalizeRun_text_nil]
    obtain rfl := (Has.here n).eq_nil_of_text hf
    cases h with
    | here => simp [NodeData.text?] at hd
    | inside h => cases h
    | behind h => exact ih hf.2.2 h
  | first id t c' n ht ih =>
    rw [normalizeRun_text_first ht]
    obtain rfl := (Has.here n).eq_nil_of_text hf
    cases h with
    | here => simp [NodeData.text?] at hd
    | inside h => cases h
    | behind h => exact ih hf.2.2 h
  | next kept before id t c' n ht ih =>
    rw [normalizeRun_text_next ht]
    obtain rfl := (Has.here n).eq_nil_of_text hf
    cases h with
    | here => simp [NodeData.text?] at hd
    | inside h => cases h
    | behind h => exact ih hf.2.2 h

lemma Proper.closeRun (hf : f.Proper) (run : Option (NodeId × Text)) :
    (Forest.closeRun run f).Proper := by
  cases run with
  | none => exact hf
  | some kept => exact ⟨Or.inr rfl, trivial, hf⟩

lemma Proper.normalizeRun (hf : f.Proper) : (Forest.normalizeRun run f).1.Proper := by
  induction run, f using normalizeRun_induction with
  | nil run =>
    have hnil : nil.Proper := trivial
    exact hnil.closeRun run
  | other run id d c n hd ihc ihn =>
    rw [normalizeRun_of_isElement hd]
    have hnode : (node id d (Forest.normalizeRun none c).1 (Forest.normalizeRun none n).1).Proper := by
      refine ⟨?_, ihc hf.2.1, ihn hf.2.2⟩
      rcases hf.1 with h | rfl
      · exact Or.inl h
      · exact Or.inr rfl
    exact hnode.closeRun run
  | empty run id c n ih =>
    rw [normalizeRun_text_nil]
    exact ih hf.2.2
  | first id t c n ht ih =>
    rw [normalizeRun_text_first ht]
    exact ih hf.2.2
  | next kept before id t c n ht ih =>
    rw [normalizeRun_text_next ht]
    exact ih hf.2.2

lemma NormalFrom.closeRun (hf : f.NormalFrom run.isSome) (hrun : ∀ r ∈ run, r.2 ≠ []) :
    (Forest.closeRun run f).Normal := by
  cases run with
  | none => exact hf
  | some kept => exact ⟨rfl, hrun kept rfl, hf⟩

lemma normal_normalizeRun (hrun : ∀ r ∈ run, r.2 ≠ []) : (normalizeRun run f).1.Normal := by
  induction run, f using normalizeRun_induction with
  | nil run => exact NormalFrom.closeRun trivial hrun
  | other run id d c n hd ihc ihn =>
    rw [normalizeRun_of_isElement hd]
    refine NormalFrom.closeRun ?_ hrun
    have hc := ihc (by simp)
    have hn := ihn (by simp)
    cases d with
    | text t => simp [NodeData.text?] at hd
    | _ => exact ⟨hc, hn⟩
  | empty run id c n ih =>
    rw [normalizeRun_text_nil]
    exact ih hrun
  | first id t c n ht ih =>
    rw [normalizeRun_text_first ht]
    exact ih (by simpa using ht)
  | next kept before id t c n ht ih =>
    -- the data of a run only grows, so it stays non-empty
    rw [normalizeRun_text_next ht]
    exact ih (by simp [ht])

lemma normalizeRun_of_normal (hproper : f.Proper) (hf : f.NormalFrom run.isSome) :
    normalizeRun run f = (closeRun run f, []) := by
  induction run, f using normalizeRun_induction with
  | nil run => rfl
  | other run id d c n hd ihc ihn =>
    obtain ⟨hc, hn⟩ : c.Normal ∧ n.Normal := by
      cases d with
      | text t => simp [NodeData.text?] at hd
      | _ => exact hf
    rw [normalizeRun_of_isElement hd, ihc hproper.2.1 hc, ihn hproper.2.2 hn]
    rfl
  | empty run id c n ih => exact absurd rfl hf.2.1
  | first id t c n ht ih =>
    obtain rfl := (Has.here n).eq_nil_of_text hproper
    rw [normalizeRun_text_first ht, ih hproper.2.2 hf.2.2]
    rfl
  | next kept before id t c n ht ih => exact absurd hf.1 (by simp)

/-! ### The normal form -/

lemma normal_normalize (f : Forest) : f.normalize.Normal :=
  normal_normalizeRun (by simp)

lemma Proper.normalize (hf : f.Proper) : f.normalize.Proper :=
  hf.normalizeRun

lemma normalizeRun_none_of_normal (hproper : f.Proper) (hf : f.Normal) :
    normalizeRun none f = (f, []) :=
  normalizeRun_of_normal hproper hf

lemma normalize_of_normal (hproper : f.Proper) (hf : f.Normal) : f.normalize = f := by
  rw [normalize, normalizeRun_none_of_normal hproper hf]

lemma droppedTexts_of_normal (hproper : f.Proper) (hf : f.Normal) : f.droppedTexts = [] := by
  rw [droppedTexts, normalizeRun_none_of_normal hproper hf]

lemma perm_normalize (hf : f.Proper) :
    (f.normalize.ids ++ f.droppedTexts.map Prod.fst).Perm f.ids :=
  perm_normalizeRun hf

/-- A text of a normal forest is not empty. -/
lemma Normal.ne_nil_of_mem (hf : f.NormalFrom behindText) (hproper : f.Proper)
    (h : (id, .text t) ∈ f.entries) : t ≠ [] := by
  induction f generalizing behindText with
  | nil => simp [entries] at h
  | node i d c n ihc ihn =>
    simp only [entries, List.mem_cons, List.mem_append, Prod.mk.injEq] at h
    cases d with
    | text u =>
      obtain rfl := (Has.here n).eq_nil_of_text hproper
      rcases h with ⟨-, h⟩ | h | h
      · obtain rfl := by simpa using h
        exact hf.2.1
      · simp [entries] at h
      · exact ihn hf.2.2 hproper.2.2 h
    | _ =>
      rcases h with ⟨-, h⟩ | h | h
      · simp at h
      · exact ihc hf.1 hproper.2.1 h
      · exact ihn hf.2 hproper.2.2 h

end MarkedMath.Forest
