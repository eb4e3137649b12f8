import Mathlib.Data.List.Forall2
import MarkedMath.Page.Host
import MarkedMath.Proofs.Runs
import MarkedMath.Proofs.Scripts

/-!
# Texts in skipped elements

A document leaves out whatever stands below a skipped element, a page only the texts that stand right inside one.
So the two find texts at the same places of trees of the same shape exactly when no text stands deeper in a
skipped element.

How a text stands to the skipped elements around it is worked out once along the tree (`Forest.standings`). Both
searches are selections from that list, and trees of the same shape have the same list but for the numbers of the
nodes.
-/

namespace MarkedMath

namespace Forest

variable {f f' c c' n n' : Forest} {id i : NodeId} {d d' : NodeData}

/-! ## Places of texts -/

/-- The node is a text. -/
def IsText (f : Forest) (id : NodeId) : Prop :=
  ∃ t, (id, .text t) ∈ f.entries

/-- The node stands below a skipped element, at whatever depth. -/
def BelowSkipped (f : Forest) (id : NodeId) : Prop :=
  ∃ a d c, Has a d c f ∧ isSkipped a d = true ∧ id ∈ c.ids

/-- The node is a child of a skipped element. -/
def InSkipped (f : Forest) (id : NodeId) : Prop :=
  ∃ a d c, Has a d c f ∧ isSkipped a d = true ∧ id ∈ c.roots

/-- Two forests of the same shape, with elements of the same tags, texts and comments at the same places. -/
inductive Alike : Forest → Forest → Prop
  /-- No tree and no tree. -/
  | nil : Alike nil nil
  /-- Two nodes of a kind, with alike children, in front of alike trees. -/
  | node {i i' : NodeId} {d d' : NodeData} {c c' n n' : Forest} (htag : d.tag? = d'.tag?)
      (htext : d.text?.isSome = d'.text?.isSome) (hchildren : Alike c c') (hnext : Alike n n') :
      Alike (node i d c n) (node i' d' c' n')

/-- Two nodes at the same place in document order. -/
def Counterpart (f f' : Forest) (i i' : NodeId) : Prop :=
  (i, i') ∈ f.ids.zip f'.ids

/-! ## How texts stand to skipped elements -/

/-- How a text stands to the skipped elements around it. -/
inductive Standing where
  /-- No skipped element is around it. -/
  | free
  /-- It stands below a skipped element, but in another one. -/
  | below
  /-- It stands right inside a skipped element. -/
  | inside
  deriving DecidableEq

/-- How texts stand that are children of a node. -/
def Standing.within (s : Standing) (d : NodeData) : Standing :=
  if d.tag?.any skippedTags.contains then inside else if s = free then free else below

/-- The texts of a forest in document order, each with how it stands. -/
def standings (s : Standing) : Forest → List (NodeId × Standing)
  | .nil => []
  | .node id d c n => (d.text?.map fun _ => (id, s)).toList ++ (c.standings (s.within d) ++ n.standings s)

lemma Standing.within_eq_inside (s : Standing) (i : NodeId) :
    s.within d = inside ↔ isSkipped i d = true := by
  rw [within, isSkipped]
  split
  · next h => simp [h]
  · next h => split <;> simp [h]

lemma Standing.within_ne_free (s : Standing) (i : NodeId) :
    s.within d ≠ free ↔ isSkipped i d = true ∨ s ≠ free := by
  rw [within, isSkipped]
  split
  · next h => simp [h]
  · next h => split <;> simp_all

lemma mem_ids_of_mem_standings {s s' : Standing} (h : (id, s') ∈ f.standings s) : id ∈ f.ids := by
  induction f generalizing s with
  | nil => cases h
  | node i d c n ihc ihn =>
    simp only [standings, List.mem_append, Option.mem_toList, Option.map_eq_some_iff,
      Prod.mk.injEq] at h
    rw [ids, List.mem_cons, List.mem_append]
    rcases h with ⟨t, -, rfl, -⟩ | h | h
    · exact Or.inl rfl
    · exact Or.inr (Or.inl (ihc h))
    · exact Or.inr (Or.inr (ihn h))

lemma isText_iff (s : Standing) : f.IsText id ↔ ∃ s', (id, s') ∈ f.standings s := by
  induction f generalizing s with
  | nil => simp [IsText, entries, standings]
  | node i d c n ihc ihn =>
    have hc := ihc (s.within d)
    have hn := ihn s
    rw [IsText] at hc hn ⊢
    simp only [entries, standings, List.mem_cons, List.mem_append, Prod.mk.injEq, exists_or, hc, hn,
      Option.mem_toList, Option.map_eq_some_iff]
    refine or_congr_left ⟨?_, ?_⟩
    · rintro ⟨t, rfl, rfl⟩
      exact ⟨s, t, rfl, rfl, rfl⟩
    · rintro ⟨s', t, ht, rfl, rfl⟩
      exact ⟨t, rfl, (NodeData.text?_eq_some_iff.1 ht).symm⟩

lemma has_node {a : NodeId} : Has a d' c' (node i d c n) ↔
    (a = i ∧ d' = d ∧ c' = c) ∨ Has a d' c' c ∨ Has a d' c' n := by
  constructor
  · rintro (_ | h | h)
    · exact Or.inl ⟨rfl, rfl, rfl⟩
    · exact Or.inr (Or.inl h)
    · exact Or.inr (Or.inr h)
  · rintro (⟨rfl, rfl, rfl⟩ | h | h)
    · exact .here n
    · exact .inside h
    · exact .behind h

lemma inSkipped_node : (node i d c n).InSkipped id ↔
    (isSkipped i d = true ∧ id ∈ c.roots) ∨ c.InSkipped id ∨ n.InSkipped id := by
  simp only [InSkipped, has_node, or_and_right, exists_or]
  refine or_congr_left ⟨?_, ?_⟩
  · rintro ⟨a, d', c', ⟨rfl, rfl, rfl⟩, h⟩
    exact h
  · exact fun h => ⟨i, d, c, ⟨rfl, rfl, rfl⟩, h⟩

lemma belowSkipped_node : (node i d c n).BelowSkipped id ↔
    (isSkipped i d = true ∧ id ∈ c.ids) ∨ c.BelowSkipped id ∨ n.BelowSkipped id := by
  simp only [BelowSkipped, has_node, or_and_right, exists_or]
  refine or_congr_left ⟨?_, ?_⟩
  · rintro ⟨a, d', c', ⟨rfl, rfl, rfl⟩, h⟩
    exact h
  · exact fun h => ⟨i, d, c, ⟨rfl, rfl, rfl⟩, h⟩

lemma BelowSkipped.mem_ids (h : f.BelowSkipped id) : id ∈ f.ids := by
  obtain ⟨a, d, c, hhas, -, hid⟩ := h
  exact hhas.ids_subset hid

lemma InSkipped.belowSkipped (h : f.InSkipped id) : f.BelowSkipped id := by
  obtain ⟨a, d, c, hhas, hskipped, hid⟩ := h
  exact ⟨a, d, c, hhas, hskipped, roots_subset c hid⟩

/-- The standing of a text says what is around it. -/
lemma standing_iff (hf : f.ids.Nodup) {s s' : Standing} (h : (id, s') ∈ f.standings s) :
    (s' = .inside ↔ f.InSkipped id ∨ id ∈ f.roots ∧ s = .inside) ∧
      (s' ≠ .free ↔ f.BelowSkipped id ∨ s ≠ .free) := by
  induction f generalizing s with
  | nil => cases h
  | node i d c n ihc ihn =>
    obtain ⟨hic, hin, hc, hn, hdisj⟩ := nodup_ids_node hf
    have hoff {g : Forest} {x : NodeId} (hx : x ∉ g.ids) : ¬ g.BelowSkipped x ∧ ¬ g.InSkipped x :=
      ⟨fun hskipped => hx hskipped.mem_ids, fun hskipped => hx hskipped.belowSkipped.mem_ids⟩
    simp only [standings, List.mem_append, Option.mem_toList, Option.map_eq_some_iff, Prod.mk.injEq] at h
    rw [inSkipped_node, belowSkipped_node, roots, List.mem_cons]
    rcases h with ⟨t, -, rfl, rfl⟩ | h | h
    · -- the first root has nothing around it
      have hroot : i ∉ c.roots := fun hmem => hic (roots_subset c hmem)
      simp [hoff hic, hoff hin, hic, hroot]
    · -- a node below the first root
      have hid := mem_ids_of_mem_standings h
      have hnext := hdisj _ hid
      have hfirst : id ≠ i := fun he => hic (he ▸ hid)
      have hroot : id ∉ n.roots := fun hmem => hnext (roots_subset n hmem)
      obtain ⟨hinside, hfree⟩ := ihc hc h
      rw [Standing.within_eq_inside s i] at hinside
      rw [Standing.within_ne_free s i] at hfree
      rw [hinside, hfree]
      simp only [hoff hnext, hid, hfirst, hroot, and_true, or_false, false_and]
      constructor
      · rw [or_comm, and_comm]
      · rw [or_left_comm, or_assoc]
    · -- a node behind the first root
      have hid := mem_ids_of_mem_standings h
      have hchildren : id ∉ c.ids := fun hmem => hdisj _ hmem hid
      have hfirst : id ≠ i := fun he => hin (he ▸ hid)
      have hroot : id ∉ c.roots := fun hmem => hchildren (roots_subset c hmem)
      simp only [hoff hchildren, hchildren, hfirst, hroot, and_false, false_or]
      exact ihn hn h

/-! ## The two searches -/

/-- The walk of a page goes over all texts. -/
lemma texts_eq (hf : f.Proper) (s : Standing) : f.texts = (f.standings s).map Prod.fst := by
  induction f generalizing s with
  | nil => rfl
  | node i d c n ihc ihn =>
    have hn := ihn hf.2.2 s
    cases d with
    | element tag attributes =>
      simp [texts, standings, NodeData.text?, hn, ihc hf.2.1 (s.within (.element tag attributes))]
    | text t =>
      obtain rfl := (Has.here n).eq_nil_of_text hf
      simp [texts, standings, NodeData.text?, hn]
    | comment t =>
      obtain rfl := hf.1.resolve_left (by simp [NodeData.isElement, NodeData.tag?])
      simp [texts, standings, NodeData.text?, hn]

lemma ne_free_of_mem_standings {s s' : Standing} (hs : s ≠ .free) (h : (id, s') ∈ f.standings s) :
    s' ≠ .free := by
  induction f generalizing s with
  | nil => cases h
  | node i d c n ihc ihn =>
    simp only [standings, List.mem_append, Option.mem_toList, Option.map_eq_some_iff, Prod.mk.injEq] at h
    rcases h with ⟨t, -, -, rfl⟩ | h | h
    · exact hs
    · exact ihc ((Standing.within_ne_free s i).2 (Or.inr hs)) h
    · exact ihn hs h

/-- A document finds the texts around which there is no skipped element. -/
lemma scannedTexts_eq_filter (hf : f.Proper) :
    f.scannedTexts = ((f.standings .free).filter fun e => e.2 = .free).map Prod.fst := by
  induction f with
  | nil => rfl
  | node i d c n ihc ihn =>
    have hn := ihn hf.2.2
    cases d with
    | element tag attributes =>
      by_cases htag : skippedTags.contains tag = true
      · have hnone : (c.standings (Standing.free.within (.element tag attributes))).filter
            (fun e => e.2 = .free) = [] := by
          refine List.filter_eq_nil_iff.2 fun e he hfree => ?_
          have hwithin := (Standing.within_ne_free (d := .element tag attributes) .free i).2 (Or.inl htag)
          exact ne_free_of_mem_standings hwithin he (of_decide_eq_true hfree)
        simp only [scannedTexts, standings, htag, if_true, NodeData.text?, Option.map_none, Option.toList_none,
          List.nil_append, List.filter_append, hnone, hn]
      · have hwithin : Standing.free.within (.element tag attributes) = .free := by
          by_contra hne
          exact htag (((Standing.within_ne_free .free i).1 hne).resolve_right (by simp))
        simp only [scannedTexts, standings, htag, NodeData.text?, Option.map_none, Option.toList_none,
          List.nil_append, List.filter_append, List.map_append, hwithin, hn, ihc hf.2.1, Bool.false_eq_true, if_false]
    | text t =>
      obtain rfl := (Has.here n).eq_nil_of_text hf
      simp [scannedTexts, standings, NodeData.text?, hn]
    | comment t =>
      obtain rfl := hf.1.resolve_left (by simp [NodeData.isElement, NodeData.tag?])
      simp [scannedTexts, standings, NodeData.text?, hn]

/-! ## Forests of the same shape -/

lemma Alike.length_ids (h : Alike f f') : f.ids.length = f'.ids.length := by
  induction h with
  | nil => rfl
  | node _ _ _ _ ihc ihn => simp [ids, ihc, ihn]

lemma counterpart_node (hlength : c.ids.length = c'.ids.length) {i' a a' : NodeId} :
    (node i d c n).Counterpart (node i' d' c' n') a a' ↔
      (a = i ∧ a' = i') ∨ c.Counterpart c' a a' ∨ n.Counterpart n' a a' := by
  rw [Counterpart, ids, ids, List.zip_cons_cons, List.zip_append hlength, List.mem_cons, List.mem_append,
    Prod.mk.injEq]
  rfl

lemma Standing.within_congr (h : d.tag? = d'.tag?) (s : Standing) : s.within d = s.within d' := by
  rw [within, within, h]

/-- Texts at the same places of forests of the same shape stand in the same way. -/
lemma Alike.standings (h : Alike f f') (s : Standing) :
    List.Forall₂ (fun e e' => Counterpart f f' e.1 e'.1 ∧ e.2 = e'.2) (f.standings s) (f'.standings s) := by
  induction h generalizing s with
  | nil => exact List.Forall₂.nil
  | @node i i' d d' c c' n n' htag htext hchildren hnext ihc ihn =>
    rw [Forest.standings, Forest.standings, Standing.within_congr htag]
    simp only [counterpart_node hchildren.length_ids]
    refine List.rel_append ?_ (List.rel_append ((ihc _).imp ?_) ((ihn s).imp ?_))
    · cases ht : d.text? with
      | none =>
        have ht' : d'.text? = none := by simpa [ht] using htext.symm
        rw [ht']
        exact List.Forall₂.nil
      | some t =>
        obtain ⟨t', ht'⟩ := Option.isSome_iff_exists.1 (by simpa [ht] using htext.symm)
        rw [ht']
        exact List.Forall₂.cons ⟨Or.inl ⟨rfl, rfl⟩, rfl⟩ List.Forall₂.nil
    · exact fun e e' h => ⟨Or.inr (Or.inl h.1), h.2⟩
    · exact fun e e' h => ⟨Or.inr (Or.inr h.1), h.2⟩

/-- Of forests of the same shape the two searches find texts at the same places exactly when no text stands below a
skipped element but in another one. -/
lemma Alike.counterparts_iff (h : Alike f f') :
    List.Forall₂ (Counterpart f f') (((f.standings .free).filter fun e => e.2 = .free).map Prod.fst)
        (((f'.standings .free).filter fun e => e.2 ≠ .inside).map Prod.fst) ↔
      ∀ e ∈ f.standings .free, e.2 ≠ .below := by
  have hkept : List.Forall₂ (fun e e' => Counterpart f f' e.1 e'.1 ∧ e.2 = e'.2)
      ((f.standings .free).filter fun e => e.2 ≠ .inside) ((f'.standings .free).filter fun e => e.2 ≠ .inside) :=
    List.rel_filter (fun e e' he => by simp [he.2]) (h.standings .free)
  rw [List.forall₂_map_left_iff, List.forall₂_map_right_iff]
  constructor
  · intro hall e he hbelow
    have hsub : ((f.standings .free).filter fun e => e.2 = .free).Sublist
        ((f.standings .free).filter fun e => e.2 ≠ .inside) :=
      List.monotone_filter_right _ fun e hfree => by simp_all
    have hsame := hsub.eq_of_length (hall.length_eq.trans hkept.length_eq.symm)
    have hmem : e ∈ (f.standings .free).filter fun e => e.2 ≠ .inside := by simp [he, hbelow]
    rw [← hsame] at hmem
    simp [hbelow] at hmem
  · intro hnone
    have hsame : ((f.standings .free).filter fun e => e.2 = .free) =
        (f.standings .free).filter fun e => e.2 ≠ .inside :=
      List.filter_congr fun e he => by
        have := hnone e he
        cases hs : e.2 <;> simp_all
    rw [hsame]
    exact hkept.imp fun e e' he => he.1

/-- No text stands below a skipped element but in another one exactly when each one that stands below a skipped
element stands right inside one. -/
lemma forall_ne_below_iff (hf : f.ids.Nodup) : (∀ e ∈ f.standings .free, e.2 ≠ .below) ↔
    ∀ id, f.IsText id → f.BelowSkipped id → f.InSkipped id := by
  constructor
  · intro h id htext hbelow
    obtain ⟨s, hs⟩ := (isText_iff .free).1 htext
    obtain ⟨hinside, hfree⟩ := standing_iff hf hs
    have hne := h _ hs
    have hne' := hfree.2 (Or.inl hbelow)
    cases s with
    | free => exact absurd rfl hne'
    | below => exact absurd rfl hne
    | inside => exact (hinside.1 rfl).resolve_right (by simp)
  · rintro h ⟨id, s⟩ hs rfl
    obtain ⟨hinside, hfree⟩ := standing_iff hf hs
    have hbelow := (hfree.1 (by simp)).resolve_right (by simp)
    have hin := h id ((isText_iff .free).2 ⟨_, hs⟩) hbelow
    exact absurd (hinside.2 (Or.inl hin)) (by simp)

/-- Texts are listed in document order. -/
lemma standings_sublist (s : Standing) : ((f.standings s).map Prod.fst).Sublist f.ids := by
  induction f generalizing s with
  | nil => exact List.Sublist.refl _
  | node i d c n ihc ihn =>
    rw [standings, ids, List.map_append, List.map_append]
    have hrest := (ihc (s.within d)).append (ihn s)
    cases d with
    | text t => exact hrest.cons_cons i
    | element tag attributes => exact hrest.cons i
    | comment t => exact hrest.cons i

/-- What a search finds that keeps texts by their standing. -/
lemma selected_spec {keep : NodeId × Standing → Bool} {P : NodeId → Prop}
    (hkeep : ∀ e ∈ f.standings .free, keep e = true ↔ P e.1) :
    (((f.standings .free).filter keep).map Prod.fst).Sublist f.ids ∧
      ∀ id, id ∈ ((f.standings .free).filter keep).map Prod.fst ↔ f.IsText id ∧ P id := by
  refine ⟨(List.filter_sublist.map Prod.fst).trans (standings_sublist .free), fun id => ?_⟩
  rw [isText_iff .free]
  constructor
  · intro h
    obtain ⟨⟨id, s⟩, he, rfl⟩ := List.mem_map.1 h
    obtain ⟨hs, hkept⟩ := List.mem_filter.1 he
    exact ⟨⟨s, hs⟩, (hkeep _ hs).1 hkept⟩
  · rintro ⟨⟨s, hs⟩, hP⟩
    exact List.mem_map.2 ⟨(id, s), List.mem_filter.2 ⟨hs, (hkeep _ hs).2 hP⟩, rfl⟩

end Forest

/-! ## Documents -/

namespace Page

open Forest

variable {p : Page} {b id : NodeId}

lemma call_of_no_faults (h : p.faults = []) (c : HostCall) (detail : Text) :
    (call c detail).on p = (.ok (), p) := by
  obtain ⟨forest, fresh, hasWindow, hasDocument, frozen, readyState, globals, faults⟩ := p
  obtain rfl : faults = [] := h
  rfl

lemma walk_of_no_faults (h : p.faults = []) (nodes : List NodeId) : walk nodes p = (nodes, p) := by
  induction nodes with
  | nil => rw [walk, call_of_no_faults h]
  | cons id nodes ih =>
    rw [walk, call_of_no_faults h]
    dsimp only
    rw [ih]

lemma isSkipped_iff_parent (hp : p.forest.ids.Nodup) : p.isSkipped id = true ↔
    ∃ a d c, Has a d c p.forest ∧ Forest.isSkipped a d = true ∧ id ∈ c.roots := by
  constructor
  · intro h
    rw [isSkipped] at h
    cases hparent : p.forest.parent? id with
    | none => simp [hparent] at h
    | some a =>
      obtain ⟨d, c, hhas, hroot⟩ := has_of_parent? hparent
      refine ⟨a, d, c, hhas, ?_, hroot⟩
      rwa [hparent, Option.bind_some, tag?, data?, hhas.data? hp] at h
  · rintro ⟨a, d, c, hhas, hskipped, hroot⟩
    rwa [isSkipped, hhas.parent?_eq hp hroot, Option.bind_some, tag?, data?, hhas.data? hp]

/-- The body is there, and no skipped element. -/
lemma Sound.has_body (h : p.Sound) (hb : p.body? = some b) :
    ∃ data, Has b data (p.forest.childrenOf b) p.forest ∧ Forest.isSkipped b data = false := by
  have hnodup : p.forest.ids.Nodup := h.wellFormed.nodup
  have htag : (p.forest.data? b).bind NodeData.tag? = some "body" := by
    rw [body?, section?] at hb
    simpa using List.find?_some hb
  obtain ⟨data, hdata, htag⟩ := Option.bind_eq_some_iff.1 htag
  obtain ⟨children, hhas⟩ := exists_has ((data?_eq_some_iff hnodup).1 hdata)
  refine ⟨data, ?_, ?_⟩
  · rwa [hhas.childrenOf hnodup]
  · rw [Forest.isSkipped, htag]
    decide

/-- A node below the body is left out when it stands right inside a skipped element. -/
lemma Sound.isSkipped_iff (h : p.Sound) (hb : p.body? = some b) (hid : id ∈ (p.forest.childrenOf b).ids) :
    p.isSkipped id = true ↔ (p.forest.childrenOf b).InSkipped id := by
  have hnodup : p.forest.ids.Nodup := h.wellFormed.nodup
  obtain ⟨data, hbody, hplain⟩ := h.has_body hb
  rw [isSkipped_iff_parent hnodup]
  constructor
  · rintro ⟨a, d, c, hhas, hskipped, hroot⟩
    rcases hbody.parent?_within hnodup hid (hhas.parent?_eq hnodup hroot) with rfl | ha
    · rw [(hhas.unique hnodup hbody).1, hplain] at hskipped
      cases hskipped
    · exact ⟨a, d, c, hbody.restrict hnodup hhas ha, hskipped, hroot⟩
  · rintro ⟨a, d, c, hhas, hskipped, hroot⟩
    exact ⟨a, d, c, hbody.trans hhas, hskipped, hroot⟩

/-- A page finds the texts that do not stand right inside a skipped element, and stays as it is. -/
lemma Sound.textNodes_eq (h : p.Sound) (hb : p.body? = some b) : p.textNodes =
    ((((p.forest.childrenOf b).standings .free).filter fun e => e.2 ≠ .inside).map Prod.fst, p) := by
  obtain ⟨data, hbody, -⟩ := h.has_body hb
  have hnodup := (hbody.nodup h.wellFormed.nodup).2
  have hproper := (hbody.proper h.wellFormed.proper).2
  have hkept : ∀ e ∈ (p.forest.childrenOf b).standings .free,
      (!p.isSkipped e.1) = decide (e.2 ≠ .inside) := by
    intro e he
    have hinside := (standing_iff hnodup he).1
    rw [← h.isSkipped_iff hb (mem_ids_of_mem_standings he)] at hinside
    rw [Bool.eq_iff_iff, decide_eq_true_iff, Ne, hinside]
    simp
  rw [textNodes, hb]
  dsimp only
  rw [call_of_no_faults h.faults]
  dsimp only
  rw [walk_of_no_faults h.faults, texts_eq hproper .free, List.filter_map]
  exact congrArg (fun kept => (kept.map Prod.fst, p)) (List.filter_congr hkept)

end Page

open Forest

/-- **Where a document and a page find the same texts.** However the nodes of a document and of a page came about,
when the trees below the two bodies are of the same shape: the document finds, in document order, the texts that
stand below no skipped element, and the page those that do not stand right inside one. They find the texts at the
same places exactly when every text below a skipped element stands right inside one. -/
theorem textNodes_correspond_iff (loading : Bool) (commands : List Command) (edits : List PageEdit) (b : NodeId)
    (hbody : (Page.script edits).body? = some b)
    (halike : ((Session.run loading commands).document.forest.childrenOf Document.body).Alike
      ((Page.script edits).forest.childrenOf b)) :
    let document := (Session.run loading commands).document
    let page := Page.script edits
    let inDocument := document.forest.childrenOf Document.body
    let inPage := page.forest.childrenOf b
    (document.textNodes.Sublist inDocument.ids ∧
      ∀ id, id ∈ document.textNodes ↔ inDocument.IsText id ∧ ¬ inDocument.BelowSkipped id) ∧
    (page.textNodes.2 = page ∧ page.textNodes.1.Sublist inPage.ids ∧
      ∀ id, id ∈ page.textNodes.1 ↔ inPage.IsText id ∧ ¬ inPage.InSkipped id) ∧
    (List.Forall₂ (inDocument.Counterpart inPage) document.textNodes page.textNodes.1 ↔
      ∀ id, inDocument.IsText id → inDocument.BelowSkipped id → inDocument.InSkipped id) := by
  intro document page inDocument inPage
  have hwell : document.WellFormed := (Session.sound_run loading commands).wellFormed
  have hsound : page.Sound := Page.sound_script edits
  obtain ⟨attributes, children, hhas⟩ := hwell.exists_has_body
  have hchildren : inDocument = children := hhas.childrenOf hwell.nodup
  have hnodup : inDocument.ids.Nodup := hchildren ▸ (hhas.nodup hwell.nodup).2
  have hproper : inDocument.Proper := hchildren ▸ (hhas.proper hwell.proper).2
  obtain ⟨data, hhas', -⟩ := hsound.has_body hbody
  have hnodup' : inPage.ids.Nodup := (hhas'.nodup hsound.wellFormed.nodup).2
  have hfound : document.textNodes = ((inDocument.standings .free).filter fun e => e.2 = .free).map Prod.fst :=
    scannedTexts_eq_filter hproper
  have hfound' := hsound.textNodes_eq hbody
  refine ⟨?_, ⟨by rw [hfound'], ?_⟩, ?_⟩
  · rw [hfound]
    refine selected_spec (P := fun id => ¬ inDocument.BelowSkipped id) fun e he => ?_
    have hfree := (standing_iff hnodup he).2
    rw [decide_eq_true_iff, ← not_iff_not, not_not]
    exact hfree.trans (or_iff_left (by simp))
  · rw [hfound']
    refine selected_spec (P := fun id => ¬ inPage.InSkipped id) fun e he => ?_
    have hinside := (standing_iff hnodup' he).1
    rw [decide_eq_true_iff, not_iff_not]
    exact hinside.trans (or_iff_left (by simp))
  · rw [hfound, hfound', halike.counterparts_iff, forall_ne_below_iff hnodup]

/-- A body with a text right inside a script and one in a paragraph. -/
def scriptAndParagraph : List Command :=
  [.appendElement Document.body "script", .appendText 3 ['x'], .appendElement Document.body "p", .appendText 5 ['y']]

/-- The same body on a page, where the script comes to stand before the paragraph last. -/
def scriptBeforeParagraph : List PageEdit :=
  [.createElement "p", .insert 2 3 none, .createText ['y'], .insert 3 4 none, .createElement "script",
    .insert 2 5 (some 3), .createText ['x'], .insert 5 6 none]

/-- Where the only text in a script stands right inside it, both find the other one. -/
theorem textNodes_correspond_paragraph :
    let document := (Session.run false scriptAndParagraph).document
    let page := Page.script scriptBeforeParagraph
    document.textNodes = [6] ∧ page.textNodes.1 = [4] ∧
      List.Forall₂ ((document.forest.childrenOf Document.body).Counterpart (page.forest.childrenOf 2))
        document.textNodes page.textNodes.1 := by
  intro document page
  have hdocument : document.forest.childrenOf Document.body =
      .node 3 (.element "script" []) (.leaf 4 (.text ['x']))
        (.node 5 (.element "p" []) (.leaf 6 (.text ['y'])) .nil) := by
    decide +kernel
  have hpage : page.forest.childrenOf 2 =
      .node 5 (.element "script" []) (.leaf 6 (.text ['x']))
        (.node 3 (.element "p" []) (.leaf 4 (.text ['y'])) .nil) := by
    decide +kernel
  have hbody : page.body? = some 2 := by decide +kernel
  have halike : (document.forest.childrenOf Document.body).Alike (page.forest.childrenOf 2) := by
    rw [hdocument, hpage]
    exact .node rfl rfl (.node rfl rfl .nil .nil) (.node rfl rfl (.node rfl rfl .nil .nil) .nil)
  refine ⟨by decide +kernel, by decide +kernel, ?_⟩
  refine (textNodes_correspond_iff false scriptAndParagraph scriptBeforeParagraph 2 hbody halike).2.2.2 ?_
  rw [hdocument]
  exact (forall_ne_below_iff (by decide)).1 (by decide)

/-- A body with a script in which a text stands in bold. -/
def boldInScript : List Command :=
  [.appendElement Document.body "script", .appendElement 3 "b", .appendText 4 ['x']]

/-- The same body on a page. -/
def boldInScriptOfPage : List PageEdit :=
  [.createElement "script", .insert 2 3 none, .createElement "b", .insert 3 4 none, .createText ['x'],
    .insert 4 5 none]

/-- The bold text in the script is found by the page, but not by the document. -/
theorem not_textNodes_correspond_boldInScript :
    let document := (Session.run false boldInScript).document
    let page := Page.script boldInScriptOfPage
    page.body? = some 2 ∧
      (document.forest.childrenOf Document.body).Alike (page.forest.childrenOf 2) ∧
      document.textNodes = [] ∧ page.textNodes.1 = [5] ∧
      ¬ List.Forall₂ ((document.forest.childrenOf Document.body).Counterpart (page.forest.childrenOf 2))
        document.textNodes page.textNodes.1 := by
  intro document page
  have hdocument : document.forest.childrenOf Document.body =
      .node 3 (.element "script" []) (.node 4 (.element "b" []) (.leaf 5 (.text ['x'])) .nil) .nil := by
    decide +kernel
  have hpage : page.forest.childrenOf 2 = document.forest.childrenOf Document.body := by decide +kernel
  have hnone : document.textNodes = [] := by decide +kernel
  have hfound : page.textNodes.1 = [5] := by decide +kernel
  refine ⟨by decide +kernel, ?_, hnone, hfound, fun hall => ?_⟩
  · rw [hpage, hdocument]
    exact .node rfl rfl (.node rfl rfl (.node rfl rfl .nil .nil) .nil) .nil
  · rw [hnone, hfound] at hall
    cases hall

end MarkedMath
