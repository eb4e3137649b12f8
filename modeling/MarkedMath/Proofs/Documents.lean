import Mathlib.Data.List.Range
import MarkedMath.Proofs.Tree.Normal

/-!
# Well-formed documents

Whatever is done to a document, it names no node twice, numbers its nodes below the next number, gives
children to elements only, and holds the elements `html`, `head` and `body`. There is one lemma for each
operation, and one for the operations that a pass uses which says what becomes of the forest.
-/

namespace MarkedMath

lemma exists_of_map_eq_ok {ε α β : Type} {f : α → β} {x : Except ε α} {b : β}
    (h : x.map f = .ok b) : ∃ a, x = .ok a ∧ f a = b := by
  cases x with
  | error e => simp [Except.map] at h
  | ok a => exact ⟨a, rfl, by simpa [Except.map] using h⟩

lemma exists_of_bind_eq_ok {ε α β : Type} {f : α → Except ε β} {x : Except ε α} {b : β}
    (h : x.bind f = .ok b) : ∃ a, x = .ok a ∧ f a = .ok b := by
  cases x with
  | error e => simp [Except.bind] at h
  | ok a => exact ⟨a, rfl, h⟩

/-! ## Dropped texts -/

lemma Forest.entries_leaves (texts : List (NodeId × Text)) :
    (texts.foldr (fun (id, data) f => node id (.text data) nil f) nil).entries =
      texts.map fun p => (p.1, .text p.2) := by
  induction texts with
  | nil => rfl
  | cons p texts ih => simp [entries, ih]

lemma Forest.proper_leaves (texts : List (NodeId × Text)) :
    (texts.foldr (fun (id, data) f => node id (.text data) nil f) nil).Proper := by
  induction texts with
  | nil => trivial
  | cons p texts ih => exact ⟨Or.inr rfl, trivial, ih⟩

namespace Document

/-! ## Well-formed documents -/

/-- What holds of every document. -/
structure WellFormed (d : Document) : Prop where
  /-- No node is there twice. -/
  nodup : d.forest.ids.Nodup
  /-- The next number is a new one. -/
  lt_fresh : ∀ id ∈ d.forest.ids, id < d.fresh
  /-- Only elements have children. -/
  proper : d.forest.Proper
  /-- The elements of an empty document are there. -/
  frame : ∀ p ∈ [(html, "html"), (head, "head"), (body, "body")],
    ∃ attributes, (p.1, .element p.2 attributes) ∈ d.forest.entries

/-- Who is told of insertions, in the order of the observers. -/
def listeners (d : Document) : List Listener :=
  d.observers.map Observer.listener

/-- A document may follow another one: it is well-formed and has the same observers. -/
structure Follows (d d' : Document) : Prop where
  /-- The document is well-formed. -/
  wellFormed : d'.WellFormed
  /-- The same are told of insertions. -/
  listeners_eq : d'.listeners = d.listeners

variable {d d' d'' : Document} {id parent child : NodeId} {reference : Option NodeId}

lemma Follows.trans (h : d.Follows d') (h' : d'.Follows d'') : d.Follows d'' :=
  ⟨h'.wellFormed, h'.listeners_eq.trans h.listeners_eq⟩

lemma wellFormed_empty (loading : Bool) : (empty loading).WellFormed where
  nodup := by simp [empty, Forest.ids, Forest.leaf, html, head, body]
  lt_fresh := by simp [empty, Forest.ids, Forest.leaf, html, head, body]
  proper := by simp [empty, Forest.Proper, Forest.leaf, NodeData.isElement, NodeData.tag?]
  frame := by simp [empty, Forest.entries, Forest.leaf]

namespace WellFormed

lemma fresh_not_mem (h : d.WellFormed) {n : NodeId} (hn : d.fresh ≤ n) : n ∉ d.forest.ids :=
  fun hmem => absurd (h.lt_fresh n hmem) (Nat.not_lt.2 hn)

/-- A document is well-formed when its forest has the nodes of a well-formed one and new ones. -/
lemma change (h : d.WellFormed) (added : List NodeId) (hfresh : d.fresh ≤ d'.fresh)
    (hids : d'.forest.ids.Perm (d.forest.ids ++ added)) (hadded : added.Nodup)
    (hrange : ∀ id ∈ added, d.fresh ≤ id ∧ id < d'.fresh) (hproper : d'.forest.Proper)
    (hframe : ∀ id tag attributes, (id, .element tag attributes) ∈ d.forest.entries →
      ∃ attributes', (id, .element tag attributes') ∈ d'.forest.entries) : d'.WellFormed where
  nodup := by
    refine hids.nodup_iff.2 (List.nodup_append'.2 ⟨h.nodup, hadded, fun id hin hnew => ?_⟩)
    exact absurd (h.lt_fresh id hin) (Nat.not_lt.2 (hrange id hnew).1)
  lt_fresh id hin := by
    rcases List.mem_append.1 (hids.subset hin) with hin | hin
    · exact Nat.lt_of_lt_of_le (h.lt_fresh id hin) hfresh
    · exact (hrange id hin).2
  proper := hproper
  frame p hp := by
    obtain ⟨attributes, hin⟩ := h.frame p hp
    exact hframe _ _ _ hin

/-- The nodes may be ordered anew. -/
lemma of_perm (h : d.WellFormed) (hfresh : d'.fresh = d.fresh)
    (hperm : d'.forest.entries.Perm d.forest.entries) (hproper : d'.forest.Proper) :
    d'.WellFormed := by
  refine h.change [] hfresh.ge ?_ List.nodup_nil (by simp) hproper
    fun id tag attributes hin => ⟨attributes, hperm.symm.subset hin⟩
  rw [List.append_nil, Forest.ids_eq_map, Forest.ids_eq_map]
  exact hperm.map Prod.fst

lemma exists_has_frame (h : d.WellFormed) {id : NodeId} {tag : String}
    (hp : (id, tag) ∈ [(html, "html"), (head, "head"), (body, "body")]) :
    ∃ attributes children, Forest.Has id (.element tag attributes) children d.forest := by
  obtain ⟨attributes, hin⟩ := h.frame _ hp
  obtain ⟨children, hchildren⟩ := Forest.exists_has hin
  exact ⟨attributes, children, hchildren⟩

lemma exists_has_body (h : d.WellFormed) : ∃ attributes children,
    Forest.Has body (.element "body" attributes) children d.forest :=
  h.exists_has_frame (by simp)

lemma exists_has_head (h : d.WellFormed) : ∃ attributes children,
    Forest.Has head (.element "head" attributes) children d.forest :=
  h.exists_has_frame (by simp)

end WellFormed

/-! ## Making and moving nodes -/

@[simp] lemma noteInsertions_forest (d : Document) (parent : NodeId) (nodes : List NodeId) :
    (d.noteInsertions parent nodes).forest = d.forest := by
  rw [noteInsertions]
  split <;> rfl

@[simp] lemma noteInsertions_fresh (d : Document) (parent : NodeId) (nodes : List NodeId) :
    (d.noteInsertions parent nodes).fresh = d.fresh := by
  rw [noteInsertions]
  split <;> rfl

@[simp] lemma noteInsertions_listeners (d : Document) (parent : NodeId) (nodes : List NodeId) :
    (d.noteInsertions parent nodes).listeners = d.listeners := by
  rw [noteInsertions]
  split
  · simp [listeners, Function.comp_def]
  · rfl

/-- The insertion of nodes into a parent is noted for every observer when the parent is the body or below it,
and for none otherwise. -/
def Notes (d d' : Document) (parent : NodeId) (nodes : List NodeId) : Prop :=
  d'.observers =
    if d'.forest.isWithin parent body then
      d.observers.map fun o => { o with pending := o.pending ++ nodes }
    else d.observers

lemma notes_noteInsertions (h : d'.observers = d.observers) (parent : NodeId) (nodes : List NodeId) :
    d.Notes (d'.noteInsertions parent nodes) parent nodes := by
  rw [Notes, noteInsertions_forest, noteInsertions]
  split
  · simp only [h]
  · exact h

lemma WellFormed.of_forest (h : d.WellFormed) (hforest : d'.forest = d.forest)
    (hfresh : d'.fresh = d.fresh) : d'.WellFormed :=
  h.of_perm hfresh (by rw [hforest]) (hforest ▸ h.proper)

lemma follows_noteInsertions (h : d.WellFormed) (parent : NodeId) (nodes : List NodeId) :
    d.Follows (d.noteInsertions parent nodes) :=
  ⟨h.of_forest (by simp) (by simp), by simp⟩

lemma follows_create (h : d.WellFormed) (data : NodeData) : d.Follows (d.create data).2 := by
  refine ⟨?_, rfl⟩
  refine h.change [d.fresh] (Nat.le_succ _) ?_ (by simp) (by simp [Document.create]) ?_ ?_
  · simp [Document.create, Forest.leaf, Forest.ids]
  · exact h.proper.append ⟨Or.inr rfl, trivial, trivial⟩
  · intro id tag attributes hin
    exact ⟨attributes, by simp [Document.create, hin]⟩

/-- What lets a child be put into a parent. -/
lemma insertFault?_eq_none (h : d.WellFormed)
    (hfault : d.insertFault? parent child reference = none) :
    ∃ data children tag attributes, Forest.Has child data children d.forest ∧
      (parent, .element tag attributes) ∈ d.forest.entries ∧ parent ≠ child ∧ parent ∉ children.ids ∧
      ∀ r, reference = some r → r ≠ child ∧ d.forest.parent? r = some parent := by
  -- one split for each check, in their order; a check that finds something contradicts `hfault`
  rw [insertFault?.eq_def] at hfault
  split at hfault
  · simp at hfault
  · next hin =>
    split at hfault
    · simp at hfault
    · next htag =>
      split at hfault
      · simp at hfault
      · next hwithin =>
        simp only [Bool.or_eq_true, Bool.not_eq_true', not_or, Bool.not_eq_false,
          Forest.contains_iff] at hin
        obtain ⟨hparent, hchild⟩ := hin
        obtain ⟨data, children, hhas⟩ := Forest.exists_has_of_mem_ids hchild
        rw [hhas.isWithin_iff h.nodup, not_or] at hwithin
        obtain ⟨pdata, hpdata⟩ := Forest.exists_mem_entries hparent
        have htag' : d.tag? parent = pdata.tag? := by
          rw [tag?, data?, (Forest.data?_eq_some_iff h.nodup).2 hpdata]
          rfl
        obtain ⟨tag, attributes, rfl⟩ : ∃ tag attributes, pdata = .element tag attributes := by
          cases pdata with
          | element tag attributes => exact ⟨tag, attributes, rfl⟩
          | _ => simp [htag', NodeData.tag?] at htag
        refine ⟨data, children, tag, attributes, hhas, hpdata, hwithin.1, hwithin.2, ?_⟩
        rintro r rfl
        simp only at hfault
        split at hfault
        · simp at hfault
        · next hne =>
          split at hfault
          · simp at hfault
          · next hr => exact ⟨hne, by simpa [parent?] using hr⟩

/-- The node at which the child is put is there and does not stand below the child. -/
lemma apart_of_insertFault? {data : NodeData} {children : Forest} (h : d.WellFormed)
    (hhas : Forest.Has child data children d.forest) (hparent : parent ∈ d.forest.ids)
    (hne : parent ≠ child) (hbelow : parent ∉ children.ids)
    (hreference : ∀ r, reference = some r → r ≠ child ∧ d.forest.parent? r = some parent) :
    ∀ p, p = reference.getD parent → p ∈ d.forest.ids ∧ p ≠ child ∧ p ∉ children.ids := by
  rintro p rfl
  cases reference with
  | none => exact ⟨hparent, hne, hbelow⟩
  | some r =>
    obtain ⟨hr, hup⟩ := hreference r rfl
    -- a node below the child would have its parent there
    refine ⟨(Forest.mem_ids_of_parent? hup).1, hr, fun hin => ?_⟩
    rcases hhas.parent?_within h.nodup hin hup with hp | hp
    · exact hne hp
    · exact hbelow hp

lemma follows_place (h : d.WellFormed) (hfault : d.insertFault? parent child reference = none) :
    d.Follows (d.place parent child reference) := by
  obtain ⟨data, children, tag, attributes, hhas, hparent, hne, hbelow, hreference⟩ :=
    insertFault?_eq_none h hfault
  have hplace := apart_of_insertFault? h hhas (Forest.mem_ids_of_mem_entries hparent) hne hbelow hreference
  have herase := h.proper.splice Forest.proper_nil child
  have htree := h.proper.tree child
  refine ⟨h.of_perm rfl (hhas.perm_move h.nodup hplace) ?_, rfl⟩
  cases reference with
  | some r => exact herase.insertBefore htree r
  | none =>
    refine herase.appendTo htree fun data' hin => ?_
    have hback := (hhas.perm_splice h.nodup .nil).subset (List.mem_append_left _ hin)
    have hdata := Forest.entry_unique h.nodup (by simpa [Forest.entries] using hback) hparent
    rw [hdata]
    rfl

/-- An insertion is done when nothing is in the way. -/
lemma insert_eq_ok_iff {operation : String} : d.insert operation parent child reference = .ok d' ↔
    d.insertFault? parent child reference = none ∧
      d' = (d.place parent child reference).noteInsertions parent [child] := by
  rw [insert]
  cases d.insertFault? parent child reference <;> simp [eq_comm]

lemma follows_insert (h : d.WellFormed) {operation : String}
    (hok : d.insert operation parent child reference = .ok d') : d.Follows d' := by
  obtain ⟨hfault, rfl⟩ := insert_eq_ok_iff.1 hok
  have hplace := follows_place h hfault
  exact hplace.trans (follows_noteInsertions hplace.wellFormed parent [child])

/-- A new node is made, and it is put into its parent unless it is refused there. -/
lemma appendNew_keeps {P : Document → Prop} {data : NodeData} (hcreate : P (d.create data).2)
    (happend : ∀ d', (d.create data).2.appendChild parent d.fresh = .ok d' → P d') :
    P (d.appendNew parent data).2 := by
  simp only [appendNew]
  cases hok : (d.create data).2.appendChild parent (d.create data).1 with
  | ok d' => exact happend d' hok
  | error e => exact hcreate

lemma follows_appendNew (h : d.WellFormed) (parent : NodeId) (data : NodeData) :
    d.Follows (d.appendNew parent data).2 := by
  have hcreate := follows_create h data
  exact appendNew_keeps hcreate fun _ hok => hcreate.trans (follows_insert hcreate.wellFormed hok)

lemma follows_detach (h : d.WellFormed) (hid : id ∈ d.forest.ids) :
    d.Follows { d with forest := d.forest.detach id } := by
  obtain ⟨data, children, hhas⟩ := Forest.exists_has_of_mem_ids hid
  exact ⟨h.of_perm rfl (hhas.perm_detach h.nodup)
    ((h.proper.splice Forest.proper_nil id).append (h.proper.tree id)), rfl⟩

lemma remove_eq_ok_iff : d.remove id = .ok d' ↔
    (∃ p, d.parent? id = some p) ∧ d' = { d with forest := d.forest.detach id } := by
  rw [remove]
  cases d.parent? id <;> simp [eq_comm]

lemma follows_remove (h : d.WellFormed) (hok : d.remove id = .ok d') : d.Follows d' := by
  obtain ⟨⟨p, hp⟩, rfl⟩ := remove_eq_ok_iff.1 hok
  exact follows_detach h (Forest.mem_ids_of_parent? hp).1

/-! ## Attributes and classes -/

lemma follows_modify (h : d.WellFormed) {change : NodeData → NodeData}
    (hchange : ∀ data, (id, data) ∈ d.forest.entries → (change data).tag? = data.tag?) :
    d.Follows { d with forest := d.forest.modify id change } := by
  refine ⟨h.change [] (Nat.le_refl _) ?_ List.nodup_nil (by simp) ?_ ?_, rfl⟩
  · simp [Forest.ids_modify]
  · refine h.proper.modify fun data hin => ?_
    rw [NodeData.isElement, NodeData.isElement, hchange data hin]
  · intro i tag attributes hin
    rcases Forest.mem_entries_modify change id hin with hmod | ⟨rfl, hmod⟩
    · exact ⟨attributes, hmod⟩
    · have htag := hchange _ hin
      cases hdata : change (.element tag attributes) with
      | element tag' attributes' =>
        obtain rfl : tag' = tag := by simpa [hdata, NodeData.tag?] using htag
        exact ⟨attributes', hdata ▸ hmod⟩
      | _ => simp [hdata, NodeData.tag?] at htag

lemma follows_setAttribute (h : d.WellFormed) {name : String} {value : Text}
    (hok : d.setAttribute id name value = .ok d') : d.Follows d' := by
  rw [setAttribute] at hok
  split at hok
  · next tag attributes hdata =>
    obtain rfl := by simpa using hok
    refine follows_modify h fun data hin => ?_
    rw [data?, Forest.data?_eq_some_iff h.nodup] at hdata
    rw [Forest.entry_unique h.nodup hin hdata]
    rfl
  · simp at hok

lemma follows_removeAttribute (h : d.WellFormed) (id : NodeId) (name : String) :
    d.Follows (d.removeAttribute id name) :=
  follows_modify h fun data _ => by cases data <;> rfl

lemma follows_addClass (h : d.WellFormed) {name : Text} (hok : d.addClass id name = .ok d') :
    d.Follows d' := by
  rw [addClass] at hok
  split at hok
  · obtain rfl := by simpa using hok
    exact ⟨h, rfl⟩
  · exact follows_setAttribute h hok

lemma follows_removeClass (h : d.WellFormed) {name : Text} (hok : d.removeClass id name = .ok d') :
    d.Follows d' := by
  rw [removeClass] at hok
  split at hok
  · obtain rfl := by simpa using hok
    exact ⟨h, rfl⟩
  · exact follows_setAttribute h hok

lemma follows_setBodyClass (h : d.WellFormed) {name : Text} {enabled : Bool}
    (hok : d.setBodyClass name enabled = .ok d') : d.Follows d' := by
  rw [setBodyClass] at hok
  split at hok
  · exact follows_addClass h hok
  · exact follows_removeClass h hok

/-! ## Normalizing -/

lemma has_body_normalize (h : d.WellFormed) {data : NodeData} {children : Forest}
    (hbody : Forest.Has body data children d.forest) :
    Forest.Has body data children.normalize d.normalize.forest := by
  rw [normalize, hbody.childrenOf h.nodup]
  exact (hbody.setChildren_self h.nodup _).append_left _

/-- Normalizing keeps all numbers. -/
lemma perm_ids_normalize (h : d.WellFormed) : d.normalize.forest.ids.Perm d.forest.ids := by
  obtain ⟨attributes, children, hbody⟩ := h.exists_has_body
  have hperm := hbody.perm_setChildren h.nodup children.normalize
  have hids := List.perm_iff_count.1 (hperm.map Prod.fst)
  have hdropped := List.perm_iff_count.1 (Forest.perm_normalize (hbody.proper h.proper).2)
  rw [normalize, hbody.childrenOf h.nodup, List.perm_iff_count]
  intro e
  have hide := hids e
  have hdrope := hdropped e
  simp only [Forest.ids_eq_map, List.map_append, Forest.entries_append, Forest.entries_leaves,
    List.map_map, List.count_append] at hide hdrope ⊢
  have hmap : (Prod.fst ∘ fun p : NodeId × Text => (p.1, NodeData.text p.2)) = Prod.fst := rfl
  rw [hmap]
  omega

lemma follows_normalize (h : d.WellFormed) : d.Follows d.normalize := by
  obtain ⟨attributes, children, hbody⟩ := h.exists_has_body
  have hproper := (hbody.proper h.proper).2
  have hperm := hbody.perm_setChildren h.nodup children.normalize
  refine ⟨h.change [] (Nat.le_refl _) ?_ List.nodup_nil (by simp) ?_ ?_, rfl⟩
  · rw [List.append_nil]
    exact perm_ids_normalize h
  · rw [normalize, hbody.childrenOf h.nodup]
    refine Forest.Proper.append (h.proper.setChildren hproper.normalize fun data hin => ?_)
      (Forest.proper_leaves _)
    rw [Forest.entry_unique h.nodup hin hbody.mem_entries]
    rfl
  · intro id tag attributes' hin
    refine ⟨attributes', ?_⟩
    -- an element is in the children of the body as often as in their normal form
    have hcount := List.perm_iff_count.1 hperm (id, .element tag attributes')
    have hother : children.normalize.entries.count (id, .element tag attributes') =
        children.entries.count (id, .element tag attributes') :=
      Forest.count_normalizeRun hproper rfl
    have hpos := List.count_pos_iff.2 hin
    simp only [List.count_append] at hcount
    rw [normalize, hbody.childrenOf h.nodup, Forest.entries_append]
    exact List.mem_append_left _ (List.count_pos_iff.1 (by omega))

/-! ## Replacing texts -/

end Document

lemma NodeSpec.roots_build (fresh : NodeId) (spec : NodeSpec) : (spec.build fresh).1.roots = [fresh] := by
  cases spec <;> rfl

/-- New nodes have the next numbers in order. -/
lemma NodeSpec.buildAll_spec (fresh : NodeId) (specs : List NodeSpec) :
    ∃ n : Nat, (buildAll fresh specs).1.ids = List.range' fresh n ∧
      (buildAll fresh specs).2 = fresh + n ∧ (buildAll fresh specs).1.Proper := by
  induction specs generalizing fresh with
  | nil => exact ⟨0, rfl, rfl, trivial⟩
  | cons spec specs ih =>
    cases spec with
    | text data =>
      obtain ⟨n, hids, hnext, hproper⟩ := ih (fresh + 1)
      refine ⟨n + 1, ?_, ?_, ⟨Or.inr rfl, trivial, hproper⟩⟩
      · simp [buildAll, build, Forest.leaf, Forest.ids, hids, List.range'_succ]
      · simp only [buildAll, build, hnext, Nat.add_assoc, Nat.add_comm 1 n]
    | element tag attributes content =>
      obtain ⟨n, hids, hnext, hproper⟩ := ih (fresh + 2)
      refine ⟨n + 2, ?_, ?_, ⟨Or.inl rfl, ⟨Or.inr rfl, trivial, trivial⟩, hproper⟩⟩
      · simp [buildAll, build, Forest.leaf, Forest.ids, hids, List.range'_succ]
      · simp only [buildAll, build, hnext, Nat.add_assoc, Nat.add_comm 2 n]

namespace Document

variable {d d' : Document} {id : NodeId} {specs : List NodeSpec}

/-- A node that has a parent is replaced. -/
lemma replaceText_eq_ok (hparent : (d.parent? id).isSome = true) (specs : List NodeSpec) :
    ∃ d', d.replaceText id specs = .ok d' ∧
      d'.forest = d.forest.splice id (NodeSpec.buildAll d.fresh specs).1 ++ d.forest.tree id ∧
      d'.fresh = (NodeSpec.buildAll d.fresh specs).2 ∧ d'.listeners = d.listeners := by
  obtain ⟨parent, hparent⟩ := Option.isSome_iff_exists.1 hparent
  rw [replaceText, hparent]
  exact ⟨_, rfl, by simp, by simp, by rw [noteInsertions_listeners]; rfl⟩

/-- The new nodes join those of the document. -/
lemma forest_of_replaceText (h : d.WellFormed) (hok : d.replaceText id specs = .ok d') :
    d'.forest = d.forest.splice id (NodeSpec.buildAll d.fresh specs).1 ++ d.forest.tree id ∧
      d'.fresh = (NodeSpec.buildAll d.fresh specs).2 ∧ d'.listeners = d.listeners ∧
      d'.forest.entries.Perm (d.forest.entries ++ (NodeSpec.buildAll d.fresh specs).1.entries) := by
  have hparent : (d.parent? id).isSome = true := by
    by_contra hnone
    rw [Option.not_isSome_iff_eq_none] at hnone
    rw [replaceText, hnone] at hok
    simp at hok
  obtain ⟨d₁, hok₁, hforest, hfresh, hlisteners⟩ := replaceText_eq_ok hparent specs
  obtain rfl : d₁ = d' := by simpa [hok₁] using hok
  obtain ⟨parent, hparent⟩ := Option.isSome_iff_exists.1 hparent
  obtain ⟨data, children, hhas⟩ :=
    Forest.exists_has_of_mem_ids (Forest.mem_ids_of_parent? hparent).1
  refine ⟨hforest, hfresh, hlisteners, ?_⟩
  rw [hforest, hhas.tree h.nodup, Forest.entries_append]
  exact hhas.perm_splice h.nodup _

lemma follows_replaceText (h : d.WellFormed) (hok : d.replaceText id specs = .ok d') :
    d.Follows d' := by
  obtain ⟨hforest, hfresh, hlisteners, hperm⟩ := forest_of_replaceText h hok
  obtain ⟨n, hids, hnext, hproper⟩ := NodeSpec.buildAll_spec d.fresh specs
  refine ⟨h.change (List.range' d.fresh n) ?_ ?_ List.nodup_range' ?_ ?_ ?_, hlisteners⟩
  · rw [hfresh, hnext]
    exact Nat.le_add_right _ _
  · rw [← hids]
    simpa only [Forest.ids_eq_map, List.map_append] using hperm.map Prod.fst
  · intro i hi
    rw [hfresh, hnext]
    simpa using List.mem_range'_1.1 hi
  · rw [hforest]
    exact (h.proper.splice hproper id).append (h.proper.tree id)
  · exact fun i tag attributes hin =>
      ⟨attributes, hperm.symm.subset (List.mem_append_left _ hin)⟩

/-- A text node below the body is replaced where it stands. -/
lemma replaceText_below_body (h : d.WellFormed) {data : NodeData} {children : Forest} {t : Text}
    (hbody : Forest.Has body data children d.forest) (hid : (id, .text t) ∈ children.entries)
    (specs : List NodeSpec) :
    ∃ d', d.replaceText id specs = .ok d' ∧ d.Follows d' ∧
      d'.forest = d.forest.splice id (NodeSpec.buildAll d.fresh specs).1 ++ d.forest.tree id ∧
      d'.fresh = (NodeSpec.buildAll d.fresh specs).2 ∧
      Forest.Has body data (children.splice id (NodeSpec.buildAll d.fresh specs).1) d'.forest := by
  obtain ⟨below, hhas⟩ := Forest.exists_has hid
  have hmem := hhas.mem_ids
  have hroot := hbody.trans hhas
  obtain rfl := hroot.eq_nil_of_text h.proper
  have hne : body ≠ id := fun he => (hbody.nodup h.nodup).1 (he ▸ hmem)
  obtain ⟨d', hok, hforest, hfresh, -⟩ :=
    replaceText_eq_ok (hbody.parent?_isSome hmem) specs
  refine ⟨d', hok, follows_replaceText h hok, hforest, hfresh, ?_⟩
  rw [hforest]
  exact (hroot.splice h.nodup hbody hne (by simp [Forest.ids]) _).append_left _

/-! ## Adding style rules -/

/-- The tree of a style element. -/
def styleTree (fresh : NodeId) (id css : String) : Forest :=
  .node fresh (.element "style" [("id", id.toList)]) (.leaf (fresh + 1) (.text css.toList)) .nil

lemma insert_eq_ok {parent child : NodeId} {reference : Option NodeId} (operation : String)
    (hfault : d.insertFault? parent child reference = none) :
    ∃ d', d.insert operation parent child reference = .ok d' ∧
      d'.forest = d.forest.move parent child reference ∧ d'.fresh = d.fresh ∧
      d.Notes d' parent [child] := by
  rw [insert, hfault]
  exact ⟨_, rfl, by simp [place], by simp [place], notes_noteInsertions rfl parent [child]⟩

/-- A root may be put into an element that is not below it. -/
lemma insertFault?_of_last {d : Document} {f children : Forest} {parent child : NodeId}
    {data : NodeData} {tag : String} {attributes : List (String × Text)}
    (hforest : d.forest = f ++ .node child data children .nil) (hnodup : d.forest.ids.Nodup)
    (hparent : (parent, .element tag attributes) ∈ f.entries) :
    d.insertFault? parent child none = none := by
  have hlast : Forest.Has child data children d.forest := by
    rw [hforest]
    exact (Forest.Has.here _).append_right f
  have hin : (parent, .element tag attributes) ∈ d.forest.entries := by
    rw [hforest, Forest.entries_append]
    exact List.mem_append_left _ hparent
  have hapart : parent ≠ child ∧ parent ∉ children.ids := by
    have hdisj := (Forest.nodup_ids_append.1 (hforest ▸ hnodup)).2.2
    simpa [Forest.ids] using hdisj (Forest.mem_ids_of_mem_entries hparent)
  have htag : d.tag? parent = some tag := by
    rw [tag?, data?, (Forest.data?_eq_some_iff hnodup).2 hin]
    rfl
  have hwithin : d.forest.isWithin parent child = false := by
    rw [Bool.eq_false_iff, Ne, hlast.isWithin_iff hnodup]
    tauto
  simp [insertFault?, Forest.contains_iff.2 (Forest.mem_ids_of_mem_entries hin),
    Forest.contains_iff.2 hlast.mem_ids, htag, hwithin]

/-- A new text node comes to stand in the last tree, and nobody is told when the body stands elsewhere. -/
lemma appendChild_text_last {d : Document} {f : Forest} {parent : NodeId} {tag : String}
    {attributes : List (String × Text)} (h : d.WellFormed)
    (hforest : d.forest = f ++ .node parent (.element tag attributes) .nil .nil) (hbody : body ∈ f.ids)
    (data : Text) :
    ∃ d', (d.create (.text data)).2.appendChild parent d.fresh = .ok d' ∧
      d'.forest = f ++ .node parent (.element tag attributes) (.leaf d.fresh (.text data)) .nil ∧
      d'.fresh = d.fresh + 1 ∧ d.Follows d' ∧ d'.observers = d.observers := by
  have hcreate := follows_create h (.text data)
  have hnew := h.fresh_not_mem (Nat.le_refl d.fresh)
  have hparent : parent ∉ f.ids := by
    have hdisj := (Forest.nodup_ids_append.1 (hforest ▸ h.nodup)).2.2
    exact fun hin => hdisj hin (by simp [Forest.ids])
  have hlast : (d.create (.text data)).2.forest = d.forest ++ .node d.fresh (.text data) .nil .nil :=
    rfl
  have hin : (parent, .element tag attributes) ∈ d.forest.entries := by
    rw [hforest]
    simp [Forest.entries]
  have hfault := insertFault?_of_last hlast hcreate.wellFormed.nodup hin
  obtain ⟨d', hok, hforest', hfresh', hnotes⟩ := insert_eq_ok "appendChild" hfault
  have hfollows := hcreate.trans (follows_insert hcreate.wellFormed hok)
  have hmoved : d'.forest =
      f ++ .node parent (.element tag attributes) (.leaf d.fresh (.text data)) .nil := by
    rw [hforest', Forest.move, hlast, Forest.tree_last hnew, Forest.erase_last hnew, hforest]
    exact Forest.appendTo_last hparent _
  refine ⟨d', hok, hmoved, hfresh', hfollows, ?_⟩
  obtain ⟨bodyData, children, hhas⟩ := Forest.exists_has_of_mem_ids hbody
  have hoff : d'.forest.isWithin parent body = false := by
    have hhas' : Forest.Has body bodyData children d'.forest := by
      rw [hmoved]
      exact hhas.append_left _
    rw [Bool.eq_false_iff, Ne, hhas'.isWithin_iff hfollows.wellFormed.nodup, not_or]
    exact ⟨fun he => hparent (he ▸ hbody), fun hin => hparent (hhas.ids_subset hin)⟩
  rw [hnotes, if_neg (by simp [hoff])]
  rfl

/-- The last tree is an element that gets an attribute. -/
lemma setAttribute_last {d : Document} {f children : Forest} {id : NodeId} {tag : String}
    {attributes : List (String × Text)} (hid : id ∉ f.ids)
    (hforest : d.forest = f ++ .node id (.element tag attributes) children .nil) (name : String)
    (value : Text) :
    ∃ d', d.setAttribute id name value = .ok d' ∧
      d'.forest =
        f ++ .node id (.element tag (NodeData.setAttribute name value attributes)) children .nil ∧
      d'.fresh = d.fresh ∧ d'.observers = d.observers := by
  have hdata : d.data? id = some (.element tag attributes) := by
    rw [data?, Forest.data?, hforest, Forest.find?_last hid]
    rfl
  rw [setAttribute, hdata]
  refine ⟨_, rfl, ?_, rfl, rfl⟩
  rw [hforest, Forest.modify_last hid]

/-- The operations behind an insertion of style rules. -/
lemma steps_of_insertStyle {id css : String} (hok : d.insertStyle id css = .ok d') :
    ∃ d₁ d₂, (d.createElement "style").2.setAttribute d.fresh "id" id.toList = .ok d₁ ∧
      (d₁.create (.text css.toList)).2.appendChild d.fresh d₁.fresh = .ok d₂ ∧
        d₂.appendChild head d.fresh = .ok d' := by
  have hsteps : ((d.createElement "style").2.setAttribute d.fresh "id" id.toList).bind (fun d₁ =>
      ((d₁.create (.text css.toList)).2.appendChild d.fresh d₁.fresh).bind fun d₂ =>
        d₂.appendChild head d.fresh) = .ok d' := hok
  obtain ⟨d₁, hset, hsteps⟩ := exists_of_bind_eq_ok hsteps
  obtain ⟨d₂, htext, happend⟩ := exists_of_bind_eq_ok hsteps
  exact ⟨d₁, d₂, hset, htext, happend⟩

/-- Style rules come to stand at the end of the head. -/
lemma insertStyle_eq_ok (h : d.WellFormed) (id css : String) :
    ∃ d', d.insertStyle id css = .ok d' ∧
      d'.forest = d.forest.appendTo head (styleTree d.fresh id css) ∧ d'.fresh = d.fresh + 2 ∧
      d.Follows d' ∧ d.Notes d' head [d.fresh] := by
  -- four operations, each on the document that the one before it gave
  have hnew := h.fresh_not_mem (Nat.le_refl d.fresh)
  have hcreate := follows_create h (.element "style" [])
  have hforest₁ : (d.createElement "style").2.forest =
      d.forest ++ .node d.fresh (.element "style" []) .nil .nil := rfl
  obtain ⟨d₂, hset, hforest₂, hfresh₂, hobservers₂⟩ :=
    setAttribute_last hnew hforest₁ "id" id.toList
  have hfollows₂ := hcreate.trans (follows_setAttribute hcreate.wellFormed hset)
  obtain ⟨bodyAttributes, bodyChildren, hbody⟩ := h.exists_has_body
  obtain ⟨d₃, htext, hforest₃, hfresh₃, hfollows₃, hobservers₃⟩ :=
    appendChild_text_last hfollows₂.wellFormed hforest₂ hbody.mem_ids css.toList
  have hfollows₃ := hfollows₂.trans hfollows₃
  obtain ⟨attributes, children, hhead⟩ := h.exists_has_head
  have hfault := insertFault?_of_last hforest₃ hfollows₃.wellFormed.nodup hhead.mem_entries
  obtain ⟨d₄, hok, hforest₄, hfresh₄, hnotes₄⟩ := insert_eq_ok "appendChild" hfault
  refine ⟨d₄, ?_, ?_, ?_, hfollows₃.trans (follows_insert hfollows₃.wellFormed hok), ?_⟩
  · show ((d.createElement "style").2.setAttribute d.fresh "id" id.toList).bind _ = _
    rw [hset]
    show ((d₂.create (.text css.toList)).2.appendChild d.fresh d₂.fresh).bind _ = _
    rw [htext]
    exact hok
  · rw [hforest₄, Forest.move, hforest₃, Forest.tree_last hnew, Forest.erase_last hnew, hfresh₂]
    rfl
  · rw [hfresh₄, hfresh₃, hfresh₂]
    rfl
  · rw [Notes, hnotes₄, hobservers₃, hobservers₂]
    rfl

lemma follows_insertStyle (h : d.WellFormed) {id css : String}
    (hok : d.insertStyle id css = .ok d') : d.Follows d' := by
  obtain ⟨d₁, hok₁, -, -, hfollows, -⟩ := insertStyle_eq_ok h id css
  obtain rfl : d₁ = d' := by simpa [hok₁] using hok
  exact hfollows

/-! ## Observers -/

lemma follows_takeRecords (h : d.WellFormed) (observer : Nat) :
    d.Follows (d.takeRecords observer) := by
  refine ⟨h.of_forest rfl rfl, ?_⟩
  refine List.ext_getElem? fun i => ?_
  rw [listeners, takeRecords, listeners, List.getElem?_map, List.getElem?_modify, List.getElem?_map]
  cases d.observers[i]? with
  | none => rfl
  | some o =>
    simp only [Option.map_eq_map, Option.map_some]
    split <;> rfl

lemma follows_takeBatches (h : d.WellFormed) : d.Follows d.takeBatches.2 :=
  ⟨h.of_forest rfl rfl, by simp [listeners, takeBatches, Function.comp_def]⟩

end Document

end MarkedMath
