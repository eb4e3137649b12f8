import MarkedMath.Page.State
import MarkedMath.Proofs.Documents
import MarkedMath.Proofs.Tree.Parents

/-!
# Scripts of a page

A script makes nodes and moves them about, in any order and any number of times, refused steps included. The
nodes of a page are then as well-formed as those of a document, whatever script has run (`Page.sound_script`).
A page differs from a document in how it takes a node out before it puts it elsewhere; the nodes come to stand in
the same places (`Page.becomes_place`), so the lemmas about documents carry over.
-/

namespace MarkedMath

/-! ## Moves -/

namespace Forest

variable {f c : Forest} {id r parent : NodeId} {d : NodeData} {reference : Option NodeId}

@[simp] lemma insertBefore_nil (f : Forest) (id : NodeId) : f.insertBefore id nil = f := by
  induction f with
  | nil => rfl
  | node i d c n ihc ihn => rw [insertBefore, ihc, ihn, nil_append, ite_self]

@[simp] lemma appendTo_nil (f : Forest) (id : NodeId) : f.appendTo id nil = f := by
  induction f with
  | nil => rfl
  | node i d c n ihc ihn => rw [appendTo, ihc, ihn, append_nil, ite_self]

/-- A node that is not there is moved nowhere. -/
lemma move_of_not_mem (h : id ∉ f.ids) (parent : NodeId) (reference : Option NodeId) :
    f.move parent id reference = f := by
  have htree : f.tree id = nil := by rw [tree, find?_eq_none_iff.2 h]
  have herase : f.erase id = f := splice_of_not_mem h
  cases reference <;> simp [move, htree, herase]

/-- A node may be taken out before it is moved. -/
lemma Has.move_detach (hf : f.ids.Nodup) (h : Has id d c f) (parent : NodeId) (reference : Option NodeId) :
    (f.detach id).move parent id reference = f.move parent id reference := by
  have hout : id ∉ (f.erase id).ids := fun hmem => (h.of_mem_ids_erase hf hmem).2.1 rfl
  have hdetach : f.detach id = f.erase id ++ node id d c nil := by rw [detach, h.tree hf]
  simp only [move, hdetach, tree_last hout, erase_last hout, h.tree hf]

lemma mem_ids_of_nextSibling? (h : f.nextSibling? id = some r) : id ∈ f.ids ∧ r ∈ f.ids := by
  induction f with
  | nil => cases h
  | node i d c n ihc ihn =>
    rw [nextSibling?] at h
    simp only [ids, List.mem_cons, List.mem_append]
    split at h
    · next hi => exact ⟨Or.inl hi.symm, Or.inr (Or.inr (roots_subset n (List.mem_of_head? h)))⟩
    · rcases Option.or_eq_some_iff.1 h with h | ⟨-, h⟩
      · exact ⟨Or.inr (Or.inl (ihc h).1), Or.inr (Or.inl (ihc h).2)⟩
      · exact ⟨Or.inr (Or.inr (ihn h).1), Or.inr (Or.inr (ihn h).2)⟩

/-- The node behind another one is not the same and has the same parent. -/
lemma parent?_of_nextSibling? (hf : f.ids.Nodup) (h : f.nextSibling? id = some r) :
    r ≠ id ∧ f.parent? r = f.parent? id := by
  induction f with
  | nil => cases h
  | node i d c n ihc ihn =>
    obtain ⟨-, hi, hc, hn, -⟩ := nodup_ids_node hf
    rw [nextSibling?] at h
    split at h
    · next he =>
      subst he
      have hroot := List.mem_of_head? h
      refine ⟨fun he => hi (he ▸ roots_subset n hroot), ?_⟩
      rw [parent?_self hf, parent?_of_mem_roots hf (List.mem_cons_of_mem i hroot)]
    · rcases Option.or_eq_some_iff.1 h with h | ⟨-, h⟩
      · obtain ⟨hid, hr⟩ := mem_ids_of_nextSibling? h
        obtain ⟨hne, hparent⟩ := ihc hc h
        exact ⟨hne, by rw [parent?_children hf hr, parent?_children hf hid, hparent]⟩
      · obtain ⟨hid, hr⟩ := mem_ids_of_nextSibling? h
        obtain ⟨hne, hparent⟩ := ihn hn h
        exact ⟨hne, by rw [parent?_next hf hr, parent?_next hf hid, hparent]⟩

end Forest

/-- An element may be given other children, the ones it had standing in no other node. -/
lemma Document.follows_setChildren {d : Document} {id fresh : NodeId} {data : NodeData} {children new : Forest}
    (h : d.WellFormed) (hhas : Forest.Has id data children d.forest) (hid : data.isElement = true)
    (hproper : new.Proper)
    (hnew : d.fresh ≤ fresh ∧ new.ids.Nodup ∧ ∀ i ∈ new.ids, d.fresh ≤ i ∧ i < fresh) :
    d.Follows { d with forest := d.forest.setChildren id new ++ children, fresh } := by
  obtain ⟨hfresh, hnodup, hrange⟩ := hnew
  have hperm : (d.forest.setChildren id new ++ children).entries.Perm (d.forest.entries ++ new.entries) := by
    rw [Forest.entries_append]
    exact hhas.perm_setChildren h.nodup new
  refine ⟨h.change new.ids hfresh ?_ hnodup hrange ?_ ?_, rfl⟩
  · simpa [Forest.ids_eq_map] using hperm.map Prod.fst
  · refine (h.proper.setChildren hproper fun data' hin => ?_).append (hhas.proper h.proper).2
    rwa [Forest.entry_unique h.nodup hin hhas.mem_entries]
  · exact fun i tag attributes hin => ⟨attributes, hperm.symm.subset (List.mem_append_left _ hin)⟩

/-! ## Steps of a script -/

/-- A step of a script on the nodes of a page. -/
inductive PageEdit where
  /-- Makes an element. -/
  | createElement (tag : String)
  /-- Makes a text node. -/
  | createText (data : Text)
  /-- Makes a comment. -/
  | createComment (data : Text)
  /-- Puts a node into another one, at the end or right before a reference node. -/
  | insert (parent child : NodeId) (reference : Option NodeId)
  /-- Takes a node out of its parent. -/
  | remove (node : NodeId)
  /-- Sets the text of a node. -/
  | setText (node : NodeId) (data : Text)
  /-- Sets an attribute. -/
  | setAttribute (node : NodeId) (name : String) (value : Text)
  /-- Adds a class or takes it away. -/
  | setClass (node : NodeId) (name : Text) (enabled : Bool)

namespace Page

/-- Does what a step asks for. A step that throws changes nothing. -/
def edit (p : Page) : PageEdit → Page
  | .createElement tag => (p.createElement tag).2
  | .createText data => (p.create (.text data)).2
  | .createComment data => (p.create (.comment data)).2
  | .insert parent child reference => (p.place parent child reference).toOption.getD p
  | .remove node => p.remove node
  | .setText node data => p.setText node data
  | .setAttribute node name value => p.setAttribute node name value
  | .setClass node name enabled => p.setClass node name enabled

/-- The page after a script on a page without content. -/
def script (edits : List PageEdit) : Page :=
  edits.foldl edit {}

/-- The nodes of a page as a document of their own. -/
def nodes (p : Page) : Document where
  forest := p.forest
  fresh := p.fresh
  loading := false

/-- What holds of a page after every script. -/
structure Sound (p : Page) : Prop where
  /-- The nodes are those of a well-formed document. -/
  wellFormed : p.nodes.WellFormed
  /-- No call throws. -/
  faults : p.faults = []

/-- A page after a step that changes the forest of its nodes and tells the observers. -/
structure Becomes (p : Page) (f : Forest) (p' : Page) : Prop where
  /-- The nodes are those of the forest. -/
  forest : p'.forest = f
  /-- No node was made. -/
  fresh : p'.fresh = p.fresh
  /-- The same calls throw. -/
  faults : p'.faults = p.faults

variable {p p' p'' : Page} {f g : Forest} {parent child id : NodeId} {reference : Option NodeId}

lemma Becomes.trans (h : p.Becomes f p') (h' : p'.Becomes g p'') : p.Becomes g p'' :=
  ⟨h'.forest, h'.fresh.trans h.fresh, h'.faults.trans h.faults⟩

lemma Becomes.recordChange (h : p.Becomes f p') (parent : NodeId) (inserted : List NodeId) :
    p.Becomes f (p'.recordChange parent inserted) := by
  rw [Page.recordChange]
  split <;> exact ⟨h.forest, h.fresh, h.faults⟩

lemma becomes_carry (p : Page) (parent : NodeId) (nodes : List NodeId) :
    p.Becomes p.forest (nodes.foldl (fun p child => p.carry parent child) p) := by
  induction nodes generalizing p with
  | nil => exact ⟨rfl, rfl, rfl⟩
  | cons child nodes ih =>
    have hcarry : p.Becomes p.forest (p.carry parent child) := ⟨rfl, rfl, rfl⟩
    exact hcarry.trans (ih _)

lemma becomes_remove (hparent : p.forest.parent? id = some parent) :
    p.Becomes (p.forest.detach id) (p.remove id) := by
  have hcarry : p.Becomes p.forest (p.carry parent id) := ⟨rfl, rfl, rfl⟩
  have hrecord := hcarry.recordChange parent []
  rw [remove, hparent]
  exact ⟨congrArg (Forest.detach · id) hrecord.forest, hrecord.fresh, hrecord.faults⟩

/-! ### One lemma for each kind of step -/

lemma Sound.of_follows (h : p.Sound) {d : Document} (hd : p.nodes.Follows d) (hforest : p'.forest = d.forest)
    (hfresh : p'.fresh = d.fresh) (hfaults : p'.faults = p.faults) : p'.Sound :=
  ⟨hd.wellFormed.of_forest hforest hfresh, hfaults.trans h.faults⟩

lemma Sound.create (h : p.Sound) (data : NodeData) : (p.create data).2.Sound :=
  h.of_follows (Document.follows_create h.wellFormed data) rfl rfl rfl

lemma Sound.remove (h : p.Sound) (id : NodeId) : (p.remove id).Sound := by
  cases hparent : p.forest.parent? id with
  | none => rwa [Page.remove, hparent]
  | some parent =>
    have hremove := becomes_remove hparent
    exact h.of_follows (Document.follows_detach h.wellFormed (Forest.mem_ids_of_parent? hparent).1)
      hremove.forest hremove.fresh hremove.faults

/-- Taking a node out first makes no difference to where a move puts it. -/
lemma becomes_move (hp : p.forest.ids.Nodup) (parent child : NodeId) (before : Option NodeId) :
    p.Becomes (p.forest.move parent child before)
      { p.remove child with forest := (p.remove child).forest.move parent child before } := by
  cases hup : p.forest.parent? child with
  | none =>
    have hstays : p.remove child = p := by rw [Page.remove, hup]
    rw [hstays]
    exact ⟨rfl, rfl, rfl⟩
  | some up =>
    have hremove := becomes_remove hup
    obtain ⟨d, c, hhas⟩ := Forest.exists_has_of_mem_ids (Forest.mem_ids_of_parent? hup).1
    refine hremove.trans ⟨?_, rfl, rfl⟩
    rw [hremove.forest, hhas.move_detach hp]

/-- A node is put where a move puts it. A node that is put before itself goes before the node behind it. -/
lemma becomes_place (hp : p.forest.ids.Nodup) (hok : p.place parent child reference = .ok p') :
    (p.tag? parent).isSome = true ∧ p.forest.isWithin parent child = false ∧ ∃ before : Option NodeId,
      (∀ r, before = some r → r ≠ child ∧ p.forest.parent? r = some parent) ∧
      p.Becomes (p.forest.move parent child before) p' := by
  rw [place] at hok
  split at hok
  · cases hok
  · next hparent =>
    split at hok
    · cases hok
    · next hreference =>
      obtain rfl := Except.ok.inj hok
      simp only [Bool.or_eq_true, not_or, Bool.not_eq_true, Option.isNone_eq_false_iff] at hparent
      refine ⟨hparent.1, hparent.2, if reference = some child then p.forest.nextSibling? child else reference,
        fun r hr => ?_, ?_⟩
      · split at hr
        · next hself =>
          subst hself
          obtain ⟨hne, hup⟩ := Forest.parent?_of_nextSibling? hp hr
          exact ⟨hne, hup.trans (by simpa using hreference)⟩
        · next hother =>
          subst hr
          exact ⟨fun he => hother (congrArg some he), by simpa using hreference⟩
      · have hmove := becomes_move hp parent child
          (if reference = some child then p.forest.nextSibling? child else reference)
        exact hmove.recordChange parent [child]

lemma Sound.place (h : p.Sound) (hok : p.place parent child reference = .ok p') : p'.Sound := by
  obtain ⟨htag, hwithin, before, hbefore, hmove⟩ := becomes_place h.wellFormed.nodup hok
  by_cases hchild : child ∈ p.forest.ids
  · have hfault : p.nodes.insertFault? parent child before = none := by
      obtain ⟨tag, htag'⟩ := Option.isSome_iff_exists.1 htag
      obtain ⟨data, hdata, -⟩ := Option.bind_eq_some_iff.1 htag'
      have hparent : parent ∈ p.forest.ids :=
        Forest.mem_ids_of_mem_entries ((Forest.data?_eq_some_iff h.wellFormed.nodup).1 hdata)
      have hthere : ¬ (!p.nodes.forest.contains parent || !p.nodes.forest.contains child) = true := by
        simp [nodes, Forest.contains_iff.2 hparent, Forest.contains_iff.2 hchild]
      have helement : ¬ (p.nodes.tag? parent).isNone = true := by
        rw [Option.isNone_iff_eq_none, ← Option.not_isSome_iff_eq_none, not_not]
        exact htag
      have hapart : ¬ p.nodes.forest.isWithin parent child = true := by
        rw [Bool.not_eq_true]
        exact hwithin
      rw [Document.insertFault?.eq_def, if_neg hthere, if_neg helement, if_neg hapart]
      cases before with
      | none => rfl
      | some r =>
        obtain ⟨hne, hup⟩ := hbefore r rfl
        exact (if_neg hne).trans (if_neg (not_not.2 hup))
    exact h.of_follows (Document.follows_place h.wellFormed hfault) hmove.forest hmove.fresh hmove.faults
  · rw [Forest.move_of_not_mem hchild] at hmove
    exact ⟨h.wellFormed.of_forest hmove.forest hmove.fresh, hmove.faults.trans h.faults⟩

/-- What is made for the content of an element: a text node, or nothing for an empty text. -/
lemma setContent_eq (p : Page) (id : NodeId) (data : Text) :
    p.setContent id data = p ∨ ∃ new fresh,
      (new = .nil ∧ fresh = p.fresh ∨ new = .leaf p.fresh (.text data) ∧ fresh = p.fresh + 1) ∧
      { p with fresh }.Becomes (p.forest.setChildren id new ++ p.forest.childrenOf id) (p.setContent id data) := by
  rw [setContent]
  generalize hmade : (if data.isEmpty = true then (Forest.nil, p.fresh)
    else (Forest.leaf p.fresh (.text data), p.fresh + 1)) = made
  obtain ⟨new, fresh⟩ := made
  dsimp only
  refine (ite_eq_or_eq _ _ _).imp_right fun h => ⟨new, fresh, ?_, ?_⟩
  · split at hmade
    · exact Or.inl (by simpa [eq_comm] using hmade)
    · exact Or.inr (by simpa [eq_comm] using hmade)
  · rw [h]
    have hcarry := p.becomes_carry id (p.forest.childrenOf id).roots
    apply Becomes.recordChange
    exact ⟨congrArg (fun f => f.setChildren id new ++ p.forest.childrenOf id) hcarry.forest, rfl, hcarry.faults⟩

lemma Sound.setContent (h : p.Sound) (hid : (p.tag? id).isSome = true) (data : Text) :
    (p.setContent id data).Sound := by
  obtain ⟨tag, htag⟩ := Option.isSome_iff_exists.1 hid
  obtain ⟨element, hdata, htag⟩ := Option.bind_eq_some_iff.1 htag
  obtain ⟨children, hhas⟩ := Forest.exists_has ((Forest.data?_eq_some_iff h.wellFormed.nodup).1 hdata)
  have helement : element.isElement = true := by
    rw [NodeData.isElement, htag]
    rfl
  have hchildren : p.forest.childrenOf id = children := hhas.childrenOf h.wellFormed.nodup
  rcases p.setContent_eq id data with hsame | ⟨new, fresh, hnew, hbecomes⟩
  · rwa [hsame]
  · rw [hchildren] at hbecomes
    refine h.of_follows (Document.follows_setChildren h.wellFormed hhas helement ?_ ?_) hbecomes.forest hbecomes.fresh
      hbecomes.faults
    · rcases hnew with ⟨rfl, rfl⟩ | ⟨rfl, rfl⟩
      · trivial
      · exact ⟨Or.inr rfl, trivial, trivial⟩
    · rcases hnew with ⟨rfl, rfl⟩ | ⟨rfl, rfl⟩
      · exact ⟨Nat.le_refl _, List.nodup_nil, by simp [Forest.ids]⟩
      · exact ⟨Nat.le_succ _, by simp [Forest.leaf, Forest.ids], by simp [Forest.leaf, Forest.ids, nodes]⟩

lemma Sound.changeNode (h : p.Sound) {change : NodeData → NodeData}
    (hchange : ∀ data, (change data).tag? = data.tag?) (id : NodeId) : (p.changeNode id change).Sound :=
  h.of_follows (Document.follows_modify h.wellFormed fun data _ => hchange data) rfl rfl rfl

lemma Sound.setAttribute (h : p.Sound) (id : NodeId) (name : String) (value : Text) :
    (p.setAttribute id name value).Sound :=
  h.changeNode (fun data => by cases data <;> rfl) id

/-- Classes are changed by setting the attribute, if they are changed at all. -/
lemma setClass_eq (p : Page) (id : NodeId) (name : Text) (enabled : Bool) :
    p.setClass id name enabled = p ∨ ∃ value, p.setClass id name enabled = p.setAttribute id "class" value := by
  rw [setClass]
  exact (ite_eq_or_eq _ _ _).imp_right fun h => ⟨_, h⟩

lemma Sound.edit (h : p.Sound) (e : PageEdit) : (p.edit e).Sound := by
  cases e with
  | createElement tag => exact h.create _
  | createText data => exact h.create _
  | createComment data => exact h.create _
  | insert parent child reference =>
    rw [Page.edit]
    cases hok : p.place parent child reference with
    | ok p' => exact h.place hok
    | error fault => exact h
  | remove node => exact h.remove node
  | setText node data =>
    rw [Page.edit, setText]
    split
    · next helement => exact h.setContent helement data
    · exact h.changeNode (fun data => by cases data <;> rfl) node
  | setAttribute node name value => exact h.setAttribute node name value
  | setClass node name enabled =>
    obtain hsame | ⟨value, hset⟩ := p.setClass_eq node name enabled
    · rwa [Page.edit, hsame]
    · rw [Page.edit, hset]
      exact h.setAttribute node "class" value

/-- **After any script the nodes of a page are well-formed**, and calls into it do not throw. -/
lemma sound_script (edits : List PageEdit) : (script edits).Sound := by
  have hstart : ({} : Page).Sound := ⟨Document.wellFormed_empty false, rfl⟩
  exact List.foldlRecOn edits edit hstart fun p h e _ => h.edit e

end Page

end MarkedMath
