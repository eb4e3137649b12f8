import MarkedMath.Proofs.Arena.Changes
import MarkedMath.Proofs.Arena.Reached
import MarkedMath.Proofs.Arena.Scenes

/-!
# Placing nodes

Putting a child into a parent, taking a node out of its parent and putting new nodes in the place of a node
are done exactly when `Placement.Allowed` says so, and they change what `Placement.Changes` says. All checks
come before all changes, so what is not allowed leaves slots and queues as they are: this is the main
statement, `Session.placements_exact`.

An insertion is followed in the slots, where it is a detachment and an attachment; a replacement is followed
in the forest, where it is a single splice.
-/

namespace MarkedMath

open Forest (Has)

/-! ## Operations that place nodes -/

/-- An operation that puts nodes into places, with any nodes. -/
inductive Placement where
  /-- Moves a child to the end of a parent. -/
  | append (parent child : NodeId)
  /-- Moves a child into a parent, right before a reference node. -/
  | insertBefore (parent child reference : NodeId)
  /-- Takes a node out of its parent. -/
  | remove (node : NodeId)
  /-- Puts new nodes in the place of a node. -/
  | replaceText (node : NodeId) (specs : List NodeSpec)

namespace Placement

/-- What it does to a document. -/
def onDocument (d : Document) : Placement → Except HostError Document
  | append parent child => d.appendChild parent child
  | insertBefore parent child reference => d.insertBefore parent child reference
  | remove node => d.remove node
  | replaceText node specs => d.replaceText node specs

/-- What it does to slots and queues, step by step. -/
def operation : Placement → Operation Unit
  | append parent child => Operation.appendChild parent child
  | insertBefore parent child reference => Operation.insertBefore parent child reference
  | remove node => Operation.remove node
  | replaceText node specs => Operation.replaceText node specs

/-- When it is done. -/
def Allowed (s : Scene) : Placement → Prop
  | append parent child => s.Admits parent child
  | insertBefore parent child reference =>
    s.Admits parent child ∧ reference ∈ s.children parent ∧ reference ≠ child
  | remove node => s.parent? node ≠ none
  | replaceText node _ => s.parent? node ≠ none

/-- What changes when it is done. -/
def Changes (s s' : Scene) : Placement → Prop
  | append parent child => s.Inserts s' parent child none
  | insertBefore parent child reference => s.Inserts s' parent child (some reference)
  | remove node => s.Removes s' node
  | replaceText node specs => s.Replaces s' node specs

end Placement

variable {a : Arena} {d d' : Document} {i parent child id : NodeId} {reference : Option NodeId}

/-! ## Insertions -/

/-- What is inserted at the index of a reference stands right before it. -/
lemma exists_insertIdx_idxOf? {l : List NodeId} {r : NodeId} (hl : l.Nodup) (hr : r ∈ l) (child : NodeId) :
    ∃ front back, l = front ++ r :: back ∧
      l.insertIdx ((l.idxOf? r).getD l.length) child = front ++ child :: r :: back := by
  obtain ⟨index, hindex, -, hinsert, -⟩ := exists_idxOf? hl hr
  obtain ⟨front, back, rfl⟩ := List.append_of_mem hr
  refine ⟨front, back, rfl, ?_⟩
  rw [hindex, Option.getD_some, hinsert, exchange_append_cons hl, List.append_assoc]
  rfl

namespace Arena.Represents

variable (ha : a.Represents d) (hd : d.WellFormed)
include ha hd

/-- Nothing is in the way exactly when the insertion is allowed. -/
lemma insertFault?_eq_none_iff : d.insertFault? parent child reference = none ↔
    d.scene.Admits parent child ∧ ∀ r, reference = some r → r ∈ d.children parent ∧ r ≠ child := by
  constructor
  · intro hfault
    obtain ⟨data, c, tag, attributes, hhas, hparent, hne, hbelow, hreference⟩ :=
      Document.insertFault?_eq_none hd hfault
    refine ⟨⟨hd.lt_fresh _ (Forest.mem_ids_of_mem_entries hparent), hd.lt_fresh _ hhas.mem_ids,
      ⟨tag, attributes, (Forest.data?_eq_some_iff hd.nodup).2 hparent⟩, ?_⟩, fun r hr => ?_⟩
    · rw [← Document.isWithin_iff_within hd, hhas.isWithin_iff hd.nodup, not_or]
      exact ⟨hne, hbelow⟩
    · obtain ⟨hrc, hup⟩ := hreference r hr
      exact ⟨(Document.mem_children_iff hd).2 hup, hrc⟩
  · rintro ⟨⟨hparent, hchild, ⟨tag, attributes, helement⟩, hapart⟩, hreference⟩
    have hin : (!d.forest.contains parent || !d.forest.contains child) = false := by
      simp [Forest.contains_iff.2 (ha.complete parent hparent), Forest.contains_iff.2 (ha.complete child hchild)]
    have htag : (d.tag? parent).isNone = false := by
      rw [Document.tag?, show d.data? parent = _ from helement]
      rfl
    rw [← Document.isWithin_iff_within hd, Bool.not_eq_true] at hapart
    rw [Document.insertFault?.eq_def, hin, htag, hapart]
    cases reference with
    | none => rfl
    | some r =>
      obtain ⟨hmem, hne⟩ := hreference r rfl
      simp [hne, (Document.mem_children_iff hd).1 hmem]

lemma listed (p : NodeId) (hid : id ∈ a.children p) : a.parent? id = some p := by
  rw [ha.children_eq hd] at hid
  rw [ha.parent?_eq hd]
  exact (Document.mem_children_iff hd).1 hid

/-- What putting a child into a parent does to the nodes: the child is taken out of the list that it was in, and
put into the list of the parent. -/
lemma place_spec (hfault : d.insertFault? parent child reference = none) :
    (∀ i, (d.place parent child reference).data? i = d.data? i) ∧
      (∀ i, (d.place parent child reference).parent? i = if i = child then some parent else d.parent? i) ∧
      ∀ p, (d.place parent child reference).children p =
        let others := (d.children p).filter (· ≠ child)
        if p = parent then others.insertIdx ((reference.bind fun r => others.idxOf? r).getD others.length) child
        else others := by
  have hplaced := (Document.follows_place hd hfault).wellFormed
  obtain ⟨⟨-, hchild, ⟨tag, attributes, helement⟩, -⟩, -⟩ := (ha.insertFault?_eq_none_iff hd).1 hfault
  -- in the slots this is a detachment and an attachment
  obtain ⟨b, hb, hrep⟩ := ha.insert hd hfault
  rw [ha.insert_eq hd, hfault] at hb
  obtain ⟨a₁, hdetach, hb⟩ := Option.bind_eq_some_iff.1 hb
  obtain ⟨b', hattach, hb⟩ := Option.bind_eq_some_iff.1 hb
  obtain rfl : b' = b := by simpa using hb
  obtain ⟨-, hnode₁, hparent₁, hchildren₁⟩ := detach_spec hdetach (ha.size_eq ▸ hchild) (ha.listed hd)
  have htag : (a₁.tag? parent).isSome = true := by
    rw [tag?, hnode₁, ha.node?_eq hd, show d.data? parent = _ from helement]
    rfl
  obtain ⟨-, hnode₂, hparent₂, hchildren₂⟩ := attach_spec hattach htag
  refine ⟨fun i => ?_, fun i => ?_, fun p => ?_⟩
  · rw [← hrep.node?_eq hplaced, hnode₂, hnode₁, ha.node?_eq hd]
  · rw [← hrep.parent?_eq hplaced, hparent₂, hparent₁, ha.parent?_eq hd]
    split <;> rfl
  · rw [← hrep.children_eq hplaced, hchildren₂, hchildren₁, ha.children_eq hd]
    by_cases hp : p = parent
    · subst hp
      rw [if_pos rfl, hchildren₁, ha.children_eq hd]
      exact (if_pos rfl).symm
    · rw [if_neg hp]
      exact (if_neg hp).symm

/-- What an insertion changes. -/
lemma inserts {operation : String} (hok : d.insert operation parent child reference = .ok d') :
    d.scene.Inserts d'.scene parent child reference := by
  obtain ⟨hfault, rfl⟩ := Document.insert_eq_ok_iff.1 hok
  obtain ⟨hdata, hparent, hchildren⟩ := ha.place_spec hd hfault
  have hlist := (hchildren parent).trans (if_pos rfl)
  have hnotes : d.scene.Notes _ parent [child] :=
    Document.notes_scene (Document.follows_place hd hfault).wellFormed rfl parent [child]
  rw [Document.scene_noteInsertions] at hnotes ⊢
  refine ⟨rfl, hdata, hparent, fun p hp => (hchildren p).trans (if_neg hp), fun hr => ?_, fun r hr => ?_, hnotes⟩
  · subst hr
    exact hlist.trans (List.insertIdx_length_self ..)
  · subst hr
    obtain ⟨hmem, hne⟩ := ((ha.insertFault?_eq_none_iff hd).1 hfault).2 r rfl
    obtain ⟨front, back, hsplit, hinsert⟩ := exists_insertIdx_idxOf?
      ((Document.nodup_children hd parent).filter (· ≠ child)) (List.mem_filter.2 ⟨hmem, by simpa using hne⟩) child
    exact ⟨front, back, hsplit, hlist.trans hinsert⟩

/-- What taking a node out of its parent changes. -/
lemma removes (hok : d.remove id = .ok d') : d.scene.Removes d'.scene id := by
  have hd' := (Document.follows_remove hd hok).wellFormed
  obtain ⟨⟨p, hp⟩, rfl⟩ := Document.remove_eq_ok_iff.1 hok
  have hid := (Forest.mem_ids_of_parent? hp).1
  obtain ⟨b, hb, -, hrep⟩ := ha.detach hd hid
  obtain ⟨-, hnode, hparent, hchildren⟩ := detach_spec hb ((ha.mem_ids_iff hd).1 hid) (ha.listed hd)
  refine ⟨rfl, fun i => ?_, fun i => ?_, fun p => ?_, rfl⟩
  · show Document.data? _ i = d.data? i
    rw [← hrep.node?_eq hd', hnode, ha.node?_eq hd]
  · show Document.parent? _ i = if i = id then none else d.parent? i
    rw [← hrep.parent?_eq hd', hparent, ha.parent?_eq hd]
  · show Document.children _ p = (d.children p).filter (· ≠ id)
    rw [← hrep.children_eq hd', hchildren, ha.children_eq hd]

end Arena.Represents

/-! ## Replacements -/

/-- New nodes fit their specifications where they stand. -/
lemma Document.fits_of_shapes {specs : List NodeSpec} {spec : NodeSpec} (hd : d.WellFormed)
    (hok : d.replaceText id specs = .ok d') (h : (NodeSpec.buildAll d.fresh specs).1.Shapes i spec) :
    d'.scene.Fits d.fresh i spec := by
  have hd' := (follows_replaceText hd hok).wellFormed
  have hnew : ∀ {i e c}, Has i e c (NodeSpec.buildAll d.fresh specs).1 →
      d'.data? i = some e ∧ d'.children i = c.roots := by
    intro i e c h
    have h' := has_replaceText_of_new hd hok h
    exact ⟨h'.data? hd'.nodup, by rw [children, h'.childrenOf hd'.nodup]⟩
  cases spec with
  | text data => exact hnew h
  | element tag attributes content =>
    obtain ⟨set, t, hset, h⟩ := h
    have ht := h.trans (.here .nil)
    obtain ⟨count, hids, -⟩ := NodeSpec.buildAll_spec d.fresh specs
    have hlate : d.fresh ≤ t := (List.mem_range'_1.1 (hids ▸ ht.mem_ids)).1
    refine ⟨set, t, hset, (hnew h).1, (hnew h).2, hlate, (hnew ht).1, (mem_children_iff hd').1 ?_, (hnew ht).2⟩
    rw [(hnew h).2]
    exact List.mem_singleton_self t

/-- What putting new nodes in the place of a node changes. -/
lemma Arena.Represents.replaces (ha : a.Represents d) (hd : d.WellFormed) {specs : List NodeSpec}
    (hok : d.replaceText id specs = .ok d') : d.scene.Replaces d'.scene id specs := by
  have hd' := (Document.follows_replaceText hd hok).wellFormed
  obtain ⟨p, hp, hnoted⟩ := Document.replaceText_eq_ok_iff.1 hok
  obtain ⟨count, hids, hnext, -⟩ := NodeSpec.buildAll_spec d.fresh specs
  obtain ⟨hshapes, hbelow⟩ := NodeSpec.forall₂_shapes d.fresh specs
  have hfresh : d'.fresh = d.fresh + count := by rw [hnoted, Document.noteInsertions_fresh, ← hnext]
  obtain ⟨front, back, hsplit⟩ := List.append_of_mem ((Document.mem_children_iff hd).2 hp)
  have hplace : d'.children p = front ++ (NodeSpec.buildAll d.fresh specs).1.roots ++ back := by
    rw [Document.children_replaceText hd hok (Forest.mem_ids_of_parent? hp).2, hsplit,
      exchange_append_cons (hsplit ▸ Document.nodup_children hd p)]
  refine ⟨?_, fun i hi => Document.data?_replaceText hd hok (ha.complete i hi),
    fun i hi => Document.parent?_replaceText hd hok (ha.complete i hi), p, front, back, _, hp, hsplit, hplace,
    fun q hq hne => ?_, fun i hi => ⟨?_, ?_⟩, hshapes.imp fun _ _ => Document.fits_of_shapes hd hok,
    fun i hi hi' => ?_, ?_⟩
  · show d.fresh ≤ d'.fresh
    rw [hfresh]
    exact Nat.le_add_right ..
  · refine (Document.children_replaceText hd hok (ha.complete q hq)).trans
      (exchange_of_not_mem (fun hmem => hne ?_) _)
    exact Option.some.inj (((Document.mem_children_iff hd).1 hmem).symm.trans hp)
  · exact (List.mem_range'_1.1 (hids ▸ Forest.roots_subset _ hi)).1
  · rw [show d'.scene.parent? i = d'.parent? i from rfl, ← Document.mem_children_iff hd', hplace]
    exact List.mem_append_left _ (List.mem_append_right _ hi)
  · -- all numbers from `d.fresh` on are those of new nodes
    have hmem : i ∈ (NodeSpec.buildAll d.fresh specs).1.ids := by
      rw [hids, List.mem_range'_1]
      exact ⟨hi, hfresh ▸ hi'⟩
    refine (hbelow i hmem).imp_right ?_
    rintro ⟨j, hj, e, u, h⟩
    refine ⟨j, hj, ?_⟩
    show d'.children j = [i]
    rw [Document.children, (Document.has_replaceText_of_new hd hok h).childrenOf hd'.nodup]
    rfl
  · rw [hnoted]
    refine Document.notes_scene ?_ ?_ p _
    · rw [hnoted] at hd'
      exact hd'.of_forest (Document.noteInsertions_forest ..).symm (Document.noteInsertions_fresh ..).symm
    · rfl

/-! ## All placements -/

namespace Placement

variable (hd : d.WellFormed) (p : Placement)
include hd

lemma mirrors : p.operation.Mirrors d (p.onDocument d) := by
  cases p with
  | append parent child => exact Operation.mirrors_insert hd _ parent child none
  | insertBefore parent child reference => exact Operation.mirrors_insert hd _ parent child (some reference)
  | remove node => exact Operation.mirrors_remove hd node
  | replaceText node specs => exact Operation.mirrors_replaceText hd node specs

lemma follows_onDocument (hok : p.onDocument d = .ok d') : d.Follows d' := by
  cases p with
  | append parent child => exact Document.follows_insert hd hok
  | insertBefore parent child reference => exact Document.follows_insert hd hok
  | remove node => exact Document.follows_remove hd hok
  | replaceText node specs => exact Document.follows_replaceText hd hok

lemma sameOtherwise_onDocument (hok : p.onDocument d = .ok d') : d.SameOtherwise d' := by
  refine ⟨?_, (p.follows_onDocument hd hok).listeners_eq⟩
  cases p with
  | append parent child =>
    obtain ⟨-, rfl⟩ := Document.insert_eq_ok_iff.1 hok
    exact Document.noteInsertions_otherwise ..
  | insertBefore parent child reference =>
    obtain ⟨-, rfl⟩ := Document.insert_eq_ok_iff.1 hok
    exact Document.noteInsertions_otherwise ..
  | remove node =>
    obtain ⟨-, rfl⟩ := Document.remove_eq_ok_iff.1 hok
    rfl
  | replaceText node specs =>
    obtain ⟨p, -, rfl⟩ := Document.replaceText_eq_ok_iff.1 hok
    exact Document.noteInsertions_otherwise ..

variable (ha : a.Represents d)
include ha

lemma changes (hok : p.onDocument d = .ok d') : p.Changes d.scene d'.scene := by
  cases p with
  | append parent child => exact ha.inserts hd hok
  | insertBefore parent child reference => exact ha.inserts hd hok
  | remove node => exact ha.removes hd hok
  | replaceText node specs => exact ha.replaces hd hok

/-- What is allowed is done, and nothing else. -/
lemma allowed_iff : p.Allowed d.scene ↔ ∃ d', p.onDocument d = .ok d' := by
  have hinsert : ∀ operation parent child reference,
      (∃ d', d.insert operation parent child reference = .ok d') ↔
        d.insertFault? parent child reference = none := by
    intro operation parent child reference
    simp only [Document.insert_eq_ok_iff, exists_and_left, exists_eq, and_true]
  cases p with
  | append parent child =>
    refine Iff.trans ?_ (hinsert "appendChild" parent child none).symm
    rw [ha.insertFault?_eq_none_iff hd]
    exact (and_iff_left fun r hr => by cases hr).symm
  | insertBefore parent child reference =>
    refine Iff.trans ?_ (hinsert "insertBefore" parent child (some reference)).symm
    rw [ha.insertFault?_eq_none_iff hd]
    exact and_congr_right fun _ => ⟨fun h r hr => by cases hr; exact h, fun h => h reference rfl⟩
  | remove node =>
    show d.parent? node ≠ none ↔ ∃ d', d.remove node = .ok d'
    simp only [Document.remove_eq_ok_iff, exists_and_left, exists_eq, and_true, Option.ne_none_iff_exists']
  | replaceText node specs =>
    show d.parent? node ≠ none ↔ ∃ d', d.replaceText node specs = .ok d'
    simp only [Document.replaceText_eq_ok_iff, Option.ne_none_iff_exists']
    exact ⟨fun ⟨p, hp⟩ => ⟨_, p, hp, rfl⟩, fun ⟨_, p, hp, _⟩ => ⟨p, hp⟩⟩

end Placement

namespace Session

/-- **Placing nodes is exact, and all or nothing.** Take the document of any run, as it stands in the slots of
an arena that edits lead to, and any placement. Either it is not allowed; then it is refused, and slots and
queues are left as they are. Or it is allowed; then it is done, what it changes in the document is what
`Placement.Changes` says, and nothing else, and the same is to be seen in the slots and queues. -/
theorem placements_exact (loading : Bool) (commands : List Command) :
    let d := (run loading commands).document
    ∃ edits a, Arena.run edits = some a ∧ a.Represents d ∧ (Observed.mk a d.queues).scene = d.scene ∧
      ∀ p : Placement,
        match p.onDocument d with
        | .error e => ¬ p.Allowed d.scene ∧
            p.operation.outcome ⟨a, d.queues⟩ = some (.error e, ⟨a, d.queues⟩)
        | .ok d' => p.Allowed d.scene ∧ p.Changes d.scene d'.scene ∧ d.SameOtherwise d' ∧
            ∃ o, p.operation.outcome ⟨a, d.queues⟩ = some (.ok (), o) ∧ o.scene = d'.scene := by
  intro d
  obtain ⟨hd, edits, a, ha, hrep⟩ :=
    invariant_run Document.invariant_reached Document.reached_empty loading commands
  have hshows : (Observed.mk a d.queues).Shows d := ⟨hrep, rfl⟩
  refine ⟨edits, a, ha, hrep, hshows.scene_eq hd, fun p => ?_⟩
  have hmirrors := p.mirrors hd
  have hallowed := p.allowed_iff hd hrep
  cases houtcome : p.onDocument d with
  | error e =>
    rw [houtcome] at hmirrors hallowed
    obtain ⟨o, ho, hshows'⟩ := hmirrors _ hshows
    refine ⟨fun h => ?_, ?_⟩
    · obtain ⟨d', hd'⟩ := hallowed.1 h
      cases hd'
    · rw [ho, hshows'.unique hshows hd]
  | ok d' =>
    rw [houtcome] at hmirrors hallowed
    obtain ⟨o, ho, hshows'⟩ := hmirrors _ hshows
    exact ⟨hallowed.2 ⟨d', rfl⟩, p.changes hd hrep houtcome, p.sameOtherwise_onDocument hd houtcome, o, ho,
      hshows'.scene_eq (p.follows_onDocument hd houtcome).wellFormed⟩

end Session

end MarkedMath
