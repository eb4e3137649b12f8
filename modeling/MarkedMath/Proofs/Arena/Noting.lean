import MarkedMath.Proofs.Arena.Simulation

/-!
# Operations that note insertions

An arena with the queues of the observers, and the operations that put nodes into places and note this in the
queues. Each of them does its steps one after the other, and what it did before it is refused stays done. They
are run side by side with the document (`Operation.Yields`): what is noted here step by step, walking up from
the parent each time, is what the document notes at once.
-/

namespace MarkedMath

/-- What observers have not been told of, for each of them. -/
def Document.queues (d : Document) : List (List NodeId) :=
  d.observers.map Observer.pending

/-- An arena whose insertions are noted. -/
structure Observed where
  /-- The slots. -/
  arena : Arena
  /-- What has been noted for each observer. -/
  queues : List (List NodeId)

/-- What an operation does to an arena and the queues. -/
abbrev Operation (α : Type) : Type :=
  ExceptT HostError (StateT Observed Option) α

namespace Operation

open Arena (Action)

/-- The answer of an operation and the state after it, if it has a result at all. -/
def outcome {α : Type} (x : Operation α) (o : Observed) : Option (Except HostError α × Observed) :=
  x.run.run o

/-- Does something to the arena and nothing to the queues. -/
def onArena {α : Type} (x : Action α) : Operation α :=
  ExceptT.mk fun o => (x.outcome o.arena).map fun (r, a) => (r, { o with arena := a })

/-- Puts another arena in place. -/
def setArena (a : Arena) : Operation Unit := do
  set { (← get) with arena := a }

/-- Notes a child for every observer when its parent is the body or below it. -/
def record (parent child : NodeId) : Operation Unit := do
  if ← onArena (Action.isNoted parent) then
    let o ← get
    set { o with queues := o.queues.map fun q => q ++ [child] }

/-- Puts a child into a parent and notes it. -/
def insert (operation : String) (parent child : NodeId) (reference : Option NodeId) : Operation Unit := do
  match ← (← get).arena.insert parent child reference with
  | .error fault => throw (.rejected operation fault.message)
  | .ok a =>
    setArena a
    record parent child

/-- Moves a child to the end of a parent. -/
def appendChild (parent child : NodeId) : Operation Unit :=
  insert "appendChild" parent child none

/-- Moves a child into a parent, right before a reference node. -/
def insertBefore (parent child reference : NodeId) : Operation Unit :=
  insert "insertBefore" parent child (some reference)

/-- Makes a text node at the end of a parent. -/
def appendText (parent : NodeId) (data : Text) : Operation NodeId := do
  let id ← onArena (Action.create (.text data))
  appendChild parent id
  return id

/-- Takes a node out of its parent. -/
def remove (id : NodeId) : Operation Unit :=
  onArena (Action.remove id)

/-- Makes the nodes of a specification. Gives the root. -/
def materialize : NodeSpec → Operation NodeId
  | .text data => onArena (Action.create (.text data))
  | .element tag attributes content => do
    let id ← onArena (Action.createElement tag)
    onArena (Action.setAttributes id attributes)
    discard (appendText id content)
    return id

/-- Makes the nodes of specifications. Gives the roots. -/
def materializeAll : List NodeSpec → Operation (List NodeId)
  | [] => return []
  | spec :: rest => do
    let id ← materialize spec
    return id :: (← materializeAll rest)

/-- Puts new nodes in the place of a node and notes each of them. -/
def replaceText (id : NodeId) (specs : List NodeSpec) : Operation Unit := do
  if ((← get).arena.parent? id).isNone then throw .detached
  let nodes ← materializeAll specs
  match ← (← get).arena.replace id nodes with
  | .error fault => throw (.rejected "replaceWith" fault.message)
  | .ok (parent, a) =>
    setArena a
    nodes.forM (record parent)

end Operation

/-! ## Side by side with a document -/

/-- The arena represents the document, and the same is noted. -/
structure Observed.Shows (o : Observed) (d : Document) : Prop where
  /-- The slots are those of the document. -/
  represents : o.arena.Represents d
  /-- The queues are those of its observers. -/
  queues_eq : o.queues = d.queues

lemma Observed.Shows.congr {o : Observed} {d d' : Document} (h : o.Shows d) (hforest : d'.forest = d.forest)
    (hfresh : d'.fresh = d.fresh) (hqueues : d'.queues = d.queues) : o.Shows d' :=
  ⟨h.represents.of_forest hforest hfresh, h.queues_eq.trans hqueues.symm⟩

lemma Document.queues_noteInsertions (d : Document) (parent : NodeId) (nodes : List NodeId) :
    (d.noteInsertions parent nodes).queues =
      if d.forest.isWithin parent body then d.queues.map fun q => q ++ nodes else d.queues := by
  rw [noteInsertions]
  split
  · simp [queues, Function.comp_def]
  · rfl

namespace Operation

open Arena (Action)

variable {α β : Type} {x : Operation α} {f : α → Operation β} {e : HostError} {v : α}
  {r : Except HostError β} {o o' : Observed} {d d' d₁ d₂ : Document}

lemma outcome_bind_ok (h : x.outcome o = some (.ok v, o')) : (x >>= f).outcome o = (f v).outcome o' := by
  have hx : x.run.run o = some (.ok v, o') := h
  show (x >>= f).run.run o = _
  rw [ExceptT.run_bind, StateT.run_bind, hx]
  rfl

lemma outcome_bind_error (h : x.outcome o = some (.error e, o')) :
    (x >>= f).outcome o = some (.error e, o') := by
  have hx : x.run.run o = some (.error e, o') := h
  show (x >>= f).run.run o = _
  rw [ExceptT.run_bind, StateT.run_bind, hx]
  rfl

/-- From any state that shows `d`, the operation comes to the answer `r` and to a state that shows `d'`. -/
def Yields (x : Operation α) (d : Document) (r : Except HostError α) (d' : Document) : Prop :=
  ∀ o : Observed, o.Shows d → ∃ o', x.outcome o = some (r, o') ∧ o'.Shows d'

lemma Yields.bind (h : x.Yields d (.ok v) d₁) (hf : (f v).Yields d₁ r d₂) : (x >>= f).Yields d r d₂ := by
  intro o ho
  obtain ⟨o', hx, ho'⟩ := h o ho
  rw [outcome_bind_ok hx]
  exact hf o' ho'

lemma Yields.bind_error (h : x.Yields d (.error e) d₁) : (x >>= f).Yields d (.error e) d₁ := by
  intro o ho
  obtain ⟨o', hx, ho'⟩ := h o ho
  exact ⟨o', outcome_bind_error hx, ho'⟩

lemma yields_pure (v : α) (d : Document) : (pure v : Operation α).Yields d (.ok v) d :=
  fun o ho => ⟨o, rfl, ho⟩

lemma yields_throw (e : HostError) (d : Document) : (throw e : Operation α).Yields d (.error e) d :=
  fun o ho => ⟨o, rfl, ho⟩

lemma yields_get {f : Observed → Operation β} (h : ∀ o, o.Shows d → (f o).Yields d r d') :
    (get >>= f : Operation β).Yields d r d' :=
  fun o ho => h o ho o ho

lemma yields_set (ho' : o'.Shows d') : (set o' : Operation PUnit).Yields d (.ok ⟨⟩) d' :=
  fun _ _ => ⟨o', rfl, ho'⟩

/-- A look at the slots that has a result. -/
lemma yields_look {l : Option α} (h : l = some v) : (liftM l : Operation α).Yields d (.ok v) d := by
  subst h
  exact fun o ho => ⟨o, rfl, ho⟩

lemma Yields.discard (h : x.Yields d (.ok v) d') : (Functor.discard x : Operation PUnit).Yields d (.ok ⟨⟩) d' := by
  have hsame : (Functor.discard x : Operation PUnit) = x >>= fun _ => pure ⟨⟩ := by
    show Function.const α PUnit.unit <$> x = _
    rw [map_eq_pure_bind]
  rw [hsame]
  exact h.bind (yields_pure _ _)

/-- What is done to the arena alone leaves the queues. -/
lemma yields_onArena {x : Action α} {r : Except HostError α} (h : x.Yields d r d') :
    (onArena x).Yields d r { d' with observers := d.observers } := by
  intro o ho
  obtain ⟨b, hb, hrep⟩ := h o.arena ho.represents
  refine ⟨{ o with arena := b }, ?_, hrep.of_forest rfl rfl, ho.queues_eq⟩
  show (x.outcome o.arena).map _ = _
  rw [hb]
  rfl

lemma yields_setArena {a : Arena} (ha : a.Represents d') (hqueues : d'.queues = d.queues) :
    (setArena a).Yields d (.ok ()) d' :=
  yields_get fun _ ho => yields_set ⟨ha, ho.queues_eq.trans hqueues.symm⟩

/-! ## Noting -/

lemma yields_record (hd : d.WellFormed) (parent child : NodeId) :
    (record parent child).Yields d (.ok ()) (d.noteInsertions parent [child]) := by
  have hnoted := yields_onArena (Action.yields_isNoted hd parent)
  have hqueues := d.queues_noteInsertions parent [child]
  cases hin : d.forest.isWithin parent Document.body with
  | true =>
    rw [hin] at hnoted hqueues
    refine hnoted.bind (yields_get fun o ho => yields_set ⟨?_, ?_⟩)
    · exact ho.represents.of_forest (Document.noteInsertions_forest ..) (Document.noteInsertions_fresh ..)
    · rw [hqueues, if_pos rfl, ho.queues_eq]
  | false =>
    rw [hin] at hnoted hqueues
    refine hnoted.bind fun o ho => ⟨o, rfl, ?_⟩
    exact ho.congr (Document.noteInsertions_forest ..) (Document.noteInsertions_fresh ..) hqueues

/-- Nodes that are noted one after the other. -/
lemma yields_forM_record (hd : d.WellFormed) (parent : NodeId) (nodes : List NodeId) :
    (nodes.forM (record parent) : Operation PUnit).Yields d (.ok ⟨⟩) (d.noteInsertions parent nodes) := by
  induction nodes generalizing d with
  | nil =>
    refine fun o ho => ⟨o, rfl, ho.congr (Document.noteInsertions_forest ..)
      (Document.noteInsertions_fresh ..) ?_⟩
    rw [Document.queues_noteInsertions]
    simp
  | cons i nodes ih =>
    have hd' := (Document.follows_noteInsertions hd parent [i]).wellFormed
    refine (yields_record hd parent i).bind fun o ho => ?_
    obtain ⟨o', hrest, ho'⟩ := ih hd' o ho
    refine ⟨o', hrest, ho'.congr (by simp) (by simp) ?_⟩
    simp only [Document.queues_noteInsertions, Document.noteInsertions_forest]
    split <;> simp

/-! ## Placing nodes -/

/-- The operation does what an operation with this outcome does to the document. -/
def Mirrors (x : Operation Unit) (d : Document) : Except HostError Document → Prop
  | .ok d' => x.Yields d (.ok ()) d'
  | .error e => x.Yields d (.error e) d

lemma mirrors_insert (hd : d.WellFormed) (operation : String) (parent child : NodeId)
    (reference : Option NodeId) :
    (insert operation parent child reference).Mirrors d (d.insert operation parent child reference) := by
  rw [Document.insert]
  cases hfault : d.insertFault? parent child reference with
  | some fault =>
    refine yields_get fun o ho => ?_
    have hb := ho.represents.insert_eq hd parent child reference
    rw [hfault] at hb
    exact (yields_look hb).bind (yields_throw _ _)
  | none =>
    have hplaced := (Document.follows_place hd hfault).wellFormed
    refine yields_get fun o ho => ?_
    obtain ⟨b, hb, hrep⟩ := ho.represents.insert hd hfault
    have hset : (setArena b).Yields d (.ok ()) (d.place parent child reference) := yields_setArena hrep rfl
    exact (yields_look hb).bind (hset.bind (yields_record hplaced parent child))

lemma mirrors_remove (hd : d.WellFormed) (id : NodeId) : (remove id).Mirrors d (d.remove id) := by
  have hremove := Action.mirrors_remove hd id
  rw [Document.remove] at hremove ⊢
  cases hp : d.parent? id with
  | none =>
    rw [hp] at hremove
    exact yields_onArena hremove
  | some p =>
    rw [hp] at hremove
    exact yields_onArena hremove

lemma yields_appendText {id : NodeId} {data : Text} (hd : d.WellFormed)
    (hok : (d.create (.text data)).2.appendChild id d.fresh = .ok d') :
    (appendText id data).Yields d (.ok d.fresh) d' := by
  have hcreate := (Document.follows_create hd (.text data)).wellFormed
  have happend := mirrors_insert hcreate "appendChild" id d.fresh none
  rw [show (d.create (.text data)).2.insert "appendChild" id d.fresh none = .ok d' from hok] at happend
  exact (yields_onArena (Action.yields_create hd (.text data))).bind (happend.bind (yields_pure _ _))

/-- New nodes are made without anything being noted: until they are put into their places, they stand by
themselves. -/
lemma yields_materialize (hd : d.WellFormed) (spec : NodeSpec) :
    ∃ d', (materialize spec).Yields d (.ok d.fresh) d' ∧ d'.WellFormed ∧
      d'.forest = d.forest ++ (spec.build d.fresh).1 ∧ d'.fresh = (spec.build d.fresh).2 ∧
      d'.queues = d.queues := by
  cases spec with
  | text data =>
    exact ⟨_, yields_onArena (Action.yields_create hd (.text data)), (Document.follows_create hd _).wellFormed,
      rfl, rfl, rfl⟩
  | element tag attributes content =>
    have hd₁ := (Document.follows_create hd (.element (lowerName tag) [])).wellFormed
    have hforest₁ : (d.create (.element (lowerName tag) [])).2.forest =
        d.forest ++ .node d.fresh (.element (lowerName tag) []) .nil .nil := rfl
    obtain ⟨d₂, hset, hd₂, hforest₂, hfresh₂⟩ :=
      Action.yields_setAttributes attributes [] hd₁ (hd.fresh_not_mem (Nat.le_refl d.fresh)) hforest₁
    have hd₂' : ({ d₂ with observers := d.observers } : Document).WellFormed := hd₂.of_forest rfl rfl
    obtain ⟨_, _, hbody⟩ := hd.exists_has_body
    obtain ⟨d₃, hok, hforest₃, hfresh₃, hfollows, hobservers⟩ :=
      Document.appendChild_text_last hd₂' hforest₂ hbody.mem_ids content
    refine ⟨d₃, ?_, hfollows.wellFormed, ?_, ?_, ?_⟩
    · exact (yields_onArena (Action.yields_create hd _)).bind ((yields_onArena hset).bind
        ((yields_appendText hd₂' hok).discard.bind (yields_pure _ _)))
    · rw [hforest₃]
      show _ = d.forest ++ _
      rw [hfresh₂]
      rfl
    · rw [hfresh₃]
      show d₂.fresh + 1 = _
      rw [hfresh₂]
      rfl
    · rw [Document.queues, hobservers]
      rfl

lemma yields_materializeAll (hd : d.WellFormed) (specs : List NodeSpec) :
    ∃ d', (materializeAll specs).Yields d (.ok (NodeSpec.buildAll d.fresh specs).1.roots) d' ∧
      d'.WellFormed ∧ d'.forest = d.forest ++ (NodeSpec.buildAll d.fresh specs).1 ∧
      d'.fresh = (NodeSpec.buildAll d.fresh specs).2 ∧ d'.queues = d.queues := by
  induction specs generalizing d with
  | nil => exact ⟨d, yields_pure _ _, hd, (Forest.append_nil _).symm, rfl, rfl⟩
  | cons spec specs ih =>
    obtain ⟨d₁, hyields₁, hd₁, hforest₁, hfresh₁, hqueues₁⟩ := yields_materialize hd spec
    obtain ⟨d₂, hyields₂, hd₂, hforest₂, hfresh₂, hqueues₂⟩ := ih hd₁
    rw [hfresh₁] at hyields₂ hforest₂ hfresh₂
    refine ⟨d₂, ?_, hd₂, ?_, hfresh₂, hqueues₂.trans hqueues₁⟩
    · have hroots : (NodeSpec.buildAll d.fresh (spec :: specs)).1.roots =
          d.fresh :: (NodeSpec.buildAll (spec.build d.fresh).2 specs).1.roots := by
        rw [NodeSpec.buildAll, Forest.roots_append, NodeSpec.roots_build]
        rfl
      rw [hroots]
      exact hyields₁.bind (hyields₂.bind (yields_pure _ _))
    · rw [hforest₂, hforest₁, NodeSpec.buildAll, Forest.append_assoc]

lemma mirrors_replaceText (hd : d.WellFormed) (id : NodeId) (specs : List NodeSpec) :
    (replaceText id specs).Mirrors d (d.replaceText id specs) := by
  rw [Document.replaceText]
  cases hp : d.parent? id with
  | none =>
    refine yields_get fun o ho => ?_
    rw [ho.represents.parent?_eq hd, hp]
    exact (yields_throw _ _).bind_error
  | some p =>
    -- the new nodes are made first and stand by themselves until they are listed
    obtain ⟨d₁, hyields, hd₁, hforest₁, hfresh₁, hqueues₁⟩ := yields_materializeAll hd specs
    obtain ⟨d₂, hok, hforest₂, hfresh₂, -⟩ :=
      Document.replaceText_eq_ok (d := d) (Option.isSome_iff_exists.2 ⟨p, hp⟩) specs
    let placed : Document := { d with
      forest := d.forest.splice id (NodeSpec.buildAll d.fresh specs).1 ++ d.forest.tree id
      fresh := (NodeSpec.buildAll d.fresh specs).2 }
    have hplaced : placed.WellFormed :=
      (Document.follows_replaceText hd hok).wellFormed.of_forest hforest₂.symm hfresh₂.symm
    refine yields_get fun o ho => ?_
    rw [ho.represents.parent?_eq hd, hp]
    refine hyields.bind (yields_get fun o₁ ho₁ => ?_)
    obtain ⟨data, c, hhas⟩ := Forest.exists_has_of_mem_ids (Forest.mem_ids_of_parent? hp).1
    obtain ⟨b, hb, hsize, hholds⟩ := ho₁.represents.replace hd₁ hforest₁ hhas hp
    have hrep : b.Represents placed := by
      refine ho₁.represents.of_perm hsize hfresh₁.symm ?_ hholds
      show (d.forest.splice id _ ++ d.forest.tree id).ids.Perm _
      rw [hforest₁, hhas.tree hd.nodup, Forest.ids_eq_map, Forest.ids_eq_map, Forest.entries_append,
        Forest.entries_append]
      exact (hhas.perm_splice hd.nodup _).map Prod.fst
    have hset : (setArena b).Yields d₁ (.ok ()) placed := yields_setArena hrep hqueues₁.symm
    exact (yields_look hb).bind (hset.bind (yields_forM_record hplaced p _))

end Operation

end MarkedMath
