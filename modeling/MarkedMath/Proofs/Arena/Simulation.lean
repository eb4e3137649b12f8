import MarkedMath.Proofs.Arena.Actions
import MarkedMath.Proofs.Arena.Merging
import MarkedMath.Proofs.Arena.Replacing

/-!
# Arenas and documents side by side

An operation on an arena that represents a well-formed document always comes to a result: it is refused
when the document refuses, and otherwise the new arena represents the new document. `Action.Mirrors` says
this for the operations whose outcome is a document.
-/

namespace MarkedMath

/-- Changes the attributes of an element. -/
def NodeData.mapAttributes (change : List (String × Text) → List (String × Text)) : NodeData → NodeData
  | element tag attributes => element tag (change attributes)
  | data => data

namespace Arena

variable {a b : Arena} {d d' d₁ d₂ : Document} {id parent : NodeId}

lemma Represents.mapAttributes (h : a.Represents d) (hd : d.WellFormed) (id : NodeId)
    (change : List (String × Text) → List (String × Text)) :
    (a.mapAttributes id change).Represents
      { d with forest := d.forest.modify id (NodeData.mapAttributes change) } :=
  h.modify hd fun _ _ data => by cases data <;> rfl

namespace Action

variable {α β : Type} {x : Action α} {f : α → Action β} {e : HostError} {v : α} {r : Except HostError β}

/-! ## Answers -/

lemma outcome_bind_ok (h : x.outcome a = some (.ok v, b)) : (x >>= f).outcome a = (f v).outcome b := by
  have hx : x.run.run a = some (.ok v, b) := h
  show (x >>= f).run.run a = _
  rw [ExceptT.run_bind, StateT.run_bind, hx]
  rfl

lemma outcome_bind_error (h : x.outcome a = some (.error e, b)) :
    (x >>= f).outcome a = some (.error e, b) := by
  have hx : x.run.run a = some (.error e, b) := h
  show (x >>= f).run.run a = _
  rw [ExceptT.run_bind, StateT.run_bind, hx]
  rfl

/-- From any arena that represents `d`, the action comes to the answer `r` and to an arena that represents
`d'`. -/
def Yields (x : Action α) (d : Document) (r : Except HostError α) (d' : Document) : Prop :=
  ∀ a : Arena, a.Represents d → ∃ b, x.outcome a = some (r, b) ∧ b.Represents d'

lemma Yields.bind (h : x.Yields d (.ok v) d₁) (hf : (f v).Yields d₁ r d₂) : (x >>= f).Yields d r d₂ := by
  intro a ha
  obtain ⟨b, hb, hrep⟩ := h a ha
  rw [outcome_bind_ok hb]
  exact hf b hrep

lemma Yields.bind_error (h : x.Yields d (.error e) d₁) : (x >>= f).Yields d (.error e) d₁ := by
  intro a ha
  obtain ⟨b, hb, hrep⟩ := h a ha
  exact ⟨b, outcome_bind_error hb, hrep⟩

lemma yields_pure (v : α) (d : Document) : (pure v : Action α).Yields d (.ok v) d :=
  fun a ha => ⟨a, rfl, ha⟩

lemma yields_throw (e : HostError) (d : Document) : (throw e : Action α).Yields d (.error e) d :=
  fun a ha => ⟨a, rfl, ha⟩

lemma yields_set (hb : b.Represents d') : (set b : Action PUnit).Yields d (.ok ⟨⟩) d' :=
  fun _ _ => ⟨b, rfl, hb⟩

lemma yields_get {f : Arena → Action β} (h : ∀ a, a.Represents d → (f a).Yields d r d') :
    (get >>= f : Action β).Yields d r d' :=
  fun a ha => h a ha a ha

/-- A look at the slots that has a result. -/
lemma yields_look {o : Option α} (h : o = some v) : (liftM o : Action α).Yields d (.ok v) d := by
  subst h
  exact fun a ha => ⟨a, rfl, ha⟩

lemma Yields.discard {r : Except HostError α} (h : x.Yields d r d') :
    (Functor.discard x : Action PUnit).Yields d (r.map fun _ => ⟨⟩) d' := by
  have hsame : (Functor.discard x : Action PUnit) = x >>= fun _ => pure ⟨⟩ := by
    show Function.const α PUnit.unit <$> x = _
    rw [map_eq_pure_bind]
  rw [hsame]
  cases r with
  | ok v => exact h.bind (yields_pure _ _)
  | error e => exact h.bind_error

/-- The action does to an arena what an operation with this outcome does to the document. -/
def Mirrors (x : Action Unit) (d : Document) : Except HostError Document → Prop
  | .ok d' => x.Yields d (.ok ()) d'
  | .error e => x.Yields d (.error e) d

lemma Mirrors.yields {x : Action Unit} {outcome : Except HostError Document} (h : x.Mirrors d outcome)
    (hok : outcome = .ok d') : x.Yields d (.ok ()) d' := by
  subst hok
  exact h

lemma mirrors_get {f : Arena → Action Unit} {outcome : Except HostError Document}
    (h : ∀ a, a.Represents d → (f a).Mirrors d outcome) : (get >>= f : Action Unit).Mirrors d outcome := by
  cases outcome with
  | ok d' => exact yields_get h
  | error e => exact yields_get h

/-! ## Making and moving nodes -/

lemma yields_create (hd : d.WellFormed) (data : NodeData) :
    (create data).Yields d (.ok d.fresh) (d.create data).2 := by
  refine yields_get fun a ha => ?_
  rw [← ha.size_eq]
  exact (yields_set (ha.push hd data)).bind (yields_pure _ _)

lemma yields_isNoted (hd : d.WellFormed) (parent : NodeId) :
    (isNoted parent).Yields d (.ok (d.forest.isWithin parent Document.body)) d :=
  yields_get fun _ ha => yields_look (ha.meets_eq hd Document.body parent)

lemma mirrors_insert (hd : d.WellFormed) (operation : String) (parent child : NodeId)
    (reference : Option NodeId) :
    (insert operation parent child reference).Mirrors d (d.insert operation parent child reference) := by
  cases hinsert : d.insert operation parent child reference with
  | ok d' =>
    have hd' := (Document.follows_insert hd hinsert).wellFormed
    rw [Document.insert] at hinsert
    split at hinsert
    · simp at hinsert
    · next hfault =>
      obtain rfl := by simpa using hinsert
      refine yields_get fun a ha => ?_
      obtain ⟨b, hb, hrep⟩ := ha.insert hd hfault
      have hnoted : b.Represents ((d.place parent child reference).noteInsertions parent [child]) :=
        hrep.of_forest (Document.noteInsertions_forest ..) (Document.noteInsertions_fresh ..)
      exact (yields_look hb).bind ((yields_set hnoted).bind (yields_isNoted hd' parent).discard)
  | error e =>
    rw [Document.insert] at hinsert
    split at hinsert
    · next fault hfault =>
      obtain rfl := by simpa using hinsert
      refine yields_get fun a ha => ?_
      have hb := ha.insert_eq hd parent child reference
      rw [hfault] at hb
      exact (yields_look hb).bind (yields_throw _ _).bind_error
    · simp at hinsert

lemma yields_insert (hd : d.WellFormed) {operation : String} {parent child : NodeId}
    {reference : Option NodeId} (hok : d.insert operation parent child reference = .ok d') :
    (insert operation parent child reference).Yields d (.ok ()) d' :=
  (mirrors_insert hd operation parent child reference).yields hok

lemma yields_appendText (hd : d.WellFormed) {data : Text}
    (hok : (d.create (.text data)).2.appendChild parent d.fresh = .ok d') :
    (appendText parent data).Yields d (.ok d.fresh) d' := by
  have hcreate := (Document.follows_create hd (.text data)).wellFormed
  exact (yields_create hd (.text data)).bind ((yields_insert hcreate hok).bind (yields_pure _ _))

lemma mirrors_remove (hd : d.WellFormed) (id : NodeId) : (remove id).Mirrors d (d.remove id) := by
  rw [Document.remove]
  cases hp : d.parent? id with
  | none =>
    refine yields_get fun a ha => ?_
    rw [ha.parent?_eq hd, hp]
    exact (yields_throw _ _).bind_error
  | some p =>
    refine yields_get fun a ha => ?_
    rw [ha.parent?_eq hd, hp]
    obtain ⟨b, hb, -, hrep⟩ := ha.detach hd (Forest.mem_ids_of_parent? hp).1
    exact (yields_look hb).bind (yields_set hrep)

/-! ## Attributes and classes -/

lemma mirrors_setAttribute (hd : d.WellFormed) (id : NodeId) (name : String) (value : Text) :
    (setAttribute id name value).Mirrors d (d.setAttribute id name value) := by
  rw [Document.setAttribute]
  split
  · next tag attributes hdata =>
    refine yields_get fun a ha => ?_
    have htag : (a.tag? id).isNone = false := by
      rw [ha.tag?_eq hd, Document.tag?, hdata]
      rfl
    have hrep := ha.mapAttributes hd id (NodeData.setAttribute name value)
    obtain ⟨c, hhas⟩ := Forest.exists_has ((Forest.data?_eq_some_iff hd.nodup).1 hdata)
    rw [hhas.modify_eq_splice hd.nodup] at hrep ⊢
    rw [htag]
    exact yields_set hrep
  · next hdata =>
    refine yields_get fun a ha => ?_
    have htag : (a.tag? id).isNone = true := by
      rw [ha.tag?_eq hd, Document.tag?]
      cases hid : d.data? id with
      | none => rfl
      | some data =>
        cases data with
        | element tag attributes => exact absurd hid (hdata tag attributes)
        | _ => rfl
    rw [htag]
    exact (yields_throw _ _).bind_error

lemma mirrors_removeAttribute (hd : d.WellFormed) (id : NodeId) (name : String) :
    (removeAttribute id name).Mirrors d (.ok (d.removeAttribute id name)) := by
  refine yields_get fun a ha => yields_set ?_
  have hrep := ha.mapAttributes hd id fun l => l.filter fun p => p.1 ≠ name
  refine hrep.of_forest ?_ rfl
  rw [Document.removeAttribute]
  congr 1

lemma mirrors_addClass (hd : d.WellFormed) (id : NodeId) (name : Text) :
    (addClass id name).Mirrors d (d.addClass id name) := by
  refine mirrors_get fun a ha => ?_
  rw [Document.addClass, Document.hasClass, Document.attribute?, ← ha.node?_eq hd]
  by_cases h : a.hasClass id name = true
  · rw [if_pos h]
    exact if_pos h ▸ yields_pure _ _
  · rw [if_neg h]
    exact if_neg h ▸ mirrors_setAttribute hd id "class" _

lemma mirrors_removeClass (hd : d.WellFormed) (id : NodeId) (name : Text) :
    (removeClass id name).Mirrors d (d.removeClass id name) := by
  refine mirrors_get fun a ha => ?_
  have hsame : a.attribute? id "class" = d.attribute? id "class" := by
    rw [attribute?, Document.attribute?, ha.node?_eq hd]
  rw [hsame, Document.removeClass]
  cases d.attribute? id "class" with
  | none => exact yields_pure _ _
  | some value => exact mirrors_setAttribute hd id "class" _

/-! ## Normalizing and replacing -/

lemma mirrors_normalize (hd : d.WellFormed) : normalize.Mirrors d (.ok d.normalize) := by
  refine yields_get fun a ha => ?_
  obtain ⟨b, hb, hrep⟩ := ha.normalize hd
  exact (yields_look hb).bind (yields_set hrep)

lemma yields_setAttributes {g children : Forest} {tag : String}
    (l attributes : List (String × Text)) (hd : d.WellFormed) (hid : id ∉ g.ids)
    (hforest : d.forest = g ++ .node id (.element tag attributes) children .nil) :
    ∃ d', (setAttributes id l).Yields d (.ok ()) d' ∧ d'.WellFormed ∧
      d'.forest = g ++ .node id (.element tag
        (l.foldl (fun set (n, v) => NodeData.setAttribute n v set) attributes)) children .nil ∧
      d'.fresh = d.fresh := by
  induction l generalizing d attributes with
  | nil => exact ⟨d, yields_pure _ _, hd, hforest, rfl⟩
  | cons p l ih =>
    obtain ⟨name, value⟩ := p
    obtain ⟨d₁, hok, hforest₁, hfresh₁, -⟩ := Document.setAttribute_last hid hforest name value
    have hset := (mirrors_setAttribute hd id name value).yields hok
    obtain ⟨d', hyields, hd', hforest', hfresh'⟩ :=
      ih (NodeData.setAttribute name value attributes)
        (Document.follows_setAttribute hd hok).wellFormed hforest₁
    exact ⟨d', hset.bind hyields, hd', hforest', hfresh'.trans hfresh₁⟩

lemma yields_materialize (hd : d.WellFormed) (spec : NodeSpec) :
    ∃ d', (materialize spec).Yields d (.ok d.fresh) d' ∧ d'.WellFormed ∧
      d'.forest = d.forest ++ (spec.build d.fresh).1 ∧ d'.fresh = (spec.build d.fresh).2 := by
  cases spec with
  | text data =>
    exact ⟨_, yields_create hd (.text data), (Document.follows_create hd _).wellFormed, rfl, rfl⟩
  | element tag attributes content =>
    have hd₁ := (Document.follows_create hd (.element (lowerName tag) [])).wellFormed
    have hforest₁ : (d.create (.element (lowerName tag) [])).2.forest =
        d.forest ++ .node d.fresh (.element (lowerName tag) []) .nil .nil := rfl
    obtain ⟨d₂, hset, hd₂, hforest₂, hfresh₂⟩ :=
      yields_setAttributes attributes [] hd₁ (hd.fresh_not_mem (Nat.le_refl d.fresh)) hforest₁
    obtain ⟨_, _, hbody⟩ := hd.exists_has_body
    obtain ⟨d₃, hok, hforest₃, hfresh₃, hfollows, -⟩ :=
      Document.appendChild_text_last hd₂ hforest₂ hbody.mem_ids content
    refine ⟨d₃, ?_, hfollows.wellFormed, ?_, ?_⟩
    · exact (yields_create hd _).bind (hset.bind
        ((yields_appendText hd₂ hok).discard.bind (yields_pure _ _)))
    · rw [hforest₃, hfresh₂]
      rfl
    · rw [hfresh₃, hfresh₂]
      rfl

lemma yields_materializeAll (hd : d.WellFormed) (specs : List NodeSpec) :
    ∃ d', (materializeAll specs).Yields d (.ok (NodeSpec.buildAll d.fresh specs).1.roots) d' ∧
      d'.WellFormed ∧ d'.forest = d.forest ++ (NodeSpec.buildAll d.fresh specs).1 ∧
      d'.fresh = (NodeSpec.buildAll d.fresh specs).2 := by
  induction specs generalizing d with
  | nil => exact ⟨d, yields_pure _ _, hd, (Forest.append_nil _).symm, rfl⟩
  | cons spec specs ih =>
    obtain ⟨d₁, hyields₁, hd₁, hforest₁, hfresh₁⟩ := yields_materialize hd spec
    obtain ⟨d₂, hyields₂, hd₂, hforest₂, hfresh₂⟩ := ih hd₁
    rw [hfresh₁] at hyields₂ hforest₂ hfresh₂
    refine ⟨d₂, ?_, hd₂, ?_, hfresh₂⟩
    · have hroots : (NodeSpec.buildAll d.fresh (spec :: specs)).1.roots =
          d.fresh :: (NodeSpec.buildAll (spec.build d.fresh).2 specs).1.roots := by
        rw [NodeSpec.buildAll, Forest.roots_append, NodeSpec.roots_build]
        rfl
      rw [hroots]
      exact hyields₁.bind (hyields₂.bind (yields_pure _ _))
    · rw [hforest₂, hforest₁, NodeSpec.buildAll, Forest.append_assoc]

lemma yields_forM_isNoted (hd : d.WellFormed) (parent : NodeId) (nodes : List NodeId) :
    (nodes.forM fun _ => Functor.discard (isNoted parent) : Action PUnit).Yields d (.ok ⟨⟩) d := by
  induction nodes with
  | nil => exact yields_pure _ _
  | cons i nodes ih => exact (yields_isNoted hd parent).discard.bind ih

lemma mirrors_replaceText (hd : d.WellFormed) (id : NodeId) (specs : List NodeSpec) :
    (replaceText id specs).Mirrors d (d.replaceText id specs) := by
  cases hp : d.parent? id with
  | none =>
    rw [Document.replaceText, hp]
    refine yields_get fun a ha => ?_
    rw [ha.parent?_eq hd, hp]
    exact (yields_throw _ _).bind_error
  | some p =>
    obtain ⟨d', hok, hforest, hfresh, -⟩ :=
      Document.replaceText_eq_ok (d := d) (Option.isSome_iff_exists.2 ⟨p, hp⟩) specs
    have hd' := (Document.follows_replaceText hd hok).wellFormed
    -- the new nodes are made first and stand by themselves until they are listed
    obtain ⟨d₁, hyields, hd₁, hforest₁, hfresh₁⟩ := yields_materializeAll hd specs
    rw [hok]
    refine yields_get fun a ha => ?_
    rw [ha.parent?_eq hd, hp]
    refine hyields.bind (yields_get fun a₁ ha₁ => ?_)
    obtain ⟨data, c, hhas⟩ := Forest.exists_has_of_mem_ids (Forest.mem_ids_of_parent? hp).1
    obtain ⟨b, hb, hsize, hholds⟩ := ha₁.replace hd₁ hforest₁ hhas hp
    have hrep : b.Represents d' := by
      refine ha₁.of_perm hsize (hfresh.trans hfresh₁.symm) ?_ (hforest ▸ hholds)
      rw [hforest, hforest₁, hhas.tree hd.nodup, Forest.ids_eq_map, Forest.ids_eq_map, Forest.entries_append,
        Forest.entries_append]
      exact (hhas.perm_splice hd.nodup _).map Prod.fst
    exact (yields_look hb).bind ((yields_set hrep).bind (yields_forM_isNoted hd' p _))

/-! ## Adding style rules -/

lemma mirrors_insertStyle (hd : d.WellFormed) (id css : String) :
    (insertStyle id css).Mirrors d (d.insertStyle id css) := by
  obtain ⟨d', hok, -⟩ := Document.insertStyle_eq_ok hd id css
  obtain ⟨d₂, d₃, hset, htext, happend⟩ := Document.steps_of_insertStyle hok
  have hd₁ : (d.createElement "style").2.WellFormed := (Document.follows_create hd _).wellFormed
  have hd₂ := (Document.follows_setAttribute hd₁ hset).wellFormed
  have hd₃ := (Document.follows_insert (Document.follows_create hd₂ _).wellFormed htext).wellFormed
  have hset' := (mirrors_setAttribute hd₁ d.fresh "id" id.toList).yields hset
  rw [hok]
  exact (yields_create hd _).bind (hset'.bind
    ((yields_appendText hd₂ htext).discard.bind (yields_insert hd₃ happend)))

end Action

end Arena

end MarkedMath
