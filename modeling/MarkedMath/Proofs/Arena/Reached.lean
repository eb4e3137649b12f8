import MarkedMath.Proofs.Arena.Simulation
import MarkedMath.Proofs.Invariants

/-!
# Arenas after edits

Any sequence of edits, with any nodes, has a result: no edit asks for a slot outside the arena, and every
walk and every recursion ends. The links in the slots agree afterwards, as the arena represents a
well-formed document (`Arena.slots_consistent`). The documents of sessions are represented in this way.
-/

namespace MarkedMath

namespace Arena

variable {a : Arena} {d : Document}

/-- The first arena represents a document without content. -/
lemma exists_start : ∃ a, start = some a ∧ ∀ loading, a.Represents (.empty loading) := by
  refine ⟨_, rfl, fun loading => ⟨rfl, fun id hid => ?_, ?_⟩⟩
  · match id, hid with
    | 0, _ => exact .head _
    | 1, _ => exact .tail _ (.head _)
    | 2, _ => exact .tail _ (.tail _ (.head _))
  · exact ⟨rfl, ⟨rfl, trivial, rfl, trivial, trivial⟩, trivial⟩

/-! ## One edit -/

lemma Action.Mirrors.exists {x : Action Unit} {outcome : Except HostError Document}
    (h : x.Mirrors d outcome) (hd : d.WellFormed) (hok : ∀ d', outcome = .ok d' → d.Follows d') :
    ∃ r d', x.Yields d r d' ∧ d'.WellFormed := by
  cases outcome with
  | ok d' => exact ⟨_, d', h, (hok d' rfl).wellFormed⟩
  | error e => exact ⟨_, d, h, hd⟩

lemma Action.exists_create (hd : d.WellFormed) (data : NodeData) :
    ∃ r d', (create data).Yields d r d' ∧ d'.WellFormed :=
  ⟨_, _, yields_create hd data, (Document.follows_create hd data).wellFormed⟩

lemma Action.exists_discard {x : Action NodeId} (h : ∃ r d', x.Yields d r d' ∧ d'.WellFormed) :
    ∃ r d', (discard x : Action Unit).Yields d r d' ∧ d'.WellFormed := by
  obtain ⟨r, d', hx, hd'⟩ := h
  exact ⟨_, d', hx.discard, hd'⟩

/-- A new node is put into a parent, or stays where it is when that is refused. -/
lemma Action.exists_append (hd : d.WellFormed) (parent : NodeId) (data : NodeData) :
    ∃ r d', Action.Yields (do let id ← create data; appendChild parent id; return id) d r d' ∧
      d'.WellFormed := by
  have hd₁ := (Document.follows_create hd data).wellFormed
  have happend := mirrors_insert hd₁ "appendChild" parent d.fresh none
  cases hinsert : (d.create data).2.insert "appendChild" parent d.fresh none with
  | ok d' =>
    exact ⟨_, d', (yields_create hd data).bind ((happend.yields hinsert).bind (yields_pure _ _)),
      (Document.follows_insert hd₁ hinsert).wellFormed⟩
  | error e =>
    rw [hinsert] at happend
    exact ⟨_, _, (yields_create hd data).bind (Yields.bind_error happend), hd₁⟩

/-- Every edit has a result, and leads to an arena that represents a well-formed document. -/
lemma Edit.exists_yields (hd : d.WellFormed) (e : Edit) :
    ∃ r d', e.action.Yields d r d' ∧ d'.WellFormed := by
  -- an edit that puts a node has the outcome that the document has, refusals included
  cases e with
  | createElement tag => exact Action.exists_discard (Action.exists_create hd _)
  | createText data => exact Action.exists_discard (Action.exists_create hd _)
  | createComment data => exact Action.exists_discard (Action.exists_create hd _)
  | append parent child =>
    exact (Action.mirrors_insert hd _ parent child none).exists hd fun _ => Document.follows_insert hd
  | insertBefore parent child reference =>
    exact (Action.mirrors_insert hd _ parent child (some reference)).exists hd
      fun _ => Document.follows_insert hd
  | appendElement parent tag => exact Action.exists_discard (Action.exists_append hd parent _)
  | appendText parent data => exact Action.exists_discard (Action.exists_append hd parent _)
  | remove node => exact (Action.mirrors_remove hd node).exists hd fun _ => Document.follows_remove hd
  | setAttribute node name value =>
    exact (Action.mirrors_setAttribute hd node name value).exists hd
      fun _ => Document.follows_setAttribute hd
  | removeAttribute node name =>
    exact ⟨_, _, Action.mirrors_removeAttribute hd node name,
      (Document.follows_removeAttribute hd node name).wellFormed⟩
  | addClass node name =>
    exact (Action.mirrors_addClass hd node name).exists hd fun _ => Document.follows_addClass hd
  | removeClass node name =>
    exact (Action.mirrors_removeClass hd node name).exists hd fun _ => Document.follows_removeClass hd
  | normalize => exact ⟨_, _, Action.mirrors_normalize hd, (Document.follows_normalize hd).wellFormed⟩
  | replaceText node specs =>
    exact (Action.mirrors_replaceText hd node specs).exists hd fun _ => Document.follows_replaceText hd
  | insertStyle id css =>
    exact (Action.mirrors_insertStyle hd id css).exists hd fun _ => Document.follows_insertStyle hd

/-! ## Every sequence of edits -/

lemma run_concat (edits : List Edit) (e : Edit) :
    run (edits ++ [e]) = (run edits).bind fun a => a.apply e := by
  rw [run, run]
  cases start with
  | none => rfl
  | some a =>
    show (edits ++ [e]).foldlM apply a = (edits.foldlM apply a).bind fun a => a.apply e
    rw [List.foldlM_append]
    simp

lemma exists_run (edits : List Edit) :
    ∃ a d, run edits = some a ∧ a.Represents d ∧ d.WellFormed := by
  induction edits using List.reverseRecOn with
  | nil =>
    obtain ⟨a, ha, hrep⟩ := exists_start
    exact ⟨a, .empty false, by rw [run, ha]; rfl, hrep false, Document.wellFormed_empty false⟩
  | append_singleton edits e ih =>
    obtain ⟨a, d, ha, hrep, hd⟩ := ih
    obtain ⟨r, d', hyields, hd'⟩ := e.exists_yields hd
    obtain ⟨b, hb, hrep'⟩ := hyields a hrep
    exact ⟨b, d', by rw [run_concat, ha, Option.bind_some, apply, hb]; rfl, hrep', hd'⟩

end Arena

/-! ## The documents of sessions -/

namespace Document

/-- Some edits lead to an arena that represents the document. -/
def Reached (d : Document) : Prop :=
  ∃ edits a, Arena.run edits = some a ∧ a.Represents d

variable {d d' : Document}

/-- One more edit. -/
lemma Reached.edit (h : d.Reached) {e : Arena.Edit} {r : Except HostError Unit}
    (he : e.action.Yields d r d') : d'.Reached := by
  obtain ⟨edits, a, ha, hrep⟩ := h
  obtain ⟨b, hb, hrep'⟩ := he a hrep
  refine ⟨edits ++ [e], b, ?_, hrep'⟩
  rw [Arena.run_concat, ha, Option.bind_some, Arena.apply, hb]
  rfl

lemma reached_empty (loading : Bool) : (empty loading).WellFormed ∧ (empty loading).Reached := by
  obtain ⟨a, ha, hrep⟩ := Arena.exists_start
  exact ⟨wellFormed_empty loading, [], a, by rw [Arena.run, ha]; rfl, hrep loading⟩

lemma invariant_reached : Invariant fun d => d.WellFormed ∧ d.Reached where
  of_forest d d' h hforest hfresh := by
    obtain ⟨hd, edits, a, ha, hrep⟩ := h
    exact ⟨hd.of_forest hforest hfresh, edits, a, ha, hrep.of_forest hforest hfresh⟩
  createElement d tag h :=
    ⟨(follows_create h.1 _).wellFormed,
      h.2.edit (e := .createElement tag) (Arena.Action.yields_create h.1 _).discard⟩
  createText d data h :=
    ⟨(follows_create h.1 _).wellFormed,
      h.2.edit (e := .createText data) (Arena.Action.yields_create h.1 _).discard⟩
  createComment d data h :=
    ⟨(follows_create h.1 _).wellFormed,
      h.2.edit (e := .createComment data) (Arena.Action.yields_create h.1 _).discard⟩
  appendChild d d' parent child h hok :=
    ⟨(follows_insert h.1 hok).wellFormed,
      h.2.edit (e := .append parent child) (Arena.Action.yields_insert h.1 hok)⟩
  insertBefore d d' parent child reference h hok :=
    ⟨(follows_insert h.1 hok).wellFormed,
      h.2.edit (e := .insertBefore parent child reference) (Arena.Action.yields_insert h.1 hok)⟩
  remove d d' id h hok :=
    ⟨(follows_remove h.1 hok).wellFormed,
      h.2.edit (e := .remove id) ((Arena.Action.mirrors_remove h.1 id).yields hok)⟩
  setAttribute d d' id name value h hok :=
    ⟨(follows_setAttribute h.1 hok).wellFormed,
      h.2.edit (e := .setAttribute id name value)
        ((Arena.Action.mirrors_setAttribute h.1 id name value).yields hok)⟩
  removeAttribute d id name h :=
    ⟨(follows_removeAttribute h.1 id name).wellFormed,
      h.2.edit (e := .removeAttribute id name) (Arena.Action.mirrors_removeAttribute h.1 id name)⟩
  normalize d h :=
    ⟨(follows_normalize h.1).wellFormed, h.2.edit (e := .normalize) (Arena.Action.mirrors_normalize h.1)⟩
  replaceText d d' id specs h hok :=
    ⟨(follows_replaceText h.1 hok).wellFormed,
      h.2.edit (e := .replaceText id specs) ((Arena.Action.mirrors_replaceText h.1 id specs).yields hok)⟩

end Document

namespace Arena

/-- **Parents and lists of children agree in every state.** Any edits with any nodes have a result, in which
the links agree; and the document of every run of a session has the links of such a result. -/
theorem slots_consistent :
    (∀ edits : List Edit, ∃ a, run edits = some a ∧ a.links.Consistent) ∧
      ∀ (loading : Bool) (commands : List Command), ∃ edits a, run edits = some a ∧
        a.Represents (Session.run loading commands).document ∧
        a.links = (Session.run loading commands).document.links := by
  constructor
  · intro edits
    obtain ⟨a, d, ha, hrep, hd⟩ := exists_run edits
    exact ⟨a, ha, hrep.links_eq hd ▸ hd.consistent⟩
  · intro loading commands
    obtain ⟨hd, edits, a, ha, hrep⟩ := Session.invariant_run Document.invariant_reached
      Document.reached_empty loading commands
    exact ⟨edits, a, ha, hrep, hrep.links_eq hd⟩

end Arena

end MarkedMath
