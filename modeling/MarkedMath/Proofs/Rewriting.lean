import MarkedMath.Proofs.Refusals

/-!
# What a pass changes

A pass changes nothing below the body but the texts that hold a marker and are not refused. `Rewrites`
compares the children of the body right after normalizing with what the conversion leaves of them: all
elements and comments are there with their children in their order, texts that are skipped, refused or
without a marker are there, and every other text has given way to new nodes from which the text can be read
back (`Grammar.restored?`).

The main statement is `Session.refusingPass_rewrites`. Behind the conversion a pass adds at most a style
element to the head, which may stand below the body.
-/

namespace MarkedMath

/-- The kind of the equation that an element carries. -/
def NodeData.equationKind? (data : NodeData) : Option Kind :=
  [Kind.inline, Kind.display].find? fun kind =>
    data.attribute? "data-equation-kind" = some kind.name.toList

/-- The text that new nodes came from: text nodes give their data, and elements of equations their text
between the tokens of their kind. Other nodes come from no text. -/
def Grammar.restored? (g : Grammar) : Forest → Option Text
  | .nil => some []
  | .node _ data children next =>
    let equation := data.equationKind?.map fun kind => (g.rule kind).written children.textContent
    (data.text?.or equation).bind fun t => (g.restored? next).map fun rest => t ++ rest

/-- What the conversion may leave of a forest, where `refuse` answers for the texts that are not let go and
new nodes are numbered from `fresh` on. -/
inductive Rewrites (g : Grammar) (refuse : NodeId → Text → Option HostError) (fresh : NodeId) :
    Forest → Forest → Prop
  /-- Nothing comes of nothing. -/
  | nil : Rewrites g refuse fresh .nil .nil
  /-- An element that is not skipped or a comment stays as it is, and so do its children but for texts. -/
  | kept {id : NodeId} {data : NodeData} {children children' next next' : Forest}
      (hdata : data.text? = none) (hshown : Forest.isSkipped id data = false)
      (hchildren : Rewrites g refuse fresh children children') (hnext : Rewrites g refuse fresh next next') :
      Rewrites g refuse fresh (.node id data children next) (.node id data children' next')
  /-- A skipped element stays as it is with all below it. -/
  | skipped {id : NodeId} {data : NodeData} {children next next' : Forest}
      (hskipped : Forest.isSkipped id data = true) (hnext : Rewrites g refuse fresh next next') :
      Rewrites g refuse fresh (.node id data children next) (.node id data children next')
  /-- A text that is refused or holds no marker stays. -/
  | stays {id : NodeId} {t : Text} {next next' : Forest}
      (hreason : (refuse id t).isSome = true ∨ ∀ kind, ¬ (g.rule kind).Holds t)
      (hnext : Rewrites g refuse fresh next next') :
      Rewrites g refuse fresh (.node id (.text t) .nil next) (.node id (.text t) .nil next')
  /-- Every other text gives way to new nodes, from which it can be read back. -/
  | replaced {id : NodeId} {t : Text} {new next next' : Forest}
      (hfree : refuse id t = none) (hholds : ∃ kind, (g.rule kind).Holds t)
      (hfresh : ∀ i ∈ new.ids, fresh ≤ i) (hrestored : g.restored? new = some t)
      (hnext : Rewrites g refuse fresh next next') :
      Rewrites g refuse fresh (.node id (.text t) .nil next) (new ++ next')

/-! ## Reading texts back -/

section Restored

variable {g : Grammar} {l : Layout}

lemma equationKind?_equationData (e : Equation) : (l.equationData e).equationKind? = some e.kind := by
  cases h : e.kind <;>
    simp [NodeData.equationKind?, Layout.equationData, Layout.attributes, NodeData.setAttribute,
      NodeData.attribute?, NodeData.attributes, Kind.name, h]

/-- The nodes of numbered pieces give the pieces as they stood in the text. -/
lemma restored?_buildAll (fresh : NodeId) (segments : List Segment) :
    g.restored? (NodeSpec.buildAll fresh (segments.map l.nodeSpec)).1 =
      some (segments.flatMap g.writtenSegment) := by
  induction segments generalizing fresh with
  | nil => rfl
  | cons segment segments ih =>
    rw [List.map_cons, List.flatMap_cons]
    cases segment with
    | text t =>
      rw [Layout.nodeSpec, buildAll_text, Grammar.restored?, ih]
      rfl
    | equation e =>
      rw [buildAll_equation, Grammar.restored?, ih, equationKind?_equationData]
      simp [Layout.equationData, NodeData.text?, Forest.leaf, Forest.textContent, Grammar.writtenSegment]

end Restored

/-! ## From texts to forests -/

section Rewrites

variable {g : Grammar} {l : Layout} {refuse : NodeId → Text → Option HostError} {base : NodeId}
  {σ : NodeId → Option Forest}

/-- What a conversion may have made of a text: it stays for a reason, or new nodes from which it can be read
back take its place. -/
def TextOutcome (g : Grammar) (refuse : NodeId → Text → Option HostError) (σ : NodeId → Option Forest)
    (id : NodeId) (t : Text) : Prop :=
  (σ id = none ∧ ((refuse id t).isSome = true ∨ ∀ kind, ¬ (g.rule kind).Holds t)) ∨
    ∃ new, σ id = some new ∧ refuse id t = none ∧ (∃ kind, (g.rule kind).Holds t) ∧
      g.restored? new = some t

/-- What a conversion makes of each of the texts. -/
lemma Converts.of_mem {counts final : Counts} {texts : List (NodeId × Text)}
    (h : Converts g l refuse base σ counts texts final) {id : NodeId} {t : Text} (hmem : (id, t) ∈ texts) :
    TextOutcome g refuse σ id t := by
  induction h with
  | nil => simp at hmem
  | kept hσ hreason _ ih =>
    rcases List.mem_cons.1 hmem with he | hmem
    · obtain ⟨rfl, rfl⟩ := Prod.mk.inj he
      exact Or.inl ⟨hσ, hreason⟩
    · exact ih hmem
  | replaced hσ hfree hholds hnumber _ _ ih =>
    rcases List.mem_cons.1 hmem with he | hmem
    · obtain ⟨rfl, rfl⟩ := Prod.mk.inj he
      refine Or.inr ⟨_, hσ, hfree, hholds, ?_⟩
      rw [restored?_buildAll, g.flatMap_written_number hnumber]
    · exact ih hmem

/-- Putting the new forests in the places of texts rewrites the forest. -/
lemma rewrites_substitute {f : Forest} (hnodup : f.ids.Nodup) (hproper : f.Proper)
    (hplaces : f.Places base σ)
    (htexts : ∀ id t, (id, t) ∈ f.textsOutside Forest.isSkipped → TextOutcome g refuse σ id t)
    (hothers : ∀ i ∈ f.ids, i ∉ (f.textsOutside Forest.isSkipped).map Prod.fst → σ i = none) :
    Rewrites g refuse base f (f.substitute σ) := by
  induction f with
  | nil => exact .nil
  | node id d c n ihc ihn =>
    obtain ⟨hidc, hidn, hcn, hnn, hdisj⟩ := Forest.nodup_ids_node hnodup
    have hc : c.entries ⊆ (Forest.node id d c n).entries := fun e he => by simp [Forest.entries, he]
    have hn : n.entries ⊆ (Forest.node id d c n).entries := fun e he => by simp [Forest.entries, he]
    have hnext : Rewrites g refuse base n (n.substitute σ) := by
      refine ihn hnn hproper.2.2 (hplaces.mono hn) (fun i t hi => ?_) fun i hi hnot => ?_
      · exact htexts i t (Forest.mem_textsOutside_node.2 (Or.inr hi))
      · refine hothers i (by simp [Forest.ids, hi]) fun hmem => hnot ?_
        exact Forest.mem_texts_next hnodup hi hmem
    cases htext : d.text? with
    | some t =>
      obtain rfl := NodeData.text?_eq_some_iff.1 htext
      obtain rfl := (Forest.Has.here n).eq_nil_of_text hproper
      rcases htexts id t (Forest.mem_textsOutside_node.2 (Or.inl ⟨rfl, Or.inl ⟨rfl, rfl⟩⟩)) with
        ⟨hσ, hreason⟩ | ⟨new, hσ, hfree, hholds, hrestored⟩
      · rw [Forest.substitute_of_none hσ]
        exact .stays hreason hnext
      · rw [Forest.substitute_of_some hσ]
        exact .replaced hfree hholds (hplaces.fresh id new hσ) hrestored hnext
    | none =>
      have hid : (id, d) ∈ (Forest.node id d c n).entries := by simp [Forest.entries]
      rw [Forest.substitute_of_none (hplaces.eq_none hid htext)]
      cases hskip : Forest.isSkipped id d with
      | true =>
        -- no text below a skipped element is looked at, so none is replaced
        have hsame : c.substitute σ = c := by
          refine Forest.substitute_none fun i hi => hothers i (by simp [Forest.ids, hi]) fun hmem => ?_
          have hshown := (Forest.mem_texts_children hnodup hi hmem).1
          simp [hskip] at hshown
        rw [hsame]
        exact .skipped hskip hnext
      | false =>
        refine .kept htext hskip ?_ hnext
        refine ihc hcn hproper.2.1 (hplaces.mono hc) (fun i t hi => ?_) fun i hi hnot => ?_
        · exact htexts i t (Forest.mem_textsOutside_node.2 (Or.inl ⟨hskip, Or.inr hi⟩))
        · refine hothers i (by simp [Forest.ids, hi]) fun hmem => hnot ?_
          exact (Forest.mem_texts_children hnodup hi hmem).2

end Rewrites

/-! ## The pass -/

namespace Session

/-- **A pass changes nothing but marker spans.** In every run, and whatever texts are refused to an engine,
compare the children of the body right after normalizing (`before`) with those after a pass of the engine
(`after`): the conversion rewrites the former (`Rewrites`), and behind it at most a style element is added
to the head, should the head stand below the body. The body itself stays what it is. -/
theorem refusingPass_rewrites (loading : Bool) (commands : List Command)
    (refuse : NodeId → Text → Option HostError) (index : Nat) (e : Engine) :
    ∃ data before converted after,
      Forest.Has Document.body data before (run loading commands).document.normalize.forest ∧
      Forest.Has Document.body data after
        ((run loading commands).refusingPass refuse index e).2.document.forest ∧
      Rewrites e.settings.grammar refuse (run loading commands).document.fresh before converted ∧
      (after = converted ∨ ∃ fresh, (run loading commands).document.fresh ≤ fresh ∧
        after = converted.appendTo Document.head
          (Document.styleTree fresh e.settings.sheet.id e.settings.sheet.css)) := by
  have hwell := (sound_run loading commands).wellFormed
  obtain ⟨attributes, children, hbody⟩ := hwell.exists_has_body
  have hbefore := Document.has_body_normalize hwell hbody
  have hnormalize := (Document.follows_normalize hwell).wellFormed
  obtain ⟨σ, after, hplaces, hconverts, hσ, hafter, hstyle⟩ :=
    refusingPass_body refuse index e hwell hbody
  refine ⟨_, _, _, after, hbefore, hafter, ?_, hstyle⟩
  refine rewrites_substitute (hbefore.nodup hnormalize.nodup).2 (hbefore.proper hnormalize.proper).2 hplaces
    (fun id t hmem => ?_) fun i _ hnot => hσ i hnot
  exact hconverts.of_mem hmem

end Session

end MarkedMath
