import MarkedMath.Proofs.Conversion
import MarkedMath.Proofs.Runs
import MarkedMath.Proofs.Tree.Substitute

/-!
# Passes on a document that refuses texts

A document may refuse to let a text node go. Then the text stays, and its markers use up no numbers. A pass
asks at most once for each text node, so what is refused in a pass can be given by node and text
(`Session.refusing`); an engine's own refusals are of this form (`Session.pass_eq_refusingPass`).

Whatever is refused, the children of the body are after the conversion what they were after normalizing,
with new forests in the places of some text nodes (`Session.convertDocument_refusing`). Which texts these
are, and how they are numbered, is told by `Converts`.
-/

namespace MarkedMath

/-- What a conversion makes of texts in turn, numbering on from some counts up to others: a text stays when
it is refused or holds no marker, and its numbered pieces take its place otherwise. -/
inductive Converts (g : Grammar) (l : Layout) (refuse : NodeId → Text → Option HostError) (base : NodeId)
    (σ : NodeId → Option Forest) : Counts → List (NodeId × Text) → Counts → Prop
  /-- No text is left. -/
  | nil (counts : Counts) : Converts g l refuse base σ counts [] counts
  /-- The text stays. -/
  | kept {counts final : Counts} {id : NodeId} {t : Text} {rest : List (NodeId × Text)}
      (hσ : σ id = none)
      (hreason : (refuse id t).isSome = true ∨ ∀ kind, ¬ (g.rule kind).Holds t)
      (hrest : Converts g l refuse base σ counts rest final) :
      Converts g l refuse base σ counts ((id, t) :: rest) final
  /-- New nodes take the place of the text. -/
  | replaced {counts after final : Counts} {id fresh : NodeId} {t : Text}
      {rest : List (NodeId × Text)} {segments : List Segment}
      (hσ : σ id = some (NodeSpec.buildAll fresh (segments.map l.nodeSpec)).1)
      (hfree : refuse id t = none) (hholds : ∃ kind, (g.rule kind).Holds t)
      (hnumber : Segment.number counts (g.pieces t) = (segments, after)) (hbase : base ≤ fresh)
      (hrest : Converts g l refuse base σ after rest final) :
      Converts g l refuse base σ counts ((id, t) :: rest) final

/-- New forests for text nodes: only text nodes are replaced, and only by nodes from `base` on. -/
structure Forest.Places (children : Forest) (base : NodeId) (σ : NodeId → Option Forest) : Prop where
  /-- Only text nodes are replaced. -/
  text : ∀ i d, (i, d) ∈ children.entries → (σ i).isSome = true → d.text?.isSome = true
  /-- The new nodes have new numbers. -/
  fresh : ∀ i new, σ i = some new → ∀ j ∈ new.ids, base ≤ j

lemma Forest.places_none (children : Forest) (base : NodeId) : children.Places base fun _ => none :=
  ⟨fun _ _ _ h => by simp at h, fun _ _ h => by simp at h⟩

lemma Forest.Places.mono {children below : Forest} {base : NodeId} {σ : NodeId → Option Forest}
    (h : children.Places base σ) (hsub : below.entries ⊆ children.entries) : below.Places base σ :=
  ⟨fun i d hi => h.text i d (hsub hi), h.fresh⟩

/-- No other node is replaced. -/
lemma Forest.Places.eq_none {children : Forest} {base id : NodeId} {σ : NodeId → Option Forest}
    {d : NodeData} (h : children.Places base σ) (hid : (id, d) ∈ children.entries) (hd : d.text? = none) :
    σ id = none := by
  by_contra hsome
  have htext := h.text id d hid (Option.isSome_iff_ne_none.2 hsome)
  simp [hd] at htext

lemma Forest.Places.update {children new : Forest} {base id : NodeId} {σ : NodeId → Option Forest}
    {t : Text} (h : children.Places base σ) (hnodup : children.ids.Nodup)
    (hid : (id, .text t) ∈ children.entries) (hnew : ∀ j ∈ new.ids, base ≤ j) :
    children.Places base (Function.update σ id (some new)) where
  text i d hi hsome := by
    by_cases he : i = id
    · subst he
      rw [entry_unique hnodup hi hid]
      rfl
    · rw [Function.update_of_ne he] at hsome
      exact h.text i d hi hsome
  fresh i m hm := by
    by_cases he : i = id
    · subst he
      rw [Function.update_self, Option.some_inj] at hm
      exact hm ▸ hnew
    · rw [Function.update_of_ne he] at hm
      exact h.fresh i m hm

namespace Session

/-- The document as an engine meets it, where `refuse` answers for the text nodes that are not let go. -/
def refusing (refuse : NodeId → Text → Option HostError) (refusals : Refusals) : Host Session NodeId :=
  { host refusals with
    replaceText := fun id specs s =>
      match refuse id (s.document.textOf id) with
      | some e => (.error e, s)
      | none => s.perform (s.document.replaceText id specs) }

/-- One pass of an engine on a document that refuses texts. -/
def refusingPass (refuse : NodeId → Text → Option HostError) (index : Nat) (e : Engine) (s : Session) :
    PassReport × Session :=
  let typesetters := e.typesetters.map fun t => t.typesetter fun call => note (.render call)
  runPass (refusing refuse e.refusals) e.settings typesetters (settle index) s

/-- The texts that are locked for an engine are refused. -/
def lockedBy (refusals : Refusals) (_ : NodeId) (t : Text) : Option HostError :=
  if isLocked refusals t then some (.rejected "replaceWith" "node is read-only") else none

lemma host_eq_refusing (refusals : Refusals) : host refusals = refusing (lockedBy refusals) refusals := by
  rw [refusing, host]
  congr 1
  funext id specs s
  rw [lockedBy]
  split <;> rfl

/-- A pass is refused what its engine is refused. -/
lemma pass_eq_refusingPass (index : Nat) (e : Engine) (s : Session) :
    s.pass index e = s.refusingPass (lockedBy e.refusals) index e := by
  rw [pass, refusingPass, host_eq_refusing]

variable {refuse : NodeId → Text → Option HostError} {refusals : Refusals} {g : Grammar} {l : Layout}
  {s : Session} {data : NodeData} {children : Forest}

lemma refusing_keeps (refuse : NodeId → Text → Option HostError) (refusals : Refusals) (s : Session) :
    (refusing refuse refusals).Keeps s.Follows :=
  { host_keeps refusals s with
    replaceText := fun id specs s' h => by
      simp only [refusing]
      split
      · exact h
      · exact h.perform fun d hok => Document.follows_replaceText h.document.wellFormed hok }

/-- What converting texts gave: new forests stand in the places of some of the texts, and the counts and
numbers of nodes have gone on. -/
def Substitutes (g : Grammar) (l : Layout) (refuse : NodeId → Text → Option HostError) (base : NodeId)
    (data : NodeData) (children : Forest) (σ : NodeId → Option Forest) (counts : Counts)
    (texts : List (NodeId × Text)) (r : Counts × Session) : Prop :=
  ∃ σ', (∀ i, i ∉ texts.map Prod.fst → σ' i = σ i) ∧ children.Places base σ' ∧
    base ≤ r.2.document.fresh ∧
    Forest.Has Document.body data (children.substitute σ') r.2.document.forest ∧
    Converts g l refuse base σ' counts texts r.1

section Substitutes

variable {base id : NodeId} {t : Text} {σ : NodeId → Option Forest} {counts after : Counts}
  {rest : List (NodeId × Text)} {r : Counts × Session}

/-- A text stays before the others are converted. -/
lemma Substitutes.keep (h : Substitutes g l refuse base data children σ counts rest r)
    (hid : id ∉ rest.map Prod.fst) (hσ : σ id = none)
    (hreason : (refuse id t).isSome = true ∨ ∀ kind, ¬ (g.rule kind).Holds t) :
    Substitutes g l refuse base data children σ counts ((id, t) :: rest) r := by
  obtain ⟨σ', hσ', hplaces, hbase, hbody, hconverts⟩ := h
  refine ⟨σ', fun i hi => hσ' i fun hmem => hi (List.mem_cons_of_mem id hmem), hplaces, hbase, hbody, ?_⟩
  exact .kept ((hσ' id hid).trans hσ) hreason hconverts

/-- A text gives way before the others are converted. -/
lemma Substitutes.put {fresh : NodeId} {segments : List Segment} {σ₁ : NodeId → Option Forest}
    (h : Substitutes g l refuse base data children σ₁ after rest r)
    (hσ₁ : σ₁ = Function.update σ id (some (NodeSpec.buildAll fresh (segments.map l.nodeSpec)).1))
    (hid : id ∉ rest.map Prod.fst) (hfree : refuse id t = none) (hholds : ∃ kind, (g.rule kind).Holds t)
    (hnumber : Segment.number counts (g.pieces t) = (segments, after)) (hbase : base ≤ fresh) :
    Substitutes g l refuse base data children σ counts ((id, t) :: rest) r := by
  obtain ⟨σ', hσ', hplaces, hbase', hbody, hconverts⟩ := h
  refine ⟨σ', fun i hi => ?_, hplaces, hbase', hbody, ?_⟩
  · rw [List.map_cons, List.mem_cons, not_or] at hi
    rw [hσ' i hi.2, hσ₁, Function.update_of_ne hi.1]
  · refine .replaced ?_ hfree hholds hnumber hbase hconverts
    rw [hσ' id hid, hσ₁, Function.update_self]

/-- New nodes take the place of a text that has stayed so far. -/
lemma replaceText_substitute (hnodup : children.ids.Nodup) (hold : ∀ i ∈ children.ids, i < base)
    (h : s.document.WellFormed) (hbase : base ≤ s.document.fresh) (hplaces : children.Places base σ)
    (hbody : Forest.Has Document.body data (children.substitute σ) s.document.forest)
    (hproper : children.Proper) (hentry : (id, .text t) ∈ children.entries) (hnone : σ id = none)
    (specs : List NodeSpec) :
    ∃ d σ₁, s.perform (s.document.replaceText id specs) = (.ok (), { s with document := d }) ∧
      σ₁ = Function.update σ id (some (NodeSpec.buildAll s.document.fresh specs).1) ∧
      d.WellFormed ∧ base ≤ d.fresh ∧ children.Places base σ₁ ∧
      Forest.Has Document.body data (children.substitute σ₁) d.forest := by
  have hentry' := Forest.mem_entries_substitute hproper hplaces.text hentry hnone
  obtain ⟨d, hok, hfollows, -, hfresh, hbody'⟩ := Document.replaceText_below_body h hbody hentry' specs
  obtain ⟨count, hids, hnext, -⟩ := NodeSpec.buildAll_spec s.document.fresh specs
  have hnew : ∀ j ∈ (NodeSpec.buildAll s.document.fresh specs).1.ids, base ≤ j := by
    intro j hj
    rw [hids, List.mem_range'_1] at hj
    exact hbase.trans hj.1
  have hapart : ∀ i m, σ i = some m → id ∉ m.ids := fun i m hm hmem =>
    absurd (hplaces.fresh i m hm id hmem)
      (Nat.not_le_of_lt (hold id (Forest.mem_ids_of_mem_entries hentry)))
  refine ⟨d, _, by rw [hok]; rfl, rfl, hfollows.wellFormed, ?_, hplaces.update hnodup hentry hnew, ?_⟩
  · rw [hfresh, hnext]
    exact Nat.le_add_right_of_le hbase
  · rwa [← Forest.splice_substitute hnodup hnone hapart]

variable (refuse refusals g l) in
/-- Converting texts puts new forests in the places of some of them. -/
lemma convertNodes_refusing (counts : Counts) (hnodup : children.ids.Nodup) (hproper : children.Proper)
    (hold : ∀ i ∈ children.ids, i < base) (h : s.document.WellFormed)
    (hbase : base ≤ s.document.fresh)
    (hbody : Forest.Has Document.body data (children.substitute σ) s.document.forest)
    (hplaces : children.Places base σ) (hrest : (rest.map Prod.fst).Nodup)
    (htexts : ∀ p ∈ rest, (p.1, .text p.2) ∈ children.entries ∧ σ p.1 = none) :
    Substitutes g l refuse base data children σ counts rest
      (convertNodes (refusing refuse refusals) g l counts (rest.map Prod.fst) s) := by
  -- the texts still to come have nothing in their places; each step decides about one of them
  induction rest generalizing counts s σ with
  | nil => exact ⟨σ, fun _ _ => rfl, hplaces, hbase, hbody, .nil counts⟩
  | cons p rest ih =>
    obtain ⟨id, t⟩ := p
    obtain ⟨⟨hentry, hnone⟩, htexts'⟩ := List.forall_mem_cons.1 htexts
    rw [List.map_cons, List.nodup_cons] at hrest
    obtain ⟨hid, hrest⟩ := hrest
    have htext : s.document.textOf id = t := Document.textOf_eq h
      (hbody.entries_subset (Forest.mem_entries_substitute hproper hplaces.text hentry hnone))
    have hhost : (refusing refuse refusals).textOf s id = t := htext
    rw [List.map_cons, convertNodes, hhost]
    cases hsegments : g.segment? counts t with
    | none =>
      exact (ih counts h hbase hbody hplaces hrest htexts').keep hid hnone
        (Or.inr (g.segment?_eq_none_iff.1 hsegments))
    | some found =>
      obtain ⟨segments, after⟩ := found
      obtain ⟨hholds, hnumber⟩ := g.segment?_eq_some_iff.1 hsegments
      simp only [refusing, htext]
      cases hrefuse : refuse id t with
      | some e =>
        -- the refusal is logged, which leaves the nodes as they are
        refine Substitutes.keep (ih counts ?_ ?_ ?_ hplaces hrest htexts') hid hnone
          (Or.inl (by rw [hrefuse]; rfl))
        exacts [h, hbase, hbody]
      | none =>
        obtain ⟨d, σ₁, hperform, hσ₁, hd, hbase', hplaces', hbody'⟩ :=
          replaceText_substitute hnodup hold h hbase hplaces hbody hproper hentry hnone
            (segments.map l.nodeSpec)
        have hrest' : ∀ p ∈ rest, (p.1, .text p.2) ∈ children.entries ∧ σ₁ p.1 = none := by
          intro p hp
          rw [hσ₁, Function.update_of_ne fun he => hid (List.mem_map.2 ⟨p, hp, he⟩)]
          exact htexts' p hp
        simp only [hperform]
        exact (ih (s := { s with document := d }) after hd hbase' hbody' hplaces' hrest hrest').put hσ₁
          hid hrefuse hholds hnumber hbase

end Substitutes

variable (refuse refusals g l) in
/-- Converting a document puts new forests in the places of some texts of the normalized body. -/
lemma convertDocument_refusing (h : s.document.WellFormed)
    (hbody : Forest.Has Document.body data children s.document.forest) :
    ∃ σ, children.normalize.Places s.document.fresh σ ∧
      s.document.fresh ≤ (convertDocument (refusing refuse refusals) g l s).2.document.fresh ∧
      Forest.Has Document.body data (children.normalize.substitute σ)
        (convertDocument (refusing refuse refusals) g l s).2.document.forest ∧
      Converts g l refuse s.document.fresh σ {} (children.normalize.textsOutside Forest.isSkipped)
        (convertDocument (refusing refuse refusals) g l s).1 ∧
      ∀ i, i ∉ (children.normalize.textsOutside Forest.isSkipped).map Prod.fst → σ i = none := by
  have hnormalize := (Document.follows_normalize h).wellFormed
  have hbody' := Document.has_body_normalize h hbody
  have hnodup := (hbody'.nodup hnormalize.nodup).2
  have hproper := (hbody'.proper hnormalize.proper).2
  have hold : ∀ i ∈ children.normalize.ids, i < s.document.fresh := fun i hi =>
    hnormalize.lt_fresh i (hbody'.ids_subset hi)
  have hsame : children.normalize.substitute (fun _ => none) = children.normalize :=
    Forest.substitute_none fun _ _ => rfl
  have hconvert : convertDocument (refusing refuse refusals) g l s =
      convertNodes (refusing refuse refusals) g l {}
        ((children.normalize.textsOutside Forest.isSkipped).map Prod.fst)
        { s with document := s.document.normalize } := by
    rw [← Document.textNodes_eq hnormalize hbody']
    rfl
  obtain ⟨σ, hσ, hplaces, hfresh, hafter, hconverts⟩ :=
    convertNodes_refusing refuse refusals g l
      (s := { s with document := s.document.normalize }) {} hnodup hproper hold hnormalize
      (Nat.le_refl _) (by rwa [hsame]) (Forest.places_none _ _)
      ((Forest.textsOutside_sublist _).nodup hnodup)
      fun p hp => ⟨Forest.mem_entries_of_mem_textsOutside hp, rfl⟩
  exact ⟨σ, hplaces, hconvert ▸ hfresh, hconvert ▸ hafter, hconvert ▸ hconverts, hσ⟩

/-! ## The whole pass -/

lemma follows_refusingPass (h : s.document.WellFormed) (refuse : NodeId → Text → Option HostError)
    (index : Nat) (e : Engine) : s.Follows (s.refusingPass refuse index e).2 := by
  refine runPass_keeps (refusing_keeps refuse e.refusals s) (fun t ht => ?_) (fun s' h => h.settle index)
    (Follows.refl h)
  obtain ⟨scripted, -, rfl⟩ := List.mem_map.1 ht
  exact ⟨fun _ h => h, fun _ _ h => ⟨h.document, h.monitors⟩⟩

/-- Style rules come to stand at the end of the head, or nothing happens. -/
lemma ensure_refusing (sheet : Sheet) (h : s.document.WellFormed) :
    (sheet.ensure (refusing refuse refusals) s).2.document.forest = s.document.forest ∨
      (sheet.ensure (refusing refuse refusals) s).2.document.forest =
        s.document.forest.appendTo Document.head
          (Document.styleTree s.document.fresh sheet.id sheet.css) := by
  rw [Sheet.ensure]
  split
  · exact Or.inl rfl
  · simp only [refusing, host]
    cases refusals.style with
    | some e => exact Or.inl rfl
    | none =>
      obtain ⟨d, hok, hforest, -⟩ := Document.insertStyle_eq_ok h sheet.id sheet.css
      simp only [hok]
      exact Or.inr hforest

variable (refuse) in
/-- The children of the body after a pass: those after the conversion, with style rules behind the children
of the head when these were added and the head stands below the body. -/
lemma refusingPass_body (index : Nat) (e : Engine) (h : s.document.WellFormed)
    (hbody : Forest.Has Document.body data children s.document.forest) :
    ∃ σ after, children.normalize.Places s.document.fresh σ ∧
      Converts e.settings.grammar e.settings.layout refuse s.document.fresh σ {}
        (children.normalize.textsOutside Forest.isSkipped) (s.refusingPass refuse index e).1.counts ∧
      (∀ i, i ∉ (children.normalize.textsOutside Forest.isSkipped).map Prod.fst → σ i = none) ∧
      Forest.Has Document.body data after (s.refusingPass refuse index e).2.document.forest ∧
      (after = children.normalize.substitute σ ∨ ∃ fresh, s.document.fresh ≤ fresh ∧
        after = (children.normalize.substitute σ).appendTo Document.head
          (Document.styleTree fresh e.settings.sheet.id e.settings.sheet.css)) := by
  obtain ⟨styled, final, hstyled, hfinal, hforest, -⟩ :=
    runPass_styled (refusing refuse e.refusals) rfl e.settings e.typesetters index s
  obtain ⟨σ, hplaces, hfresh, hbody', hconverts, hσ⟩ :=
    convertDocument_refusing refuse e.refusals e.settings.grammar e.settings.layout h hbody
  have hfollows := convertDocument_keeps (refusing_keeps refuse e.refusals s) e.settings.grammar
    e.settings.layout (Follows.refl h)
  have hwell := hfollows.document.wellFormed
  have hpass : (s.refusingPass refuse index e).2.document.forest = styled.document.forest := by
    rw [← hforest, hfinal]
    rfl
  rw [hstyled] at hpass
  rcases ensure_refusing e.settings.sheet hwell with hsame | hadded
  · exact ⟨σ, _, hplaces, hconverts, hσ, by rwa [hpass, hsame], Or.inl rfl⟩
  · have hne : Document.body ≠ Document.head := by decide
    refine ⟨σ, _, hplaces, hconverts, hσ, ?_, Or.inr ⟨_, hfresh, rfl⟩⟩
    rw [hpass, hadded]
    exact hbody'.appendTo hwell.nodup hne _

end Session

end MarkedMath
