import MarkedMath.Proofs.ClassWords
import MarkedMath.Proofs.Rewriting

/-!
# The numbers that a pass hands out

The equations of each kind that a pass puts below the body carry the identifiers from 1 on without a gap, in
document order, whatever texts are refused on the way. As many as the pass counts are found by their class
afterwards beyond those found before.

The numbers are followed along the texts of the body, as the counts are (`Converts.identifiers`), and the
texts stand in document order. An element is found by its class when it was before the pass or is one of the
new equations, since the classes of the two kinds are different words.
-/

namespace MarkedMath

/-- The identifiers of the first equations of a kind. -/
def Kind.identifiers (kind : Kind) (count : Nat) : List Text :=
  (List.range' 1 count).map fun n => (kind.name ++ "-" ++ toString n).toList

/-- The equations of a kind in a forest whose elements are numbered from `fresh` on, in document order. -/
def Forest.equationsFrom (fresh : NodeId) (kind : Kind) (f : Forest) : List NodeData :=
  (f.entries.filter fun e => fresh ≤ e.1 ∧ e.2.equationKind? = some kind).map Prod.snd

/-- The equations of a kind among segments. -/
def Segment.equations (kind : Kind) (segments : List Segment) : List Equation :=
  segments.filterMap fun
    | .text _ => none
    | .equation e => if e.kind = kind then some e else none

/-! ## Equations of segments -/

section Segments

variable {l : Layout} {counts after : Counts} {kind : Kind} {base fresh id : NodeId} {d : NodeData}
  {c n : Forest}

lemma Counts.get_advance (counts : Counts) (kind kind' : Kind) :
    (counts.advance kind').get kind = counts.get kind + if kind' = kind then 1 else 0 := by
  cases kind <;> cases kind' <;> rfl

lemma Kind.identifiers_succ (kind : Kind) (count : Nat) :
    kind.identifiers (count + 1) =
      kind.identifiers count ++ [(kind.name ++ "-" ++ toString (count + 1)).toList] := by
  rw [identifiers, List.range'_concat, List.map_append, Nat.one_mul, Nat.add_comm 1 count]
  rfl

/-- Numbering goes on where the counts have got to. -/
lemma Segment.identifiers_number (pieces : List Piece) (counts : Counts) :
    kind.identifiers (counts.get kind) ++
        (equations kind (number counts pieces).1).map (fun e => e.id.toList) =
      kind.identifiers ((number counts pieces).2.get kind) := by
  induction pieces generalizing counts with
  | nil => simp [number, equations]
  | cons piece pieces ih =>
    cases piece with
    | text t => simpa [number, equations] using ih counts
    | marker kind' payload =>
      have hrest := ih (counts.advance kind')
      by_cases hk : kind' = kind
      · subst hk
        rw [Counts.get_advance, if_pos rfl, Kind.identifiers_succ, List.append_assoc] at hrest
        simpa [number, equations, Equation.id, Counts.get_advance] using hrest
      · rw [Counts.get_advance, if_neg hk] at hrest
        simpa [number, equations, hk] using hrest

lemma attribute?_id_equationData (e : Equation) :
    (l.equationData e).attribute? "data-equation-id" = some e.id.toList := by
  simp [Layout.equationData, Layout.attributes, NodeData.setAttribute, NodeData.attribute?,
    NodeData.attributes]

@[simp] lemma NodeData.equationKind?_text (t : Text) : (text t).equationKind? = none := rfl

namespace Forest

@[simp] lemma equationsFrom_nil : nil.equationsFrom fresh kind = [] := rfl

lemma equationsFrom_append (f g : Forest) :
    (f ++ g).equationsFrom fresh kind = f.equationsFrom fresh kind ++ g.equationsFrom fresh kind := by
  simp [equationsFrom]

lemma equationsFrom_node : (node id d c n).equationsFrom fresh kind =
    (if fresh ≤ id ∧ d.equationKind? = some kind then [d] else []) ++
      (c.equationsFrom fresh kind ++ n.equationsFrom fresh kind) := by
  rw [equationsFrom, entries, List.filter_cons]
  split
  · next h => simp [equationsFrom, if_pos (of_decide_eq_true h)]
  · next h => simp [equationsFrom, if_neg (fun h' => h (decide_eq_true h'))]

lemma equationsFrom_text (t : Text) :
    (node id (.text t) nil n).equationsFrom fresh kind = n.equationsFrom fresh kind := by
  simp [equationsFrom_node]

end Forest

/-- The new nodes of segments hold their equations. -/
lemma equationsFrom_buildAll (hbase : base ≤ fresh) (segments : List Segment) :
    (NodeSpec.buildAll fresh (segments.map l.nodeSpec)).1.equationsFrom base kind =
      (Segment.equations kind segments).map l.equationData := by
  induction segments generalizing fresh with
  | nil => rfl
  | cons segment segments ih =>
    rw [List.map_cons]
    cases segment with
    | text t =>
      rw [Layout.nodeSpec, buildAll_text, Forest.equationsFrom_text, ih (Nat.le_succ_of_le hbase)]
      rfl
    | equation e =>
      rw [buildAll_equation, Forest.equationsFrom_node, Forest.leaf, Forest.equationsFrom_text,
        ih (Nat.le_add_right_of_le hbase), equationKind?_equationData]
      by_cases hk : e.kind = kind
      · simp [Segment.equations, hk, hbase]
      · simp [Segment.equations, hk]

end Segments

/-! ## Equations of a conversion -/

section Conversion

variable {g : Grammar} {l : Layout} {refuse : NodeId → Text → Option HostError} {base : NodeId}
  {σ : NodeId → Option Forest} {kind : Kind} {f : Forest}

/-- The equations of a kind that stand in the place of a node. -/
def equationsAt (σ : NodeId → Option Forest) (base : NodeId) (kind : Kind) (id : NodeId) :
    List NodeData :=
  ((σ id).map (Forest.equationsFrom base kind)).getD []

/-- Along the texts the identifiers go on where the counts have got to. -/
lemma Converts.identifiers {counts final : Counts} {texts : List (NodeId × Text)}
    (h : Converts g l refuse base σ counts texts final) (kind : Kind) :
    (kind.identifiers (counts.get kind)).map some ++
        ((texts.map Prod.fst).flatMap (equationsAt σ base kind)).map
          (fun data => data.attribute? "data-equation-id") =
      (kind.identifiers (final.get kind)).map some := by
  induction h with
  | nil => simp
  | kept hσ _ _ ih => simpa [equationsAt, hσ] using ih
  | @replaced counts after final id fresh t rest segments hσ _ _ hnumber hbase _ ih =>
    have hids : kind.identifiers (counts.get kind) ++ _ = _ := Segment.identifiers_number (g.pieces t) counts
    rw [hnumber] at hids
    have hnew : equationsAt σ base kind id = (Segment.equations kind segments).map l.equationData := by
      rw [equationsAt, hσ, Option.map_some, equationsFrom_buildAll hbase, Option.getD_some]
    rw [List.map_cons, List.flatMap_cons, hnew, List.map_append, List.map_map, ← List.append_assoc, ← ih,
      ← hids, List.map_append, List.map_map]
    simp [attribute?_id_equationData]

lemma flatMap_eq_of_sublist {α β : Type} {k : α → List β} {l₁ l₂ : List α} (h : l₁.Sublist l₂)
    (hnodup : l₂.Nodup) (hk : ∀ a ∈ l₂, a ∉ l₁ → k a = []) : l₂.flatMap k = l₁.flatMap k := by
  induction h with
  | slnil => rfl
  | @cons l₁ l₂ a hsub ih =>
    obtain ⟨ha, hnodup⟩ := List.nodup_cons.1 hnodup
    rw [List.flatMap_cons, hk a List.mem_cons_self fun hmem => ha (hsub.subset hmem)]
    exact ih hnodup fun b hb => hk b (List.mem_cons_of_mem a hb)
  | @cons_cons l₁ l₂ a hsub ih =>
    obtain ⟨ha, hnodup⟩ := List.nodup_cons.1 hnodup
    rw [List.flatMap_cons, List.flatMap_cons, ih hnodup fun b hb hnot => ?_]
    refine hk b (List.mem_cons_of_mem a hb) fun hmem => ?_
    rcases List.mem_cons.1 hmem with rfl | hmem
    · exact ha hb
    · exact hnot hmem

/-- The new equations below the body stand in the places of its texts. -/
lemma equationsFrom_substitute {texts : List (NodeId × Text)} (hnodup : f.ids.Nodup) (hproper : f.Proper)
    (hplaces : f.Places base σ) (hold : ∀ i ∈ f.ids, i < base)
    (hsub : (texts.map Prod.fst).Sublist f.ids)
    (hothers : ∀ i, i ∉ texts.map Prod.fst → σ i = none) :
    (f.substitute σ).equationsFrom base kind = (texts.map Prod.fst).flatMap (equationsAt σ base kind) := by
  have hnone : ∀ i ∈ f.ids, i ∉ texts.map Prod.fst → equationsAt σ base kind i = [] := by
    intro i _ hnot
    rw [equationsAt, hothers i hnot]
    rfl
  rw [← flatMap_eq_of_sublist hsub hnodup hnone, Forest.ids_eq_map, List.flatMap_map, Forest.equationsFrom,
    Forest.entries_substitute hproper hplaces.text, List.filter_flatMap, List.map_flatMap]
  refine List.flatMap_congr fun e he => ?_
  -- an old node is no new equation
  have hlt := Nat.not_le_of_lt (hold e.1 (Forest.mem_ids_of_mem_entries he))
  cases hσ : σ e.1 with
  | none => simp [equationsAt, hσ, hlt]
  | some new => simp [equationsAt, hσ, Forest.equationsFrom]

/-- A node of the new forest is an old one or stands in the place of a text. -/
lemma mem_entries_of_substitute {e : NodeId × NodeData} (hproper : f.Proper) (hplaces : f.Places base σ)
    (he : e ∈ (f.substitute σ).entries) :
    e ∈ f.entries ∨ ∃ id new, σ id = some new ∧ e ∈ new.entries := by
  rw [Forest.entries_substitute hproper hplaces.text, List.mem_flatMap] at he
  obtain ⟨e', he', hmem⟩ := he
  cases hσ : σ e'.1 with
  | none =>
    obtain rfl : e = e' := by simpa [hσ] using hmem
    exact Or.inl he'
  | some new => exact Or.inr ⟨e'.1, new, hσ, by simpa [hσ] using hmem⟩

/-- What stands in the places of texts are texts and equations. -/
lemma Converts.entries_new {counts final : Counts} {texts : List (NodeId × Text)}
    (h : Converts g l refuse base σ counts texts final) {id : NodeId} (hid : id ∈ texts.map Prod.fst)
    {new : Forest} (hσ : σ id = some new) {e : NodeId × NodeData} (he : e ∈ new.entries) :
    (∃ t, e.2 = .text t) ∨ ∃ equation, e.2 = l.equationData equation := by
  induction h with
  | nil => simp at hid
  | kept hnone _ _ ih =>
    rcases List.mem_cons.1 hid with rfl | hid
    · simp [hnone] at hσ
    · exact ih hid
  | replaced hsome _ _ _ _ _ ih =>
    rcases List.mem_cons.1 hid with rfl | hid
    · obtain rfl := Option.some_inj.1 (hsome.symm.trans hσ)
      rcases entries_buildAll _ he with htext | ⟨equation, hdata, -⟩
      · exact Or.inl htext
      · exact Or.inr ⟨equation, hdata⟩
    · exact ih hid

/-- Of a class that holds no texts there are the old nodes and the new equations, when among the new nodes
the equations are those of the class. -/
lemma countP_substitute {q : NodeData → Bool} (hproper : f.Proper) (hplaces : f.Places base σ)
    (hold : ∀ i ∈ f.ids, i < base) (htext : ∀ t, q (.text t) = false)
    (hnew : ∀ id new, σ id = some new → ∀ e ∈ new.entries, q e.2 = decide (e.2.equationKind? = some kind)) :
    (f.substitute σ).entries.countP (fun e => q e.2) =
      f.entries.countP (fun e => q e.2) + ((f.substitute σ).equationsFrom base kind).length := by
  induction f with
  | nil => rfl
  | node id d c n ihc ihn =>
    have hc := ihc hproper.2.1 (hplaces.mono fun e he => by simp [Forest.entries, he])
      fun i hi => hold i (by simp [Forest.ids, hi])
    have hn := ihn hproper.2.2 (hplaces.mono fun e he => by simp [Forest.entries, he])
      fun i hi => hold i (by simp [Forest.ids, hi])
    cases hσ : σ id with
    | some new =>
      -- a text gives way, which is of no class itself
      obtain ⟨t, rfl⟩ : ∃ t, d = .text t := by
        have hsome := hplaces.text id d (by simp [Forest.entries]) (by rw [hσ]; rfl)
        obtain ⟨t, ht⟩ := Option.isSome_iff_exists.1 hsome
        exact ⟨t, NodeData.text?_eq_some_iff.1 ht⟩
      obtain rfl := (Forest.Has.here n).eq_nil_of_text hproper
      have hcount : new.entries.countP (fun e => q e.2) = (new.equationsFrom base kind).length := by
        rw [Forest.equationsFrom, List.length_map, ← List.countP_eq_length_filter]
        refine List.countP_congr fun e he => ?_
        have hbase := hplaces.fresh id new hσ e.1 (Forest.mem_ids_of_mem_entries he)
        simp [hnew id new hσ e he, hbase]
      rw [Forest.substitute_of_some hσ, Forest.entries_append, List.countP_append, hcount, hn,
        Forest.equationsFrom_append, List.length_append]
      simp [Forest.entries, htext]
      omega
    | none =>
      have hlt : ¬ base ≤ id := Nat.not_le_of_lt (hold id (by simp [Forest.ids]))
      rw [Forest.substitute_of_none hσ, Forest.equationsFrom_node, if_neg fun h => hlt h.1]
      simp only [Forest.entries, List.countP_cons, List.countP_append, hc, hn, List.nil_append,
        List.length_append]
      omega

end Conversion

/-! ## Classes of equations -/

lemma isBlank_of_isNameChar {c : Char} (h : isNameChar c = true) : Text.isBlank c = false := by
  by_contra hblank
  rw [Bool.not_eq_false, Text.isBlank] at hblank
  simp only [Bool.or_eq_true, decide_eq_true_eq] at hblank
  rcases hblank with (((rfl | rfl) | rfl) | rfl) | rfl <;> exact absurd h (by decide)

lemma isNameChar_of_isPlainName {name : String} (h : isPlainName name = true) :
    ∀ c ∈ name.toList, isNameChar c = true := by
  rw [isPlainName, Bool.and_eq_true, List.all_eq_true] at h
  exact h.2

/-- A plain name is a single word. -/
lemma isWord_of_isPlainName {name : String} (h : isPlainName name = true) : Text.IsWord name.toList := by
  refine ⟨?_, fun c hc => isBlank_of_isNameChar (isNameChar_of_isPlainName h c hc)⟩
  rw [isPlainName, Bool.and_eq_true, Bool.not_eq_true'] at h
  simpa using h.1

lemma isDigit_of_mem_toString {n : Nat} : ∀ c ∈ (toString n).toList, c.isDigit = true := fun c hc =>
  Nat.isDigit_of_mem_toDigits (b := 10) (by decide) (by decide) (n := n) (by simpa [toString, Nat.repr] using hc)

namespace CheckedSettings

variable (s : CheckedSettings)

/-- Every name is plain. -/
lemma isPlainName_get (field : NameField) : isPlainName (s.get field) = true := by
  have hnames : NameField.all.findSome? s.nameFault? = none :=
    (Option.or_eq_none_iff.1 (Option.or_eq_none_iff.1 s.valid).1).2
  rw [List.findSome?_eq_none_iff] at hnames
  by_contra hnot
  have hfault := hnames field (by cases field <;> simp [NameField.all])
  rw [Settings.nameFault?, if_neg hnot] at hfault
  simp at hfault

lemma isPlainName_className (kind : Kind) : isPlainName (s.layout.className kind) = true := by
  cases kind with
  | inline => exact s.isPlainName_get .inlineClass
  | display => exact s.isPlainName_get .displayClass

lemma isWord_debugClass : Text.IsWord s.debugClass.toList :=
  isWord_of_isPlainName (s.isPlainName_get .debugClass)

/-- The class of a kind is a single word. -/
lemma words_className (kind : Kind) :
    Text.words (s.layout.className kind).toList = [(s.layout.className kind).toList] :=
  (isWord_of_isPlainName (s.isPlainName_className kind)).words_eq

/-- The two kinds have different classes. -/
lemma className_inj {kind kind' : Kind} :
    s.layout.className kind = s.layout.className kind' ↔ kind = kind' := by
  have hclasses : s.inlineClass ≠ s.displayClass := by
    intro he
    have hfault := (Option.or_eq_none_iff.1 s.valid).2
    rw [Settings.classFault?, if_pos he] at hfault
    simp at hfault
  cases kind <;> cases kind' <;>
    simp [Settings.layout, Layout.className, hclasses, Ne.symm hclasses]

/-- An equation is of the class of its kind alone. -/
lemma contains_classes_equationData (kind : Kind) (e : Equation) :
    (s.layout.equationData e).classes.contains (s.layout.className kind).toList =
      decide (e.kind = kind) := by
  have hclass : (s.layout.equationData e).attribute? "class" =
      some (s.layout.className e.kind).toList := by
    simp [Layout.equationData, Layout.attributes, NodeData.setAttribute, NodeData.attribute?,
      NodeData.attributes]
  rw [NodeData.classes, hclass]
  simp only [s.words_className e.kind]
  simp [String.toList_inj, s.className_inj, eq_comm]

end CheckedSettings

/-! ## Looking for a class -/

namespace Forest

variable {f new : Forest} {q : NodeData → Bool}

/-- The elements of a class are counted among all nodes. -/
lemma length_elements (hf : f.Proper) (p : NodeData → Bool) :
    (f.elements p).length = f.entries.countP fun e => e.2.isElement && p e.2 := by
  induction f with
  | nil => rfl
  | node id d c n ihc ihn =>
    rw [elements, entries, List.countP_cons, List.countP_append, ← ihc hf.2.1, ← ihn hf.2.2]
    split
    · next helement =>
      rw [List.length_append, List.length_append, helement]
      cases p d <;> simp [Nat.add_comm]
    · next helement =>
      obtain rfl := hf.1.resolve_left helement
      simp [helement, elements]

/-- Normalizing keeps the nodes of a class that holds no texts. -/
lemma countP_normalize (hf : f.Proper) (htext : ∀ t, q (.text t) = false) :
    f.normalize.entries.countP (fun e => q e.2) = f.entries.countP (fun e => q e.2) := by
  have hother : ∀ f : Forest, f.otherEntries.countP (fun e => q e.2) = f.entries.countP fun e => q e.2 := by
    intro f
    rw [otherEntries, List.countP_filter]
    refine List.countP_congr fun e _ => ?_
    cases hd : e.2.text? with
    | some t => simp [NodeData.text?_eq_some_iff.1 hd, htext]
    | none => simp
  rw [← hother, ← hother, normalize, otherEntries_normalizeRun hf]

/-- Nodes outside a class may be put behind the children of a node. -/
lemma filter_entries_appendTo {p : NodeId × NodeData → Bool} (hnew : new.entries.filter p = []) (f : Forest)
    (id : NodeId) : (f.appendTo id new).entries.filter p = f.entries.filter p := by
  induction f with
  | nil => rfl
  | node i d c n ihc ihn =>
    rw [appendTo]
    split
    · simp [entries, List.filter_cons, hnew]
    · simp [entries, List.filter_cons, ihc, ihn]

end Forest

/-! ## The converted body -/

/-- Whether a node is found by the class of a kind. -/
def Layout.isFound (l : Layout) (kind : Kind) (data : NodeData) : Bool :=
  data.isElement && data.classes.contains (l.className kind).toList

section Converted

variable {settings : CheckedSettings} {refuse : NodeId → Text → Option HostError} {base : NodeId}
  {σ : NodeId → Option Forest} {f : Forest} {texts : List (NodeId × Text)} {counts : Counts}
  (hnodup : f.ids.Nodup) (hproper : f.Proper) (hplaces : f.Places base σ) (hold : ∀ i ∈ f.ids, i < base)
  (hsub : (texts.map Prod.fst).Sublist f.ids) (hothers : ∀ i, i ∉ texts.map Prod.fst → σ i = none)
  (hconverts : Converts settings.grammar settings.layout refuse base σ {} texts counts)

include hconverts hothers in
/-- New nodes are texts and equations. -/
lemma new_entries {id : NodeId} {new : Forest} (hσ : σ id = some new) {e : NodeId × NodeData}
    (he : e ∈ new.entries) :
    (∃ t, e.2 = .text t) ∨ ∃ equation, e.2 = settings.layout.equationData equation := by
  refine hconverts.entries_new ?_ hσ he
  by_contra hnot
  rw [hothers id hnot] at hσ
  simp at hσ

include hnodup hproper hplaces hold hsub hothers hconverts in
/-- The new equations carry the identifiers from 1 on. -/
lemma identifiers_substitute (kind : Kind) :
    ((f.substitute σ).equationsFrom base kind).map (fun data => data.attribute? "data-equation-id") =
      (kind.identifiers (counts.get kind)).map some := by
  have hids := hconverts.identifiers kind
  rw [← equationsFrom_substitute hnodup hproper hplaces hold hsub hothers] at hids
  have hzero : kind.identifiers (({} : Counts).get kind) = [] := by cases kind <;> rfl
  rwa [hzero, List.map_nil, List.nil_append] at hids

include hnodup hproper hplaces hold hsub hothers hconverts in
/-- By the new equations more nodes are found by the class of a kind. -/
lemma countP_found_substitute (kind : Kind) :
    (f.substitute σ).entries.countP (fun e => settings.layout.isFound kind e.2) =
      f.entries.countP (fun e => settings.layout.isFound kind e.2) + counts.get kind := by
  have hlength := congrArg List.length
    (identifiers_substitute hnodup hproper hplaces hold hsub hothers hconverts kind)
  simp only [List.length_map, Kind.identifiers, List.length_range'] at hlength
  rw [countP_substitute hproper hplaces hold (fun _ => rfl) ?_, hlength]
  intro id new hσ e he
  rcases new_entries hothers hconverts hσ he with ⟨t, ht⟩ | ⟨equation, hdata⟩
  · rw [ht]
    rfl
  · have helement : (settings.layout.equationData equation).isElement = true := rfl
    rw [hdata, Layout.isFound, settings.contains_classes_equationData, helement, Bool.true_and,
      equationKind?_equationData]
    simp

include hproper hplaces hold hothers hconverts in
/-- New elements are equations. -/
lemma equationKind?_of_new {id : NodeId} {data : NodeData} (hmem : (id, data) ∈ (f.substitute σ).entries)
    (hid : base ≤ id) (helement : data.isElement = true) : ∃ kind, data.equationKind? = some kind := by
  rcases mem_entries_of_substitute hproper hplaces hmem with hin | ⟨i, new, hsome, hin⟩
  · exact absurd (hold id (Forest.mem_ids_of_mem_entries hin)) (Nat.not_lt_of_le hid)
  · rcases new_entries hothers hconverts hsome hin with ⟨t, ht⟩ | ⟨equation, hdata⟩
    · obtain rfl : data = .text t := ht
      simp [NodeData.isElement, NodeData.tag?] at helement
    · obtain rfl : data = settings.layout.equationData equation := hdata
      exact ⟨equation.kind, equationKind?_equationData equation⟩

end Converted

/-! ## The pass -/

/-- The nodes that style rules add. -/
lemma Document.entries_styleTree (fresh : NodeId) (id css : String) :
    (styleTree fresh id css).entries =
      [(fresh, .element "style" [("id", id.toList)]), (fresh + 1, .text css.toList)] := rfl

/-- Style rules add nothing to a class without texts and style elements. -/
lemma Document.filter_entries_styled {base : NodeId} {id css : String} {converted after : Forest}
    (hstyle : after = converted ∨ ∃ fresh, base ≤ fresh ∧
      after = converted.appendTo head (styleTree fresh id css)) {p : NodeId × NodeData → Bool}
    (htext : ∀ i t, p (i, .text t) = false)
    (htag : ∀ i t, p (i, .element "style" [("id", t)]) = false) :
    after.entries.filter p = converted.entries.filter p := by
  rcases hstyle with rfl | ⟨fresh, -, rfl⟩
  · rfl
  · refine Forest.filter_entries_appendTo ?_ _ _
    simp [entries_styleTree, htext, htag]

namespace Session

lemma length_equations {s : Session} {data : NodeData} {children : Forest} (h : s.document.WellFormed)
    (hbody : Forest.Has Document.body data children s.document.forest) (e : Engine) (kind : Kind) :
    (s.equations e kind).length =
      children.entries.countP fun x => e.settings.layout.isFound kind x.2 := by
  rw [equations, Document.elementsWithClass, hbody.childrenOf h.nodup,
    Forest.length_elements (hbody.proper h.proper).2]
  rfl

/-- **Numbers and counts of a pass agree with the document.** In every run, and whatever texts are refused to
an engine, let the engine make a pass. The equations of each kind that the pass puts below the body carry, in
document order, the identifiers from 1 up to the count that the pass reports for the kind; by this count the
elements found by the class of the kind have become more; and style elements aside the pass puts no other
elements below the body. -/
theorem refusingPass_numbers (loading : Bool) (commands : List Command)
    (refuse : NodeId → Text → Option HostError) (index : Nat) (e : Engine) :
    (∀ kind,
      ((((run loading commands).refusingPass refuse index e).2.document.forest.childrenOf
          Document.body).equationsFrom (run loading commands).document.fresh kind).map
          (fun data => data.attribute? "data-equation-id") =
        (kind.identifiers (((run loading commands).refusingPass refuse index e).1.counts.get kind)).map
          some ∧
      (((run loading commands).refusingPass refuse index e).2.equations e kind).length =
        ((run loading commands).equations e kind).length +
          ((run loading commands).refusingPass refuse index e).1.counts.get kind) ∧
    ∀ id data,
      (id, data) ∈ (((run loading commands).refusingPass refuse index e).2.document.forest.childrenOf
        Document.body).entries →
      (run loading commands).document.fresh ≤ id → data.isElement = true →
      data.tag? = some "style" ∨ ∃ kind, data.equationKind? = some kind := by
  have hwell := (sound_run loading commands).wellFormed
  obtain ⟨attributes, children, hbody⟩ := hwell.exists_has_body
  have hproper := (hbody.proper hwell.proper).2
  have hbefore := Document.has_body_normalize hwell hbody
  have hnormalize := (Document.follows_normalize hwell).wellFormed
  have hnodup := (hbefore.nodup hnormalize.nodup).2
  have hold : ∀ i ∈ children.normalize.ids, i < (run loading commands).document.fresh := fun i hi =>
    hnormalize.lt_fresh i (hbefore.ids_subset hi)
  have hwell' := (follows_refusingPass hwell refuse index e).document.wellFormed
  obtain ⟨σ, after, hplaces, hconverts, hσ, hafter, hstyle⟩ :=
    refusingPass_body refuse index e hwell hbody
  have hsub : ((children.normalize.textsOutside Forest.isSkipped).map Prod.fst).Sublist _ :=
    Forest.textsOutside_sublist children.normalize
  have hproper' := hproper.normalize
  refine ⟨fun kind => ⟨?_, ?_⟩, fun id data hmem hid helement => ?_⟩
  · rw [hafter.childrenOf hwell'.nodup, Forest.equationsFrom,
      Document.filter_entries_styled hstyle (by simp)
        (by simp [NodeData.equationKind?, NodeData.attribute?, NodeData.attributes])]
    exact identifiers_substitute hnodup hproper' hplaces hold hsub hσ hconverts kind
  · rw [length_equations hwell' hafter, length_equations hwell hbody, List.countP_eq_length_filter,
      Document.filter_entries_styled hstyle (fun _ _ => rfl)
        (by simp [Layout.isFound, NodeData.classes, NodeData.attribute?, NodeData.attributes]),
      ← List.countP_eq_length_filter,
      countP_found_substitute hnodup hproper' hplaces hold hsub hσ hconverts kind,
      Forest.countP_normalize hproper fun _ => rfl]
  · rw [hafter.childrenOf hwell'.nodup] at hmem
    by_cases htag : data.tag? = some "style"
    · exact Or.inl htag
    · have hin : (id, data) ∈ after.entries.filter fun x =>
          x.2.isElement && decide (x.2.tag? ≠ some "style") := by
        simp [hmem, helement, htag]
      rw [Document.filter_entries_styled hstyle (fun _ _ => rfl) (by simp [NodeData.tag?])] at hin
      exact Or.inr
        (equationKind?_of_new hproper' hplaces hold hσ hconverts (List.mem_filter.1 hin).1 hid helement)

end Session

end MarkedMath
