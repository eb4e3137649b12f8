import MarkedMath.Proofs.Normalizing
import MarkedMath.Proofs.Rest
import MarkedMath.Proofs.Tree.Written

/-!
# Passes that convert nothing

A pass normalizes the body also when it converts no marker. Markup does not show which texts are kept of a run
of texts, and an empty text is written as nothing, so normalizing leaves the markup as it is with one exception:
an element that has no end tag is written with one as long as it has children, so its end tag goes when all
that stands in it are empty texts (`NodeData.Hollow`). By induction along normalizing, the markup of a forest is
kept exactly when nothing in it is hollow, and is shorter afterwards otherwise
(`Forest.write_normalizeRun_cases`). The same holds of a pass (`Session.innerMarkup_idle_pass_iff`).
-/

namespace MarkedMath

open Forest (Has)

/-- An element that has no end tag, in which stand children and none but empty texts. -/
def NodeData.Hollow (data : NodeData) (row : List (NodeId × NodeData)) : Prop :=
  (∃ tag attributes, data = .element tag attributes ∧ voidTags.contains tag = true) ∧
    row ≠ [] ∧ ∀ e ∈ row, e.2 = .text []

namespace Forest

/-- Something in the forest is hollow. -/
def HasHollow (f : Forest) : Prop :=
  ∃ id data c, Has id data c f ∧ data.Hollow c.row

variable {style : MarkupStyle} {raw : Bool} {f c n : Forest} {id : NodeId} {d : NodeData} {t : Text}
  {run : Option (NodeId × Text)}

lemma not_hasHollow_nil : ¬ nil.HasHollow := by
  rintro ⟨_, _, _, hhas, -⟩
  cases hhas

lemma hasHollow_node :
    (node id d c n).HasHollow ↔ d.Hollow c.row ∨ c.HasHollow ∨ n.HasHollow := by
  constructor
  · rintro ⟨i, data, below, hhas, hhollow⟩
    cases hhas with
    | here => exact Or.inl hhollow
    | inside h => exact Or.inr (Or.inl ⟨i, data, below, h, hhollow⟩)
    | behind h => exact Or.inr (Or.inr ⟨i, data, below, h, hhollow⟩)
  · rintro (hhollow | ⟨i, data, below, h, hhollow⟩ | ⟨i, data, below, h, hhollow⟩)
    · exact ⟨id, d, c, .here n, hhollow⟩
    · exact ⟨i, data, below, .inside h, hhollow⟩
    · exact ⟨i, data, below, .behind h, hhollow⟩

/-- A text is not hollow, and nothing stands in it. -/
lemma hasHollow_text (id : NodeId) (t : Text) (n : Forest) :
    (node id (.text t) nil n).HasHollow ↔ n.HasHollow := by
  rw [hasHollow_node]
  simp [NodeData.Hollow, not_hasHollow_nil]

/-! ## What normalizing shows -/

/-- Nothing is left exactly of empty texts. -/
lemma normalizeRun_eq_nil_iff :
    (normalizeRun run f).1 = nil ↔ run = none ∧ ∀ e ∈ f.row, e.2 = .text [] := by
  induction run, f using normalizeRun_induction with
  | nil run => cases run <;> simp [normalizeRun_nil, closeRun, row]
  | other run id d c n hd ihc ihn =>
    have hne : d ≠ .text [] := by
      rintro rfl
      cases hd
    rw [normalizeRun_of_isElement hd]
    cases run <;> simp [closeRun, row, hne]
  | empty run id c n ih => rw [normalizeRun_text_nil, ih, row, List.forall_mem_cons, eq_self, true_and]
  | first id t c n ht ih => simp [normalizeRun_text_first ht, ih, row, ht]
  | next kept before id t c n ht ih => simp [normalizeRun_text_next ht, ih]

lemma write_node (id : NodeId) (d : NodeData) (c n : Forest) :
    (node id d c n).write style raw = (node id d c nil).write style raw ++ n.write style raw := by
  rw [← write_append, node_append, nil_append]

lemma write_closeRun (run : Option (NodeId × Text)) (f : Forest) :
    (closeRun run f).write style raw = (closeRun run nil).write style raw ++ f.write style raw := by
  cases run with
  | none => rfl
  | some kept => exact write_node kept.1 (.text kept.2) nil f

/-- The markup of an open run and of the text that joins it. -/
lemma write_joined (kept id : NodeId) (before t : Text) (n : Forest) :
    (closeRun (some (kept, before ++ t)) nil).write style raw ++ n.write style raw =
      (closeRun (some (kept, before)) nil).write style raw ++ (node id (.text t) nil n).write style raw := by
  simp only [closeRun, write_text]
  cases raw <;> simp [write]

/-- What becomes of markup: it stays the same where nothing is hollow, and gets shorter otherwise. -/
def LosesTags (hollow : Prop) (before after : Text) : Prop :=
  ¬ hollow ∧ after = before ∨ hollow ∧ after.length < before.length

lemma LosesTags.append {p q : Prop} {before after before' after' : Text} (h : LosesTags p before after)
    (h' : LosesTags q before' after') : LosesTags (p ∨ q) (before ++ before') (after ++ after') := by
  rcases h with ⟨hp, rfl⟩ | ⟨hp, h⟩ <;> rcases h' with ⟨hq, rfl⟩ | ⟨hq, h'⟩
  · exact Or.inl ⟨not_or.2 ⟨hp, hq⟩, rfl⟩
  all_goals
    -- one of the two parts gets shorter, and the other one not longer
    refine Or.inr ⟨by simp [hp, hq], ?_⟩
    simp only [List.length_append]
    omega

lemma LosesTags.append_left {p : Prop} {before after : Text} (h : LosesTags p before after) (s : Text) :
    LosesTags p (s ++ before) (s ++ after) := by
  have hkept : LosesTags False s s := Or.inl ⟨not_false, rfl⟩
  simpa using hkept.append h

lemma LosesTags.append_right {p : Prop} {before after : Text} (h : LosesTags p before after) (s : Text) :
    LosesTags p (before ++ s) (after ++ s) := by
  have hkept : LosesTags False s s := Or.inl ⟨not_false, rfl⟩
  simpa using h.append hkept

lemma isLoneTag_iff (hstyle : style.voidHidesChildren = false) (tag : String) (c : Forest) :
    isLoneTag style tag c = true ↔ voidTags.contains tag = true ∧ c = nil := by
  cases c <;> simp [isLoneTag, hstyle, isEmpty]

/-- An element whose children are normalized loses its end tag when it is hollow. -/
lemma losesTags_element (hstyle : style.voidHidesChildren = false) (id : NodeId) (tag : String)
    (attributes : List (String × Text))
    (hc : ∀ raw, LosesTags c.HasHollow (c.write style raw) ((normalizeRun none c).1.write style raw)) :
    LosesTags ((NodeData.element tag attributes).Hollow c.row ∨ c.HasHollow)
      ((node id (.element tag attributes) c nil).write style raw)
      ((node id (.element tag attributes) (normalizeRun none c).1 nil).write style raw) := by
  have hempty : (normalizeRun none c).1 = nil ↔ ∀ e ∈ c.row, e.2 = .text [] := by
    simp [normalizeRun_eq_nil_iff]
  by_cases hnil : c = nil
  · subst hnil
    exact Or.inl ⟨by simp [NodeData.Hollow, row, not_hasHollow_nil], rfl⟩
  have hbare : isLoneTag style tag c = false := by
    rw [Bool.eq_false_iff, Ne, isLoneTag_iff hstyle]
    exact fun h => hnil h.2
  have hrow : c.row ≠ [] := by
    cases c with
    | nil => exact absurd rfl hnil
    | node => simp [row]
  by_cases hlost : isLoneTag style tag (normalizeRun none c).1 = true
  · obtain ⟨hvoid, hleft⟩ := (isLoneTag_iff hstyle tag _).1 hlost
    refine Or.inr ⟨Or.inl ⟨⟨tag, attributes, rfl, hvoid⟩, hrow, hempty.1 hleft⟩, ?_⟩
    simp only [write, hbare, hlost, Bool.false_eq_true, if_false, if_true, List.length_append, endTag,
      List.length_cons]
    omega
  · have hnot : ¬ (NodeData.element tag attributes).Hollow c.row := by
      rintro ⟨⟨_, _, heq, hvoid⟩, -, hrow⟩
      cases heq
      exact hlost ((isLoneTag_iff hstyle tag _).2 ⟨hvoid, hempty.2 hrow⟩)
    simp only [hnot, false_or, write, hbare, hlost, Bool.false_eq_true, if_false, List.append_nil]
    exact ((hc _).append_left _).append_right _

/-- **The markup of a normalized forest.** It is that of the run before it and of the forest where nothing in
the forest is hollow, and is shorter otherwise. -/
lemma losesTags_normalizeRun (hstyle : style.voidHidesChildren = false) (hf : f.Proper)
    (run : Option (NodeId × Text)) (raw : Bool) :
    LosesTags f.HasHollow ((closeRun run nil).write style raw ++ f.write style raw)
      ((normalizeRun run f).1.write style raw) := by
  induction run, f using normalizeRun_induction generalizing raw with
  | nil run => exact Or.inl ⟨not_hasHollow_nil, by simp [normalizeRun_nil, write]⟩
  | other run id d c n hd ihc ihn =>
    have hnode : LosesTags (d.Hollow c.row ∨ c.HasHollow) ((node id d c nil).write style raw)
        ((node id d (normalizeRun none c).1 nil).write style raw) := by
      cases d with
      | text t => cases hd
      | element tag attributes => exact losesTags_element hstyle id tag attributes (ihc hf.2.1)
      | comment t =>
        obtain rfl := hf.1.resolve_left (by simp [NodeData.isElement, NodeData.tag?])
        exact Or.inl ⟨by simp [NodeData.Hollow, not_hasHollow_nil], rfl⟩
    rw [hasHollow_node, ← or_assoc, normalizeRun_of_isElement hd, write_node id d c,
      write_closeRun run (node id d _ _), write_node id d (normalizeRun none c).1]
    exact (hnode.append (ihn hf.2.2 raw)).append_left _
  | empty run id c n ih =>
    obtain rfl := (Has.here n).eq_nil_of_text hf
    rw [hasHollow_text, normalizeRun_text_nil, write_text]
    simpa using ih hf.2.2 raw
  | first id t c n ht ih =>
    obtain rfl := (Has.here n).eq_nil_of_text hf
    rw [hasHollow_text, normalizeRun_text_first ht, write_node]
    exact ih hf.2.2 raw
  | next kept before id t c n ht ih =>
    obtain rfl := (Has.here n).eq_nil_of_text hf
    rw [hasHollow_text, normalizeRun_text_next ht, ← write_joined]
    exact ih hf.2.2 raw

lemma write_normalize_iff (hstyle : style.voidHidesChildren = false) (hf : f.Proper) (raw : Bool) :
    f.normalize.write style raw = f.write style raw ↔ ¬ f.HasHollow := by
  rcases losesTags_normalizeRun hstyle hf none raw with ⟨hnone, hsame⟩ | ⟨hsome, hshorter⟩
  · exact iff_of_true hsame hnone
  · refine iff_of_false (fun hsame => ?_) (not_not.2 hsome)
    exact absurd (congrArg List.length hsame) (Nat.ne_of_lt hshorter)

end Forest

namespace Document

variable {d : Document} {data : NodeData} {children : Forest}

/-- A node is an element that has no end tag, in which stand children and none but empty texts. -/
def IsHollow (d : Document) (p : NodeId) : Prop :=
  ∃ data, d.data? p = some data ∧ data.Hollow (d.siblings p)

lemma isHollow_of_has (h : d.WellFormed) {p : NodeId} {c : Forest} (hhas : Has p data c d.forest) :
    d.IsHollow p ↔ data.Hollow c.row := by
  rw [IsHollow, data?, hhas.data? h.nodup, siblings_of_has h hhas]
  simp

lemma hasHollow_iff (h : d.WellFormed) {attributes : List (String × Text)}
    (hbody : Has body (.element "body" attributes) children d.forest) :
    children.HasHollow ↔ ∃ p, d.forest.isWithin p body = true ∧ d.IsHollow p := by
  constructor
  · rintro ⟨p, data, c, hhas, hhollow⟩
    exact ⟨p, (hbody.isWithin_iff h.nodup).2 (Or.inr hhas.mem_ids),
      (isHollow_of_has h (hbody.trans hhas)).2 hhollow⟩
  · rintro ⟨p, hin, hhollow⟩
    rcases (hbody.isWithin_iff h.nodup).1 hin with rfl | hbelow
    · -- the body itself has an end tag
      obtain ⟨⟨_, _, heq, hvoid⟩, -⟩ := (isHollow_of_has h hbody).1 hhollow
      cases heq
      exact absurd hvoid (by decide)
    · obtain ⟨data, c, hhas⟩ := Forest.exists_has_of_mem_ids hbelow
      exact ⟨p, data, c, hhas, (isHollow_of_has h (hbody.trans hhas)).1 hhollow⟩

end Document

namespace Session

variable {s : Session}

/-- A pass that converts nothing leaves the normalized children of the body. -/
lemma has_body_idle_pass (h : s.document.WellFormed) (hhead : s.document.HeadApart) (index : Nat)
    (e : Engine) (hidle : (s.pass index e).1.counts.total = 0) {data : NodeData} {children : Forest}
    (hbody : Has Document.body data children s.document.forest) :
    Has Document.body data children.normalize (s.pass index e).2.document.forest := by
  have hbody' := Document.has_body_normalize h hbody
  have hwell := (Document.follows_normalize h).wellFormed
  have hsame := document_convert_idle index e hidle
  have hforest := pass_forest index e s
  rw [host_eq_refusing] at hsame hforest
  rw [← hsame] at hbody' hwell
  rcases ensure_refusing e.settings.sheet hwell with hensured | hensured
  · rwa [hforest, hensured]
  · -- the style rules go elsewhere
    have hbody'' := hbody'.appendTo hwell.nodup (show Document.body ≠ Document.head by decide)
      (Document.styleTree
        (convertDocument (refusing (lockedBy e.refusals) e.refusals) e.settings.grammar e.settings.layout
          s).2.document.fresh e.settings.sheet.id e.settings.sheet.css)
    rw [Forest.appendTo_of_not_mem (head_not_mem_normalize (hbody.proper h.proper).2
      ((headApart_iff h hbody).1 hhead))] at hbody''
    rwa [hforest, hensured]

/-- **A pass that converts nothing.** After any run, and whatever texts are locked for the engine, a pass that
counts no equation leaves the markup of the body as it is exactly when nothing in the body is hollow, as long as
the head, where the style rules go, does not stand below the body. -/
theorem innerMarkup_idle_pass_iff (loading : Bool) (commands : List Command) (index : Nat) (e : Engine) :
    let s := run loading commands
    s.document.forest.isWithin Document.head Document.body = false →
      (s.pass index e).1.counts.total = 0 →
        ((s.pass index e).2.document.innerMarkup Document.body = s.document.innerMarkup Document.body ↔
          ∀ p, s.document.forest.isWithin p Document.body = true → ¬ s.document.IsHollow p) := by
  intro s hhead hidle
  have h : s.document.WellFormed := (sound_run loading commands).wellFormed
  obtain ⟨attributes, children, hbody⟩ := h.exists_has_body
  have hbody' := has_body_idle_pass h hhead index e hidle hbody
  have hwell := (follows_pass h index e).document.wellFormed
  rw [Document.innerMarkup, Document.innerMarkup, Forest.innerMarkup, Forest.innerMarkup,
    hbody'.find? hwell.nodup, hbody.find? h.nodup]
  show children.normalize.write Document.markupStyle _ = children.write Document.markupStyle _ ↔ _
  rw [Forest.write_normalize_iff rfl (hbody.proper h.proper).2, Document.hasHollow_iff h hbody]
  simp

/-- A paragraph with two texts, the second of them empty. -/
def spacedParagraph : List Command :=
  [.build .standard {} [], .appendElement Document.body "p", .appendText 3 "x".toList, .appendText 3 []]

/-- Normalizing takes the empty text away, which markup does not show. -/
theorem innerMarkup_idle_pass_paragraph :
    let s := run false spacedParagraph
    ∃ e, s.engine? 0 = some e ∧ s.document.forest.isWithin Document.head Document.body = false ∧
      (s.pass 0 e).1.counts.total = 0 ∧
      (s.pass 0 e).2.document.innerMarkup Document.body = s.document.innerMarkup Document.body := by
  obtain ⟨e, he, hidle⟩ : ∃ e, (run false spacedParagraph).engine? 0 = some e ∧
      ((run false spacedParagraph).pass 0 e).1.counts.total = 0 := ⟨_, rfl, by decide +kernel⟩
  have hhead : (run false spacedParagraph).document.forest.isWithin Document.head Document.body = false := by
    decide
  refine ⟨e, he, hhead, hidle, (innerMarkup_idle_pass_iff false spacedParagraph 0 e hhead hidle).2 ?_⟩
  -- no element at all is without an end tag
  have hends : ∀ e ∈ (run false spacedParagraph).document.forest.entries, ∀ tag ∈ e.2.tag?,
      voidTags.contains tag = false := by decide
  rintro p - ⟨data, hdata, ⟨tag, attributes, rfl, hvoid⟩, -⟩
  have hmem := (Forest.data?_eq_some_iff (sound_run false spacedParagraph).wellFormed.nodup).1 hdata
  rw [hends _ hmem tag rfl] at hvoid
  cases hvoid

/-- An element that has no end tag, with an empty text in it. -/
def filledBreak : List Command :=
  [.build .standard {} [], .appendElement Document.body "br", .appendText 3 []]

/-- The pass converts nothing, and the end tag goes. -/
theorem end_tag_lost :
    let s := run false filledBreak
    ∃ e, s.engine? 0 = some e ∧ e.refusals = {} ∧
      s.document.forest.isWithin Document.head Document.body = false ∧
      (s.pass 0 e).1.counts.total = 0 ∧
      s.document.innerMarkup Document.body = "<br></br>".toList ∧
      (s.pass 0 e).2.document.innerMarkup Document.body = "<br>".toList := by
  exact ⟨_, rfl, rfl, by decide, by decide +kernel, by decide, by decide +kernel⟩

end Session

end MarkedMath
