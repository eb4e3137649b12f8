import MarkedMath.Proofs.Html.Places
import MarkedMath.Proofs.Serialized

/-!
# Documents in fragments

A document that was written from a forest is cut where the forest is: into its texts and its tags. Of each text
two things count: whether a reader takes it for data, which depends on the tags in front of it, and whether it
is shown, that is, stands outside skipped elements. A conversion of the document converts the texts of the
first kind (`outcome_write`), and a pass over the forest those of the second (`writeConverted_eq`).
-/

namespace MarkedMath.Html

/-- A text or a tag of a document as it is written. -/
structure Fragment where
  /-- The text or the tag. -/
  written : Text
  /-- Whether it is a text that is read as data. -/
  asData : Bool := false
  /-- Whether it is a text outside skipped elements. -/
  shown : Bool := false
  deriving DecidableEq, Repr

/-- Fragments with the chosen ones converted, one after the other, numbered on from `counts`. -/
def Fragment.convertAll (g : Grammar) (l : Layout) (chosen : Fragment → Bool) :
    Counts → List Fragment → Text × Counts
  | counts, [] => ([], counts)
  | counts, x :: rest =>
    let (written, counts) := if chosen x then g.convert l counts x.written else (x.written, counts)
    let (others, counts) := convertAll g l chosen counts rest
    (written ++ others, counts)

/-- The fragments of a written forest, read from a place on, and the place behind it. `shown` and `raw` tell
whether an element around the forest is skipped and whether its texts are written as they are. -/
def fragments (p : Place) (shown raw : Bool) : Forest → Except AmbiguousTag (List Fragment × Place)
  | .nil => .ok ([], p)
  | .node _ data children next =>
    match data with
    | .text t =>
      (fragments p shown raw next).map fun (others, p') =>
        ({ written := if raw then t else escapeText t, asData := p.mode = .data, shown } :: others, p')
    | .comment t =>
      (fragments p shown raw next).map fun (others, p') =>
        ({ written := "<!--".toList ++ t ++ "-->".toList } :: others, p')
    | .element tag attributes => do
      let inside ← p.behindStart tag attributes
      let (inner, behind) ← fragments inside (shown && !skippedTags.contains tag)
        (Document.markupStyle.rawTags.contains tag) children
      let (others, p') ← fragments (behind.behindStop tag) shown raw next
      return ({ written := Forest.startTag Document.markupStyle tag attributes } :: inner ++
        { written := Forest.endTag tag } :: others, p')

/-- Forests whose markup is read back as they are: the names of elements are in small letters and none of
them is that of a head or of an element without content, the names of attributes are proper, texts that are
written as they are hold no `<`, and there are no comments. -/
def Readable (raw : Bool) : Forest → Prop
  | .nil => True
  | .node _ data children next =>
    (match data with
      | .text t => raw = true → '<' ∉ t
      | .comment _ => False
      | .element tag attributes =>
        (IsElementName tag ∧ tag ≠ "head" ∧ tag ∉ voidTags ∧ ∀ a ∈ attributes, IsAttributeName a.1) ∧
          Readable (Document.markupStyle.rawTags.contains tag) children) ∧
      Readable raw next

instance decidableReadable (raw : Bool) : (f : Forest) → Decidable (Readable raw f)
  | .nil => isTrue trivial
  | .node _ (.text t) _ next =>
    have := decidableReadable raw next
    inferInstanceAs (Decidable ((raw = true → '<' ∉ t) ∧ Readable raw next))
  | .node _ (.comment _) _ _ => isFalse fun h => h.1
  | .node _ (.element tag attributes) children next =>
    have := decidableReadable (Document.markupStyle.rawTags.contains tag) children
    have := decidableReadable raw next
    inferInstanceAs (Decidable (((IsElementName tag ∧ tag ≠ "head" ∧ tag ∉ voidTags ∧
      ∀ a ∈ attributes, IsAttributeName a.1) ∧
        Readable (Document.markupStyle.rawTags.contains tag) children) ∧ Readable raw next))

section Fragments

variable {g : Grammar} {l : Layout} {p p' : Place} {f : Forest} {shown raw : Bool} {counts : Counts} {s : Text}
  {xs : List Fragment}

lemma Fragment.convertAll_append (chosen : Fragment → Bool) (counts : Counts) (xs ys : List Fragment) :
    convertAll g l chosen counts (xs ++ ys) =
      ((convertAll g l chosen counts xs).1 ++ (convertAll g l chosen (convertAll g l chosen counts xs).2 ys).1,
        (convertAll g l chosen (convertAll g l chosen counts xs).2 ys).2) := by
  induction xs generalizing counts with
  | nil => rfl
  | cons x xs ih => simp [convertAll, ih]

/-- A chosen fragment is converted. -/
lemma Fragment.convertAll_cons_of {chosen : Fragment → Bool} {x : Fragment} (h : chosen x = true)
    (counts : Counts) (xs : List Fragment) : convertAll g l chosen counts (x :: xs) =
      ((g.convert l counts x.written).1 ++ (convertAll g l chosen (g.convert l counts x.written).2 xs).1,
        (convertAll g l chosen (g.convert l counts x.written).2 xs).2) := by
  simp [convertAll, h]

/-- Other fragments stay. -/
lemma Fragment.convertAll_cons_of_not {chosen : Fragment → Bool} {x : Fragment} (h : chosen x = false)
    (counts : Counts) (xs : List Fragment) : convertAll g l chosen counts (x :: xs) =
      (x.written ++ (convertAll g l chosen counts xs).1, (convertAll g l chosen counts xs).2) := by
  simp [convertAll, h]

/-- The fragments of an element and what stands behind it. -/
lemma exists_of_fragments_element {id : NodeId} {tag : String} {attributes : List (String × Text)}
    {children next : Forest}
    (h : fragments p shown raw (.node id (.element tag attributes) children next) = .ok (xs, p')) :
    ∃ inside inner behind others, p.behindStart tag attributes = .ok inside ∧
      fragments inside (shown && !skippedTags.contains tag) (Document.markupStyle.rawTags.contains tag) children =
        .ok (inner, behind) ∧
      fragments (behind.behindStop tag) shown raw next = .ok (others, p') ∧
      xs = { written := Forest.startTag Document.markupStyle tag attributes } :: inner ++
        { written := Forest.endTag tag } :: others := by
  rw [fragments] at h
  obtain ⟨inside, hinside, h⟩ := exists_of_bind_eq_ok h
  obtain ⟨⟨inner, behind⟩, hinner, h⟩ := exists_of_bind_eq_ok h
  obtain ⟨⟨others, p''⟩, hothers, h⟩ := exists_of_bind_eq_ok h
  obtain ⟨rfl, rfl⟩ := Prod.mk.inj (Except.ok.inj h)
  exact ⟨inside, inner, behind, others, hinside, hinner, hothers, rfl⟩

/-- An element that is not void is written with both tags. -/
lemma write_element_of_readable {tag : String} (hvoid : tag ∉ voidTags) (id : NodeId)
    (attributes : List (String × Text)) (children next : Forest) :
    (Forest.node id (.element tag attributes) children next).write Document.markupStyle raw =
      Forest.startTag Document.markupStyle tag attributes ++
        (children.write Document.markupStyle (Document.markupStyle.rawTags.contains tag) ++
          (Forest.endTag tag ++ next.write Document.markupStyle raw)) := by
  have hlone : Forest.isLoneTag Document.markupStyle tag children = false := by
    simp [Forest.isLoneTag, hvoid]
  simp [Forest.write, hlone]

/-! ## What a reader converts -/

lemma map_behind_map (r : Except AmbiguousTag Outcome) (s t : Text) :
    (r.map (Outcome.behind · t)).map (Outcome.behind · s) = r.map (Outcome.behind · (s ++ t)) := by
  cases r <;> simp [Except.map]

/-- The place behind a forest is like the one in front of it. -/
lemma steady_fragments (hp : p.Steady) (hf : Readable raw f) (h : fragments p shown raw f = .ok (xs, p')) :
    p'.Steady := by
  induction f generalizing p p' shown raw xs with
  | nil =>
    obtain ⟨-, rfl⟩ := Prod.mk.inj (Except.ok.inj h)
    exact hp
  | node id data children next ihc ihn =>
    cases data with
    | comment t => exact hf.1.elim
    | text t =>
      obtain ⟨⟨others, p''⟩, hothers, heq⟩ := exists_of_map_eq_ok h
      obtain ⟨-, rfl⟩ := Prod.mk.inj heq
      exact ihn hp hf.2 hothers
    | element tag attributes =>
      obtain ⟨⟨⟨htag, -⟩, hchildren⟩, hnext⟩ := hf
      obtain ⟨inside, inner, behind, others, hinside, hinner, hothers, -⟩ := exists_of_fragments_element h
      exact ihn ((ihc (hp.behindStart htag hinside) hchildren hinner).behindStop tag) hnext hothers

/-- Behind a text there is markup or nothing. -/
lemma markup_behind_text (hf : Readable raw f) (hnormal : f.NormalFrom true)
    (hs : s = [] ∨ beginsMarkup s = true) :
    f.write Document.markupStyle raw ++ s = [] ∨ beginsMarkup (f.write Document.markupStyle raw ++ s) = true := by
  cases f with
  | nil => exact hs
  | node id data children next =>
    cases data with
    | text t => cases hnormal.1
    | comment t => exact hf.1.elim
    | element tag attributes =>
      obtain ⟨⟨⟨htag, -, hvoid, -⟩, -⟩, -⟩ := hf
      rw [write_element_of_readable hvoid, List.append_assoc]
      exact Or.inr (Place.beginsMarkup_startTag htag attributes _)

/-- **A conversion converts what is read as data.** -/
lemma outcome_write (hp : p.Steady) {behindText : Bool} (hf : Readable raw f) (hproper : f.Proper)
    (hnormal : f.NormalFrom behindText) (hs : s = [] ∨ beginsMarkup s = true) (shown : Bool) (counts : Counts) :
    p.outcome g l counts (f.write Document.markupStyle raw ++ s) =
      (fragments p shown raw f).bind fun (xs, p') =>
        (p'.outcome g l (Fragment.convertAll g l Fragment.asData counts xs).2 s).map
          (Outcome.behind · (Fragment.convertAll g l Fragment.asData counts xs).1) := by
  induction f generalizing p counts s shown raw behindText with
  | nil =>
    show p.outcome g l counts s = (p.outcome g l counts s).map (Outcome.behind · [])
    cases p.outcome g l counts s <;> rfl
  | node id data children next ihc ihn =>
    cases data with
    | comment t => exact hf.1.elim
    | text t =>
      obtain ⟨hraw, hnext⟩ := hf
      obtain ⟨-, hne, hnormal⟩ := hnormal
      obtain ⟨w, hw⟩ : ∃ w, w = if raw then t else escapeText t := ⟨_, rfl⟩
      have hlt : '<' ∉ w := by
        rw [hw]
        split
        · next h => exact hraw h
        · exact not_mem_escapeText (Or.inl rfl) t
      have hwne : w ≠ [] := by
        rw [hw]
        split
        · exact hne
        · exact mt escapeText_eq_nil_iff.1 hne
      have hwritten : (Forest.node id (.text t) children next).write Document.markupStyle raw ++ s =
          w ++ (next.write Document.markupStyle raw ++ s) := by
        rw [Forest.write_text, hw, List.append_assoc]
        rfl
      have hbehind := markup_behind_text hnext hnormal hs
      rw [hwritten, fragments, ← hw]
      by_cases hdata : p.mode = .data
      · rw [Place.outcome_text hdata (hp.label.trans hdata) hwne hlt hbehind,
          ihn hp hnext hproper.2.2 hnormal hs shown]
        cases fragments p shown raw next with
        | error e => rfl
        | ok x =>
          show ((x.2.outcome g l _ s).map _).map _ = (x.2.outcome g l (Fragment.convertAll g l Fragment.asData counts
            (⟨w, decide (p.mode = .data), shown⟩ :: x.1)).2 s).map _
          rw [map_behind_map, Fragment.convertAll_cons_of (decide_eq_true hdata)]
      · rw [Place.outcome_kept_text hp hdata hlt, ihn hp hnext hproper.2.2 hnormal hs shown]
        cases fragments p shown raw next with
        | error e => rfl
        | ok x =>
          show ((x.2.outcome g l _ s).map _).map _ = (x.2.outcome g l (Fragment.convertAll g l Fragment.asData counts
            (⟨w, decide (p.mode = .data), shown⟩ :: x.1)).2 s).map _
          rw [map_behind_map, Fragment.convertAll_cons_of_not (decide_eq_false hdata)]
    | element tag attributes =>
      obtain ⟨⟨⟨htag, hhead, hvoid, hattributes⟩, hchildren⟩, hnext⟩ := hf
      obtain ⟨hinner, hothers⟩ := hnormal
      rw [write_element_of_readable hvoid, List.append_assoc, List.append_assoc, List.append_assoc,
        Place.outcome_startTag hp htag hhead hattributes, fragments]
      cases hinside : p.behindStart tag attributes with
      | error e => rfl
      | ok inside =>
        have hsteady := hp.behindStart htag hinside
        have hsplit := ihc hsteady hchildren hproper.2.1 hinner
          (Or.inr (Place.beginsMarkup_endTag tag (next.write Document.markupStyle raw ++ s)))
          (shown && !skippedTags.contains tag) counts
        simp only [bind, Except.bind, hsplit]
        cases hfragments : fragments inside (shown && !skippedTags.contains tag)
            (Document.markupStyle.rawTags.contains tag) children with
        | error e => rfl
        | ok x =>
          obtain ⟨inner, behind⟩ := x
          have hbehind := steady_fragments hsteady hchildren hfragments
          have hrest := ihn (s := s) (hbehind.behindStop tag) hnext hproper.2.2 hothers hs shown
            (Fragment.convertAll g l Fragment.asData counts inner).2
          simp only [Place.outcome_endTag hbehind htag, hrest]
          cases fragments (behind.behindStop tag) shown raw next with
          | error e => rfl
          | ok y =>
            obtain ⟨others, p'⟩ := y
            simp only [Except.bind, map_behind_map, pure, Except.pure, List.cons_append]
            rw [Fragment.convertAll_cons_of_not rfl, Fragment.convertAll_append, Fragment.convertAll_cons_of_not rfl]

/-! ## What a pass converts -/

/-- Below a skipped element nothing is converted. -/
lemma convertAll_of_not_shown (hf : Readable raw f) (h : fragments p false raw f = .ok (xs, p')) (counts : Counts) :
    Fragment.convertAll g l Fragment.shown counts xs = (f.write Document.markupStyle raw, counts) := by
  induction f generalizing p raw counts xs p' with
  | nil =>
    obtain ⟨rfl, -⟩ := Prod.mk.inj (Except.ok.inj h)
    rfl
  | node id data children next ihc ihn =>
    cases data with
    | comment t => exact hf.1.elim
    | text t =>
      obtain ⟨⟨others, p''⟩, hothers, heq⟩ := exists_of_map_eq_ok h
      obtain ⟨rfl, -⟩ := Prod.mk.inj heq
      rw [Fragment.convertAll_cons_of_not rfl, ihn hf.2 hothers, Forest.write_text]
      rfl
    | element tag attributes =>
      obtain ⟨⟨⟨-, -, hvoid, -⟩, hchildren⟩, hnext⟩ := hf
      obtain ⟨inside, inner, behind, others, -, hinner, hothers, rfl⟩ := exists_of_fragments_element h
      rw [Bool.false_and] at hinner
      rw [List.cons_append, Fragment.convertAll_cons_of_not rfl, Fragment.convertAll_append, ihc hchildren hinner,
        Fragment.convertAll_cons_of_not rfl, ihn hnext hothers, write_element_of_readable hvoid]

/-- A pass converts what is shown. -/
lemma writeConverted_eq (hf : Readable false f) (h : fragments p true false f = .ok (xs, p')) (counts : Counts) :
    f.writeConverted g l counts = Fragment.convertAll g l Fragment.shown counts xs := by
  induction f generalizing p counts xs p' with
  | nil =>
    obtain ⟨rfl, -⟩ := Prod.mk.inj (Except.ok.inj h)
    rfl
  | node id data children next ihc ihn =>
    cases data with
    | comment t => exact hf.1.elim
    | text t =>
      obtain ⟨⟨others, p''⟩, hothers, heq⟩ := exists_of_map_eq_ok h
      obtain ⟨rfl, -⟩ := Prod.mk.inj heq
      simp only [Forest.writeConverted, Fragment.convertAll, if_true, ihn hf.2 hothers]
      rfl
    | element tag attributes =>
      obtain ⟨⟨⟨-, -, hvoid, -⟩, hchildren⟩, hnext⟩ := hf
      obtain ⟨inside, inner, behind, others, -, hinner, hothers, rfl⟩ := exists_of_fragments_element h
      have hlone : Forest.isLoneTag Document.markupStyle tag children = false := by
        simp [Forest.isLoneTag, hvoid]
      rw [List.cons_append, Fragment.convertAll_cons_of_not rfl, Fragment.convertAll_append,
        Fragment.convertAll_cons_of_not rfl, Forest.writeConverted, hlone]
      cases hskipped : skippedTags.contains tag with
      | true =>
        rw [hskipped] at hinner
        simp [convertAll_of_not_shown hchildren hinner, ihn hnext hothers]
      | false =>
        rw [hskipped, isRaw_of_not_isSkipped hskipped] at hinner
        rw [isRaw_of_not_isSkipped hskipped] at hchildren
        simp [ihc hchildren hinner, ihn hnext hothers]

end Fragments

end MarkedMath.Html
