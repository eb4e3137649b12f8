import Mathlib.Data.List.Flatten
import MarkedMath.Proofs.Numbering
import MarkedMath.Proofs.SecondPass

/-!
# Classes of an element

The classes of an element are the words of its `class` attribute. Taking a class away leaves all others as they
are. Adding a class trims the attribute before it puts the class behind it, so the other classes stay as they
are exactly when no white space stands at their two ends (`Text.Trimmed`); blanks cannot stand there, but other
white space can.

Showing and hiding the identifiers of equations, in any order, adds the debug class to the body and takes it
away. What one call does is said by `Document.setBodyClass_cases`; by induction over the calls, the other classes
are kept as long as no call has to add the class or they are trimmed (`Session.debugCalls_cases`).
-/

namespace MarkedMath

open Text (IsWord Trimmed words unwords trim)

lemma Forest.Has.modify {f c : Forest} {id : NodeId} {data : NodeData} (change : NodeData → NodeData)
    (hf : f.ids.Nodup) (h : Has id data c f) : Has id (change data) c (f.modify id change) := by
  induction h with
  | here n =>
    rw [Forest.modify, if_pos rfl]
    exact .here n
  | @inside i e c' n h ih =>
    obtain ⟨hi, -, hc, -, -⟩ := nodup_ids_node hf
    have hne : i ≠ id := fun he => hi (he ▸ h.mem_ids)
    rw [Forest.modify, if_neg hne]
    exact .inside (ih hc)
  | @behind i e c' n h ih =>
    obtain ⟨-, hi, -, hn, -⟩ := nodup_ids_node hf
    have hne : i ≠ id := fun he => hi (he ▸ h.mem_ids)
    rw [Forest.modify, if_neg hne]
    exact .behind (ih hn)

lemma NodeData.attribute?_setAttribute (tag name : String) (value : Text) (attributes : List (String × Text)) :
    (element tag (setAttribute name value attributes)).attribute? name = some value := by
  simp only [attribute?, NodeData.attributes]
  induction attributes with
  | nil => simp [setAttribute]
  | cons a rest ih =>
    rw [setAttribute]
    split
    · next hname => simp [hname]
    · next hname => rw [List.find?_cons_of_neg (by simpa using hname), ih]

namespace Document

/-- The classes of a node: the words of its `class` attribute. -/
def classesOf (d : Document) (id : NodeId) : List Text :=
  ((d.data? id).map NodeData.classes).getD []

variable {d d' : Document} {id : NodeId} {tag : String} {attributes : List (String × Text)} {name : Text}

lemma classesOf_eq (d : Document) (id : NodeId) :
    d.classesOf id = words ((d.attribute? id "class").getD []) := by
  rw [classesOf, attribute?]
  cases d.data? id with
  | none => rfl
  | some data =>
    rw [Option.map_some, Option.getD_some, Option.bind_some, NodeData.classes]
    cases data.attribute? "class" <;> rfl

lemma hasClass_iff : d.hasClass id name = true ↔ name ∈ d.classesOf id := by
  rw [hasClass, classesOf]
  cases d.data? id <;> simp

/-- The classes of an element are set through its `class` attribute. -/
lemma setAttribute_class (h : d.WellFormed) (hid : d.data? id = some (.element tag attributes)) (value : Text) :
    ∃ d' attributes', d.setAttribute id "class" value = .ok d' ∧ d'.WellFormed ∧
      d'.data? id = some (.element tag attributes') ∧ d'.classesOf id = words value := by
  obtain ⟨c, hhas⟩ := Forest.exists_has ((Forest.data?_eq_some_iff h.nodup).1 hid)
  have hok : d.setAttribute id "class" value = .ok { d with
      forest := d.forest.modify id fun _ => .element tag (NodeData.setAttribute "class" value attributes) } := by
    rw [setAttribute, hid]
  have hwell := (follows_setAttribute h hok).wellFormed
  have hdata := (hhas.modify (fun _ => .element tag (NodeData.setAttribute "class" value attributes))
    h.nodup).data? hwell.nodup
  refine ⟨_, _, hok, hwell, hdata, ?_⟩
  rw [classesOf_eq, attribute?, data?, hdata, Option.bind_some, NodeData.attribute?_setAttribute,
    Option.getD_some]

/-- What adding a class does. -/
lemma addClass_spec (h : d.WellFormed) (hid : d.data? id = some (.element tag attributes)) (hname : IsWord name) :
    ∃ d' attributes' value, d.addClass id name = .ok d' ∧ d'.WellFormed ∧
      d'.data? id = some (.element tag attributes') ∧ words value = d.classesOf id ∧
      d'.classesOf id = if name ∈ d.classesOf id then d.classesOf id else words (trim value) ++ [name] := by
  obtain ⟨value, hvalue⟩ : ∃ value, value = (d.attribute? id "class").getD [] := ⟨_, rfl⟩
  have hclasses : words value = d.classesOf id := by rw [classesOf_eq, hvalue]
  by_cases hin : name ∈ d.classesOf id
  · simp only [if_pos hin]
    exact ⟨d, attributes, value, if_pos (hasClass_iff.2 hin), h, hid, hclasses, rfl⟩
  · obtain ⟨d', attributes', hok, hwell, hdata, hset⟩ := setAttribute_class h hid
      (if (trim value).isEmpty then name else trim value ++ ' ' :: name)
    simp only [if_neg hin]
    refine ⟨d', attributes', value, ?_, hwell, hdata, hclasses, hset.trans ?_⟩
    · rw [addClass, if_neg (mt hasClass_iff.1 hin), ← hvalue]
      exact hok
    · split
      · next hempty => rw [List.isEmpty_iff.1 hempty, hname.words_eq]; rfl
      · rw [Text.words_append_blank (by decide), hname.words_eq]

/-- Taking a class away leaves the others. -/
lemma removeClass_spec (h : d.WellFormed) (hid : d.data? id = some (.element tag attributes)) (name : Text) :
    ∃ d' attributes', d.removeClass id name = .ok d' ∧ d'.WellFormed ∧
      d'.data? id = some (.element tag attributes') ∧
      d'.classesOf id = (d.classesOf id).filter fun w => w ≠ name := by
  rw [removeClass, classesOf_eq]
  cases hvalue : d.attribute? id "class" with
  | none =>
    refine ⟨d, attributes, rfl, h, hid, ?_⟩
    rw [classesOf_eq, hvalue]
    rfl
  | some value =>
    obtain ⟨d', attributes', hok, hwell, hdata, hset⟩ := setAttribute_class h hid
      (unwords ((words value).filter fun w => w ≠ name))
    refine ⟨d', attributes', hok, hwell, hdata, hset.trans (Text.words_unwords fun w hw => ?_)⟩
    exact Text.isWord_of_mem_words (List.mem_of_mem_filter hw)

/-! ## One class of the body -/

/-- The classes of the body but for one. -/
def otherClasses (d : Document) (name : Text) : List Text :=
  (d.classesOf body).filter fun w => w ≠ name

lemma otherClasses_of_not_mem (h : name ∉ d.classesOf body) : d.otherClasses name = d.classesOf body :=
  List.filter_eq_self.2 fun _ hw => decide_eq_true fun he => h (he ▸ hw)

/-- What becomes of the other classes: they are kept when they are trimmed or the class does not have to be
added, and lose characters otherwise. -/
def KeepsOthers (d d' : Document) (name : Text) (added : Bool) : Prop :=
  d'.otherClasses name = d.otherClasses name ∧ (added = true → Trimmed (d.otherClasses name)) ∨
    (d'.otherClasses name).flatten.length < (d.otherClasses name).flatten.length ∧ added = true ∧
      ¬ Trimmed (d.otherClasses name)

lemma KeepsOthers.eq_iff {added : Bool} (h : d.KeepsOthers d' name added) :
    d'.otherClasses name = d.otherClasses name ↔ added = false ∨ Trimmed (d.otherClasses name) := by
  rcases h with ⟨hsame, htrimmed⟩ | ⟨hshorter, hadded, hnot⟩
  · cases added <;> simp_all
  · refine iff_of_false (fun hsame => ?_) (by simp [hadded, hnot])
    exact absurd (congrArg (fun ws => ws.flatten.length) hsame) (Nat.ne_of_lt hshorter)

lemma KeepsOthers.trans {d'' : Document} {added added' : Bool} (h : d.KeepsOthers d' name added)
    (h' : d'.KeepsOthers d'' name added') : d.KeepsOthers d'' name (added || added') := by
  rcases h with ⟨hsame, htrimmed⟩ | ⟨hshorter, hadded, hnot⟩
  · rw [KeepsOthers, hsame] at h'
    rcases h' with ⟨hsame', htrimmed'⟩ | ⟨hshorter', hadded', hnot'⟩
    · refine Or.inl ⟨hsame', fun hany => ?_⟩
      rcases Bool.or_eq_true_iff.1 hany with hadded | hadded'
      · exact htrimmed hadded
      · exact htrimmed' hadded'
    · exact Or.inr ⟨hshorter', by simp [hadded'], hnot'⟩
  · refine Or.inr ⟨?_, by simp [hadded], hnot⟩
    rcases h' with ⟨hsame', -⟩ | ⟨hshorter', -⟩
    · rwa [hsame']
    · exact hshorter'.trans hshorter

/-- What adding a class to the body or taking it away does. -/
lemma setBodyClass_spec (h : d.WellFormed) (hname : IsWord name) (enabled : Bool) :
    ∃ d', d.setBodyClass name enabled = .ok d' ∧ d'.WellFormed ∧
      (name ∈ d'.classesOf body ↔ enabled = true) ∧
      d.KeepsOthers d' name (enabled && !decide (name ∈ d.classesOf body)) := by
  obtain ⟨attributes, children, hbody⟩ := h.exists_has_body
  have hid := hbody.data? h.nodup
  cases enabled with
  | false =>
    obtain ⟨d', attributes', hok, hwell, -, hclasses⟩ := removeClass_spec h hid name
    refine ⟨d', hok, hwell, by simp [hclasses], Or.inl ⟨?_, by simp⟩⟩
    rw [otherClasses, otherClasses, hclasses, List.filter_filter]
    simp
  | true =>
    obtain ⟨d', attributes', value, hok, hwell, -, hvalue, hclasses⟩ := addClass_spec h hid hname
    refine ⟨d', hok, hwell, ?_, ?_⟩
    · rw [hclasses]
      split <;> simp [*]
    by_cases hin : name ∈ d.classesOf body
    · rw [if_pos hin] at hclasses
      exact Or.inl ⟨by rw [otherClasses, otherClasses, hclasses], by simp [hin]⟩
    · rw [if_neg hin] at hclasses
      have hothers : d'.otherClasses name = (words (trim value)).filter fun w => w ≠ name := by
        rw [otherClasses, hclasses, List.filter_append]
        simp
      rw [KeepsOthers, hothers, otherClasses_of_not_mem hin, ← hvalue, ← Text.words_trim_iff]
      rcases Text.words_trim_cases value with hsame | hshorter
      · refine Or.inl ⟨?_, fun _ => hsame⟩
        rw [hsame, hvalue]
        exact otherClasses_of_not_mem hin
      · have hfewer : ((words (trim value)).filter fun w => w ≠ name).Sublist (words (trim value)) :=
          List.filter_sublist
        refine Or.inr ⟨hfewer.flatten.length_le.trans_lt hshorter, by simp [hvalue, hin], fun hsame => ?_⟩
        rw [hsame] at hshorter
        exact Nat.lt_irrefl _ hshorter

end Document

/-- Whether one of several calls has to add the class, which is there before them when `carried` holds: it asks
for the class, and the call before it took the class away. -/
def adds (carried : Bool) : List Bool → Bool
  | [] => false
  | enabled :: rest => enabled && !carried || adds enabled rest

namespace Session

/-- Identifiers are shown and hidden several times. -/
def debugCalls (e : Engine) (calls : List Bool) (s : Session) : Session :=
  calls.foldl (fun s enabled => (setDebug e enabled s).2) s

variable {s : Session} {e : Engine}

/-- What one call does to the body. -/
lemma setDebug_spec (h : s.document.WellFormed) (hr : e.refusals.bodyClass = none) (enabled : Bool) :
    (setDebug e enabled s).1 = .ok () ∧ (setDebug e enabled s).2.document.WellFormed ∧
      (e.settings.debugClass.toList ∈ (setDebug e enabled s).2.document.classesOf Document.body ↔
        enabled = true) ∧
      s.document.KeepsOthers (setDebug e enabled s).2.document e.settings.debugClass.toList
        (enabled && !decide (e.settings.debugClass.toList ∈ s.document.classesOf Document.body)) := by
  obtain ⟨d, hok, hspec⟩ := Document.setBodyClass_spec h e.settings.isWord_debugClass enabled
  have hset : setDebug e enabled s = (.ok (), { s with document := d }.log (.debugMode enabled)) := by
    simp only [setDebug, hr, hok]
    rfl
  rw [hset]
  exact ⟨rfl, hspec⟩

/-- What any number of calls does to the other classes of the body. -/
lemma debugCalls_spec (hr : e.refusals.bodyClass = none) (calls : List Bool) (h : s.document.WellFormed) :
    (s.debugCalls e calls).document.WellFormed ∧
      s.document.KeepsOthers (s.debugCalls e calls).document e.settings.debugClass.toList
        (adds (decide (e.settings.debugClass.toList ∈ s.document.classesOf Document.body)) calls) := by
  -- the call before decides whether the class is there, so the calls to come are told by it
  induction calls generalizing s with
  | nil => exact ⟨h, Or.inl ⟨rfl, by simp [adds]⟩⟩
  | cons enabled calls ih =>
    obtain ⟨-, hwell, hcarried, hkept⟩ := setDebug_spec h hr enabled
    obtain ⟨hwell', hkept'⟩ := ih hwell
    have hlast : decide (e.settings.debugClass.toList ∈
        (setDebug e enabled s).2.document.classesOf Document.body) = enabled := by simp [hcarried]
    rw [hlast] at hkept'
    exact ⟨hwell', hkept.trans hkept'⟩

/-- **Class edits.** In every run, taking a class away from an element leaves the other classes as they are, and
adding one puts it behind them, exactly when it was there or the classes are trimmed. After any calls of an engine
the body carries the debug class exactly when the last call showed identifiers, and its other classes are what
they were exactly when no call had to add the class or they are trimmed. No call is refused. -/
theorem class_edits_iff (loading : Bool) (commands : List Command) :
    let s := run loading commands
    let d := s.document
    (∀ id tag attributes name, d.data? id = some (.element tag attributes) → IsWord name →
      (∃ added, d.addClass id name = .ok added ∧
        (added.classesOf id = d.classesOf id ++ (if name ∈ d.classesOf id then [] else [name]) ↔
          name ∈ d.classesOf id ∨ Trimmed (d.classesOf id))) ∧
      ∃ removed, d.removeClass id name = .ok removed ∧
        removed.classesOf id = (d.classesOf id).filter fun w => w ≠ name) ∧
    ∀ (e : Engine) (calls : List Bool) (enabled : Bool), e.refusals.bodyClass = none →
      let name := e.settings.debugClass.toList
      let last := setDebug e enabled (s.debugCalls e calls)
      last.1 = .ok () ∧
        (name ∈ last.2.document.classesOf Document.body ↔ enabled = true) ∧
        (last.2.document.otherClasses name = d.otherClasses name ↔
          adds (decide (name ∈ d.classesOf Document.body)) (calls ++ [enabled]) = false ∨
            Trimmed (d.otherClasses name)) := by
  intro s d
  have h : d.WellFormed := (sound_run loading commands).wellFormed
  constructor
  · intro id tag attributes name hid hname
    constructor
    · obtain ⟨added, attributes', value, hok, -, -, hvalue, hclasses⟩ := Document.addClass_spec h hid hname
      refine ⟨added, hok, ?_⟩
      rw [hclasses, ← hvalue, ← Text.words_trim_iff]
      split
      · next hin => simp [hin]
      · next hin => simp [hin]
    · obtain ⟨removed, attributes', hok, -, -, hclasses⟩ := Document.removeClass_spec h hid name
      exact ⟨removed, hok, hclasses⟩
  · intro e calls enabled hr name last
    obtain ⟨hwell, -⟩ := debugCalls_spec hr calls h
    obtain ⟨hok, -, hcarried, -⟩ := setDebug_spec hwell hr enabled
    obtain ⟨-, hkept⟩ := debugCalls_spec hr (calls ++ [enabled]) h
    have hlast : s.debugCalls e (calls ++ [enabled]) = last.2 := List.foldl_concat ..
    rw [hlast] at hkept
    exact ⟨hok, hcarried, hkept.eq_iff⟩

/-- A body with two classes, with other white space inside one of them and blanks around them. -/
def spacedBody : List Command :=
  [.build .standard {} [], .setAttribute Document.body "class" "\tx\u00a0y  z ".toList]

/-- The two classes are kept whatever is done. -/
theorem class_edits_spaced :
    let s := run false spacedBody
    let d := s.document
    ∃ e, s.engine? 0 = some e ∧ e.refusals.bodyClass = none ∧
      (∃ attributes, d.data? Document.body = some (.element "body" attributes)) ∧ IsWord "b".toList ∧
      (∃ added, d.addClass Document.body "b".toList = .ok added ∧
        added.classesOf Document.body = ["x\u00a0y".toList, "z".toList, "b".toList]) ∧
      let after := (setDebug e true (s.debugCalls e [true, false])).2.document
      e.settings.debugClass.toList ∈ after.classesOf Document.body ∧
        after.otherClasses e.settings.debugClass.toList = ["x\u00a0y".toList, "z".toList] := by
  intro s d
  obtain ⟨e, he, hr, hname⟩ : ∃ e, s.engine? 0 = some e ∧ e.refusals.bodyClass = none ∧
      e.settings.debugClass = "debug-equations" := ⟨_, rfl, rfl, rfl⟩
  obtain ⟨attributes, hid⟩ : ∃ attributes, d.data? Document.body = some (.element "body" attributes) :=
    ⟨_, rfl⟩
  have hclasses : d.classesOf Document.body = ["x\u00a0y".toList, "z".toList] := by decide
  have hword : IsWord "b".toList := ⟨by decide, by simp [Text.isBlank]⟩
  have htrimmed : Trimmed ["x\u00a0y".toList, "z".toList] := by
    constructor
    · rintro c hc
      obtain rfl : 'x' = c := by simpa using hc
      decide
    · rintro c hc
      obtain rfl : 'z' = c := by simpa using hc
      decide
  have hothers : d.otherClasses e.settings.debugClass.toList = ["x\u00a0y".toList, "z".toList] := by
    rw [Document.otherClasses, hclasses, hname]
    decide
  obtain ⟨hedits, hcalls⟩ := class_edits_iff false spacedBody
  obtain ⟨⟨added, hok, hadded⟩, -⟩ := hedits Document.body "body" attributes "b".toList hid hword
  obtain ⟨-, hcarried, hkept⟩ := hcalls e [true, false] true hr
  refine ⟨e, he, hr, ⟨attributes, hid⟩, hword, ⟨added, hok, ?_⟩, hcarried.2 rfl, ?_⟩
  · rw [hadded.2 (Or.inr (hclasses ▸ htrimmed)), hclasses]
    decide
  · rw [hkept.2 (Or.inr (hothers ▸ htrimmed)), hothers]

/-- White space in front of a class is lost, and the class with it. -/
theorem class_lost :
    let d := (run false [.setAttribute Document.body "class" "\u00a0a".toList]).document
    (∃ attributes, d.data? Document.body = some (.element "body" attributes)) ∧ IsWord "b".toList ∧
      d.classesOf Document.body = ["\u00a0a".toList] ∧
      ∃ added, d.addClass Document.body "b".toList = .ok added ∧
        added.classesOf Document.body = ["a".toList, "b".toList] := by
  exact ⟨⟨_, rfl⟩, ⟨by decide, by simp [Text.isBlank]⟩, by decide, _, rfl, by decide⟩

end Session

end MarkedMath
