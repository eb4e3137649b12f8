import MarkedMath.Proofs.Insertions
import MarkedMath.Proofs.Refusals

/-!
# Turns and what occurs in them

In a turn a command is given, or a document changes its mind about what it refuses to an engine. A turn may
make any number of passes, of any engines: when loading ends and when observers are told of insertions,
engines act one after the other, each in the session that the one before it left. `Session.occurrences` lists
the passes that a turn makes and the batches that engines are told of in it, each pass with the session in
which it begins. The list is complete: it has a pass for every one that an engine counts
(`Session.passesOf_turns`).
-/

namespace MarkedMath

/-- What may happen to a session next. -/
inductive Turn where
  /-- A command is given. -/
  | command (command : Command)
  /-- From now on other things are refused to an engine. -/
  | refuse (engine : Nat) (refusals : Refusals)

/-- A pass that is made in a session. -/
structure PassMade where
  /-- The session in which it begins. -/
  session : Session
  /-- The number of the engine that makes it. -/
  index : Nat
  /-- The engine. -/
  engine : Engine

/-- The session that the pass leaves. -/
def PassMade.after (p : PassMade) : Session :=
  (p.session.pass p.index p.engine).2

/-- What occurs in a turn as far as engines are concerned. -/
inductive Occurrence where
  /-- An engine is told of inserted nodes. -/
  | told (engine : Nat) (nodes : List Inserted)
  /-- An engine makes a pass. -/
  | passed (pass : PassMade)

namespace Occurrence

/-- Whether an engine makes a pass. -/
def isPassOf (index : Nat) : Occurrence → Bool
  | told _ _ => false
  | passed p => p.index = index

/-- Whether an engine is told of a node in which one of the patterns is mentioned. -/
def wakes (index : Nat) (patterns : List Text) : Occurrence → Bool
  | told i nodes => i = index && batchQualifies patterns nodes
  | passed _ => false

end Occurrence

namespace Session

/-- The session after a turn. -/
def turn (s : Session) : Turn → Session
  | .command command => s.exec command
  | .refuse index refusals => s.modifyEngine index fun e => { e with refusals }

/-- What each step shows of the session in which it is taken, for steps taken one after the other. -/
def along {α β : Type} (step : Session → α → Session) (shown : Session → α → List β) :
    List α → Session → List β
  | [], _ => []
  | a :: l, s => shown s a ++ along step shown l (step s a)

/-- The pass of an engine, as long as there are handles to it. -/
def passBy (index : Nat) (s : Session) : List Occurrence :=
  match s.engine? index with
  | some e => [.passed ⟨s, index, e⟩]
  | none => []

/-- What occurs when a listener is told that the document is ready. -/
def announced (s : Session) : Listener → List Occurrence
  | .script _ => []
  | .engine index => (s.log .documentReady).passBy index

/-- What occurs when a listener is told of inserted nodes. -/
def notified (s : Session) (batch : Listener × List NodeId) : List Occurrence :=
  let nodes := batch.2.map s.document.snapshot
  match batch.1 with
  | .script _ => []
  | .engine index =>
    .told index nodes ::
      match s.engine? index with
      | some e =>
        if batchQualifies e.settings.grammar.watchPatterns nodes then
          [.passed ⟨s.log .contentDetected, index, e⟩]
        else []
      | none => []

/-- What occurs in a turn. -/
def occurrences (s : Session) : Turn → List Occurrence
  | .command .deliver =>
    along notify notified s.document.takeBatches.1 { s with document := s.document.takeBatches.2 }
  | .command .finishLoading =>
    along announceReady announced s.document.finishLoading.1
      { s with document := s.document.finishLoading.2 }
  | .command (.start index) => if s.document.loading then [] else s.announced (.engine index)
  | .command (.process index) => s.passBy index
  | .command (.reprocess index) => (s.log .reprocessing).passBy index
  | _ => []

/-- The session after turns. -/
def turns (s : Session) (l : List Turn) : Session :=
  l.foldl turn s

/-- What occurs in turns. -/
def occurring (s : Session) (l : List Turn) : List Occurrence :=
  along turn occurrences l s

/-- The passes that an engine has made. -/
def passesOf (s : Session) (index : Nat) : Nat :=
  (s.engines[index]?.map Engine.passes).getD 0

variable {s s' : Session} {index : Nat}

lemma along_append {α β : Type} (step : Session → α → Session) (shown : Session → α → List β)
    (l l' : List α) (s : Session) :
    along step shown (l ++ l') s = along step shown l s ++ along step shown l' (l.foldl step s) := by
  induction l generalizing s with
  | nil => rfl
  | cons a l ih => simp only [List.cons_append, along, ih, List.foldl_cons, List.append_assoc]

lemma turns_concat (s : Session) (l : List Turn) (t : Turn) : s.turns (l ++ [t]) = (s.turns l).turn t :=
  List.foldl_concat ..

lemma occurring_concat (s : Session) (l : List Turn) (t : Turn) :
    s.occurring (l ++ [t]) = s.occurring l ++ (s.turns l).occurrences t := by
  rw [occurring, along_append]
  simp [occurring, along, turns]

/-- What is shown along a fold is of a sort, when it is in every step from a session in which a property
holds that the steps keep. -/
lemma forall_along {α β : Type} {P : Session → Prop} {q : β → Prop} {step : Session → α → Session}
    {shown : Session → α → List β} (hstep : ∀ s a, P s → P (step s a))
    (hshown : ∀ s a, P s → ∀ b ∈ shown s a, q b) (l : List α) {s : Session} (h : P s) :
    ∀ b ∈ along step shown l s, q b := by
  induction l generalizing s with
  | nil => exact fun b hb => absurd hb List.not_mem_nil
  | cons a l ih =>
    intro b hb
    rcases List.mem_append.1 hb with hb | hb
    · exact hshown s a h b hb
    · exact ih (hstep s a h) b hb

/-- A number that grows in every step by what the step shows grows along a fold by all that is shown. -/
lemma add_countP_along {α β : Type} (m : Session → Nat) {p : β → Bool} {step : Session → α → Session}
    {shown : Session → α → List β} (hstep : ∀ s a, m (step s a) = m s + (shown s a).countP p) (l : List α)
    (s : Session) : m (l.foldl step s) = m s + (along step shown l s).countP p := by
  induction l generalizing s with
  | nil => rfl
  | cons a l ih => rw [List.foldl_cons, ih, hstep, along, List.countP_append, Nat.add_assoc]

end Session

/-! ## Loading -/

namespace Document

variable {d d' : Document} {id : NodeId}

/-- Whether loading is still to end, and who waits for it. -/
def gate (d : Document) : Bool × List Listener :=
  (d.loading, d.waiting)

@[simp] lemma gate_noteInsertions (d : Document) (parent : NodeId) (nodes : List NodeId) :
    (d.noteInsertions parent nodes).gate = d.gate := by
  rw [noteInsertions]
  split <;> rfl

lemma gate_insert {operation : String} {parent child : NodeId} {reference : Option NodeId}
    (hok : d.insert operation parent child reference = .ok d') : d'.gate = d.gate := by
  rw [insert] at hok
  split at hok
  · simp at hok
  · obtain rfl := by simpa using hok
    exact gate_noteInsertions ..

lemma gate_appendNew (d : Document) (parent : NodeId) (data : NodeData) :
    (d.appendNew parent data).2.gate = d.gate :=
  appendNew_keeps (P := fun d' => d'.gate = d.gate) rfl fun _ hok => gate_insert (d := (d.create data).2) hok

lemma gate_remove (hok : d.remove id = .ok d') : d'.gate = d.gate := by
  rw [remove] at hok
  split at hok
  · simp at hok
  · obtain rfl := by simpa using hok
    rfl

lemma gate_setAttribute {name : String} {value : Text} (hok : d.setAttribute id name value = .ok d') :
    d'.gate = d.gate := by
  rw [setAttribute] at hok
  split at hok
  · obtain rfl := by simpa using hok
    rfl
  · simp at hok

lemma gate_addClass {name : Text} (hok : d.addClass id name = .ok d') : d'.gate = d.gate := by
  rw [addClass] at hok
  split at hok
  · obtain rfl := by simpa using hok
    rfl
  · exact gate_setAttribute hok

lemma gate_removeClass {name : Text} (hok : d.removeClass id name = .ok d') : d'.gate = d.gate := by
  rw [removeClass] at hok
  split at hok
  · obtain rfl := by simpa using hok
    rfl
  · exact gate_setAttribute hok

lemma gate_setBodyClass {name : Text} {enabled : Bool} (hok : d.setBodyClass name enabled = .ok d') :
    d'.gate = d.gate := by
  rw [setBodyClass] at hok
  split at hok
  · exact gate_addClass hok
  · exact gate_removeClass hok

lemma gate_replaceText {specs : List NodeSpec} (hok : d.replaceText id specs = .ok d') :
    d'.gate = d.gate := by
  rw [replaceText] at hok
  split at hok
  · simp at hok
  · obtain rfl := by simpa using hok
    exact gate_noteInsertions ..

lemma gate_insertStyle {name css : String} (hok : d.insertStyle name css = .ok d') : d'.gate = d.gate := by
  obtain ⟨d₂, d₃, hset, htext, happend⟩ := steps_of_insertStyle hok
  calc d'.gate = d₃.gate := gate_insert happend
    _ = d₂.gate := gate_insert (d := (d₂.create (.text css.toList)).2) htext
    _ = (d.createElement "style").2.gate := gate_setAttribute hset

end Document

namespace Session

variable {s s' : Session} {index : Nat}

lemma gate_attempt {outcome : Except HostError Document}
    (hok : ∀ d, outcome = .ok d → d.gate = s.document.gate) :
    (s.attempt outcome).document.gate = s.document.gate := by
  cases outcome with
  | error e => rfl
  | ok d => exact hok d rfl

lemma gate_settle (index : Nat) (s : Session) : (settle index s).document.gate = s.document.gate := by
  rw [settle]
  split <;> rfl

lemma gate_pass (index : Nat) (e : Engine) (s : Session) :
    (s.pass index e).2.document.gate = s.document.gate := by
  refine runPass_keeps (P := fun s' : Session => s'.document.gate = s.document.gate)
    ⟨fun _ h => h, fun _ h => h, fun id specs s' h => ?_, fun id css s' h => ?_, fun _ _ h => h⟩
    (fun t ht => ?_) (fun s' h => (gate_settle index s').trans h) rfl
  · simp only [host]
    split
    · exact h
    · exact (gate_attempt fun d => Document.gate_replaceText).trans h
  · simp only [host]
    split
    · exact h
    · exact (gate_attempt fun d => Document.gate_insertStyle).trans h
  · obtain ⟨scripted, -, rfl⟩ := List.mem_map.1 ht
    exact ⟨fun _ h => h, fun _ _ h => h⟩

/-! ## Engines -/

lemma engines_attempt (outcome : Except HostError Document) (s : Session) :
    (s.attempt outcome).engines = s.engines := by
  cases outcome <;> rfl

/-- Showing identifiers changes at most the classes of the body. -/
lemma setDebug_cases (e : Engine) (enabled : Bool) (s : Session) :
    (setDebug e enabled s).2 = s ∨
      ∃ d, s.document.setBodyClass e.settings.debugClass.toList enabled = .ok d ∧
        (setDebug e enabled s).2 = { s with document := d }.log (.debugMode enabled) := by
  cases hr : e.refusals.bodyClass with
  | some refusal =>
    left
    simp only [setDebug, hr]
    rfl
  | none =>
    cases hset : s.document.setBodyClass e.settings.debugClass.toList enabled with
    | error e =>
      left
      simp only [setDebug, hr, hset]
      rfl
    | ok d =>
      right
      refine ⟨d, rfl, ?_⟩
      simp only [setDebug, hr, hset]
      rfl

lemma getElem?_modifyEngine (index i : Nat) (change : Engine → Engine) (s : Session) :
    (s.modifyEngine index change).engines[i]? =
      s.engines[i]?.map fun e => if index = i then change e else e := by
  rw [modifyEngine, List.getElem?_modify]
  cases s.engines[i]? <;> rfl

lemma passesOf_eq_of_engines (h : s'.engines = s.engines) (index : Nat) :
    s'.passesOf index = s.passesOf index := by
  rw [passesOf, passesOf, h]

lemma passesOf_modifyEngine (i index : Nat) {change : Engine → Engine}
    (hchange : ∀ e, (change e).passes = e.passes) :
    (s.modifyEngine i change).passesOf index = s.passesOf index := by
  rw [passesOf, passesOf, getElem?_modifyEngine]
  cases s.engines[index]? with
  | none => rfl
  | some e =>
    simp only [Option.map_some, Option.getD_some]
    split
    · exact hchange e
    · rfl

lemma passesOf_pass {i : Nat} {e : Engine} (he : s.engine? i = some e) (index : Nat) :
    (s.pass i e).2.passesOf index = s.passesOf index + if i = index then 1 else 0 := by
  have hindex := engines_of_engine? he
  rw [passesOf, passesOf, pass_engines, List.getElem?_modify]
  by_cases hi : i = index
  · subst hi
    simp [hindex]
  · cases s.engines[index]? <;> simp [hi]

/-! ## Plain commands -/

end Session

/-- A command that neither tells listeners of anything nor asks anything of engines but to show
identifiers. -/
def Command.isPlain : Command → Bool
  | .deliver | .finishLoading | .onReady _ | .build _ _ _ | .start _ | .process _ | .reprocess _
  | .watch _ | .retain _ | .release _ => false
  | _ => true

namespace Session

variable {s s' : Session} {index : Nat}

/-- A plain command concerns no engine, and not who waits for the end of loading. -/
lemma exec_plain {command : Command} (h : command.isPlain = true) (s : Session) :
    (s.exec command).engines = s.engines ∧ (s.exec command).document.gate = s.document.gate := by
  cases command with
  | createElement | createText | createComment | removeAttribute | normalize | observe | takeRecords =>
    exact ⟨rfl, rfl⟩
  | append => exact ⟨engines_attempt _ s, gate_attempt fun d => Document.gate_insert⟩
  | insertBefore => exact ⟨engines_attempt _ s, gate_attempt fun d => Document.gate_insert⟩
  | appendElement | appendText => exact ⟨rfl, Document.gate_appendNew _ _ _⟩
  | remove => exact ⟨engines_attempt _ s, gate_attempt fun d => Document.gate_remove⟩
  | setAttribute => exact ⟨engines_attempt _ s, gate_attempt fun d => Document.gate_setAttribute⟩
  | addClass => exact ⟨engines_attempt _ s, gate_attempt fun d => Document.gate_addClass⟩
  | removeClass => exact ⟨engines_attempt _ s, gate_attempt fun d => Document.gate_removeClass⟩
  | setBodyClass => exact ⟨engines_attempt _ s, gate_attempt fun d => Document.gate_setBodyClass⟩
  | replaceText => exact ⟨engines_attempt _ s, gate_attempt fun d => Document.gate_replaceText⟩
  | insertStyle => exact ⟨engines_attempt _ s, gate_attempt fun d => Document.gate_insertStyle⟩
  | debug i enabled =>
    simp only [Session.exec, withEngine]
    split
    · next e _ =>
      rcases setDebug_cases e enabled s with heq | ⟨d, hset, heq⟩
      · rw [heq]
        exact ⟨rfl, rfl⟩
      · rw [heq]
        exact ⟨rfl, Document.gate_setBodyClass hset⟩
    · exact ⟨rfl, rfl⟩
  | deliver | finishLoading | onReady | build | start | process | reprocess | watch | retain | release =>
    cases h

/-- Nothing occurs when a plain command is given. -/
lemma occurrences_plain {command : Command} (h : command.isPlain = true) (s : Session) :
    s.occurrences (.command command) = [] := by
  cases command <;> first | rfl | cases h

/-! ## Where passes begin -/

lemma eq_of_passed_mem_passBy {p : PassMade} {i : Nat} (h : .passed p ∈ s.passBy i) : ∃ e, p = ⟨s, i, e⟩ := by
  rw [passBy] at h
  split at h
  · next e _ => exact ⟨e, Occurrence.passed.inj (List.mem_singleton.1 h)⟩
  · cases h

lemma eq_of_passed_mem_announced {p : PassMade} {listener : Listener} (h : .passed p ∈ s.announced listener) :
    ∃ i e, p = ⟨s.log .documentReady, i, e⟩ := by
  cases listener with
  | script name => cases h
  | engine i => exact ⟨i, eq_of_passed_mem_passBy h⟩

lemma eq_of_passed_mem_notified {p : PassMade} {batch : Listener × List NodeId}
    (h : .passed p ∈ s.notified batch) : ∃ i e, p = ⟨s.log .contentDetected, i, e⟩ := by
  obtain ⟨listener, nodes⟩ := batch
  cases listener with
  | script name => cases h
  | engine i =>
    rcases List.mem_cons.1 h with heq | h
    · cases heq
    · split at h
      · next e _ =>
        split at h
        · exact ⟨i, e, Occurrence.passed.inj (List.mem_singleton.1 h)⟩
        · cases h
      · cases h

/-! ## Passes are counted -/

lemma countP_passBy (i index : Nat) (s : Session) :
    (s.passBy i).countP (Occurrence.isPassOf index) =
      if (s.engine? i).isSome ∧ i = index then 1 else 0 := by
  rw [passBy]
  cases s.engine? i with
  | none => rfl
  | some e => simp [Occurrence.isPassOf, List.countP_singleton]

/-- An engine makes a pass, perhaps after it wrote a record. -/
lemma passesOf_withEngine (s s' : Session) (h : s'.engines = s.engines) (i index : Nat) :
    (s.withEngine i fun e _ => (s'.pass i e).2).passesOf index =
      s.passesOf index + (s'.passBy i).countP (Occurrence.isPassOf index) := by
  have hengine : s'.engine? i = s.engine? i := by rw [engine?, engine?, h]
  rw [countP_passBy, withEngine, hengine, ← passesOf_eq_of_engines h]
  cases he : s.engine? i with
  | none => rw [passesOf_eq_of_engines h]; rfl
  | some e => simpa using passesOf_pass (hengine.trans he) index

lemma passesOf_announceReady (s : Session) (listener : Listener) :
    (s.announceReady listener).passesOf index =
      s.passesOf index + (s.announced listener).countP (Occurrence.isPassOf index) := by
  cases listener with
  | script name => rfl
  | engine i => exact passesOf_withEngine s (s.log .documentReady) rfl i index

lemma passesOf_notify (s : Session) (batch : Listener × List NodeId) :
    (s.notify batch).passesOf index =
      s.passesOf index + (s.notified batch).countP (Occurrence.isPassOf index) := by
  obtain ⟨listener, nodes⟩ := batch
  cases listener with
  | script name => rfl
  | engine i =>
    simp only [notify, notified, List.countP_cons, Occurrence.isPassOf]
    cases he : s.engine? i with
    | none => rfl
    | some e =>
      dsimp only
      split
      · rw [passesOf_pass (s := s.log .contentDetected) he]
        simp [List.countP_singleton, Occurrence.isPassOf]
        rfl
      · rfl

lemma passesOf_onReady (s : Session) (i : Nat) :
    (s.onReady (.engine i)).passesOf index = s.passesOf index +
      (if s.document.loading then [] else s.announced (.engine i)).countP (Occurrence.isPassOf index) := by
  rw [onReady, Document.await?]
  cases s.document.loading with
  | true => rfl
  | false => exact passesOf_announceReady s (.engine i)

/-- An engine counts exactly the passes that a turn shows of it. -/
lemma passesOf_turn (index : Nat) (s : Session) (t : Turn) : (s.turn t).passesOf index =
    s.passesOf index + (s.occurrences t).countP (Occurrence.isPassOf index) := by
  cases t with
  | refuse i refusals => exact passesOf_modifyEngine i index fun _ => rfl
  | command command =>
    by_cases hplain : command.isPlain = true
    · rw [occurrences_plain hplain]
      exact passesOf_eq_of_engines (exec_plain hplain s).1 index
    cases command with
    | deliver => exact add_countP_along (fun s => s.passesOf index) (fun s => passesOf_notify s) _ _
    | finishLoading =>
      exact add_countP_along (fun s => s.passesOf index) (fun s => passesOf_announceReady s) _ _
    | process i => exact passesOf_withEngine s s rfl i index
    | reprocess i => exact passesOf_withEngine s (s.log .reprocessing) rfl i index
    | start i =>
      simp only [turn, Session.exec, withEngine]
      cases he : s.engine? i with
      | some e => exact passesOf_onReady s i
      | none =>
        -- an engine without handles makes no pass
        have hnone : (s.log .documentReady).engine? i = none := he
        simp only [occurrences, announced, passBy, hnone]
        split <;> rfl
    | watch i =>
      simp only [turn, Session.exec, withEngine, occurrences]
      split
      · rw [watch]
        split
        · rfl
        · rfl
        · exact passesOf_modifyEngine i index fun _ => rfl
      · rfl
    | retain i => exact passesOf_modifyEngine i index fun _ => rfl
    | release i => exact passesOf_modifyEngine i index fun _ => rfl
    | build settings refusals typesetters =>
      -- a new engine has made no pass
      simp only [turn, Session.exec, build, occurrences, passesOf]
      rcases Nat.lt_trichotomy index s.engines.length with hlt | rfl | hgt
      · rw [List.getElem?_append_left hlt]
        rfl
      · simp
      · rw [List.getElem?_eq_none (by simp; omega), List.getElem?_eq_none (by omega)]
        rfl
    | onReady name =>
      refine passesOf_eq_of_engines ?_ index
      simp only [turn, Session.exec, onReady]
      split <;> rfl
    | _ => exact absurd rfl hplain

/-- What occurs in turns has a pass for every one that an engine counts. -/
lemma passesOf_turns (index : Nat) (s : Session) (l : List Turn) : (s.turns l).passesOf index =
    s.passesOf index + (s.occurring l).countP (Occurrence.isPassOf index) :=
  add_countP_along (fun s => s.passesOf index) (passesOf_turn index) l s

end Session

end MarkedMath
