import MarkedMath.Proofs.Runs

/-!
# Invariants of documents

What the operations on the nodes of a document keep holds of the document in every session: engines, their
passes, observers and the end of loading reach the nodes through these operations only.
-/

namespace MarkedMath

namespace Document

/-- No operation on the nodes breaks the property, which does not look at anything but the nodes. -/
structure Invariant (P : Document → Prop) : Prop where
  of_forest : ∀ d d', P d → d'.forest = d.forest → d'.fresh = d.fresh → P d'
  createElement : ∀ d tag, P d → P (d.createElement tag).2
  createText : ∀ d data, P d → P (d.create (.text data)).2
  createComment : ∀ d data, P d → P (d.create (.comment data)).2
  appendChild : ∀ d d' parent child, P d → d.appendChild parent child = .ok d' → P d'
  insertBefore : ∀ d d' parent child reference, P d →
    d.insertBefore parent child reference = .ok d' → P d'
  remove : ∀ d d' id, P d → d.remove id = .ok d' → P d'
  setAttribute : ∀ d d' id name value, P d → d.setAttribute id name value = .ok d' → P d'
  removeAttribute : ∀ d id name, P d → P (d.removeAttribute id name)
  normalize : ∀ d, P d → P d.normalize
  replaceText : ∀ d d' id specs, P d → d.replaceText id specs = .ok d' → P d'

namespace Invariant

variable {P : Document → Prop} {d d' : Document} {id parent : NodeId} (hP : Invariant P)
include hP

lemma appendNew {data : NodeData} (h : P (d.create data).2) : P (d.appendNew parent data).2 :=
  appendNew_keeps h fun _ => hP.appendChild _ _ _ _ h

lemma addClass (h : P d) {name : Text} (hok : d.addClass id name = .ok d') : P d' := by
  rw [Document.addClass] at hok
  split at hok
  · obtain rfl := by simpa using hok
    exact h
  · exact hP.setAttribute _ _ _ _ _ h hok

lemma removeClass (h : P d) {name : Text} (hok : d.removeClass id name = .ok d') : P d' := by
  rw [Document.removeClass] at hok
  split at hok
  · obtain rfl := by simpa using hok
    exact h
  · exact hP.setAttribute _ _ _ _ _ h hok

lemma setBodyClass (h : P d) {name : Text} {enabled : Bool} (hok : d.setBodyClass name enabled = .ok d') :
    P d' := by
  rw [Document.setBodyClass] at hok
  split at hok
  · exact hP.addClass h hok
  · exact hP.removeClass h hok

lemma insertStyle (h : P d) {name css : String} (hok : d.insertStyle name css = .ok d') : P d' := by
  obtain ⟨d₂, d₃, hset, htext, happend⟩ := steps_of_insertStyle hok
  have h₂ := hP.setAttribute _ _ _ _ _ (hP.createElement d _ h) hset
  exact hP.appendChild _ _ _ _ (hP.appendChild _ _ _ _ (hP.createText d₂ _ h₂) htext) happend

end Invariant

end Document

namespace Session

open Document (Invariant)

variable {P : Document → Prop} {s : Session}

lemma document_attempt (h : P s.document) {outcome : Except HostError Document}
    (hok : ∀ d, outcome = .ok d → P d) : P (s.attempt outcome).document := by
  cases outcome with
  | error e => exact h
  | ok d => exact hok d rfl

lemma document_withEngine (h : P s.document) (index : Nat) {act : Engine → Session → Session}
    (hact : ∀ e, P (act e s).document) : P (s.withEngine index act).document := by
  rw [withEngine]
  split
  · next e _ => exact hact e
  · exact h

lemma document_foldl {α : Type} {step : Session → α → Session}
    (hstep : ∀ s a, P s.document → P (step s a).document) (l : List α) (h : P s.document) :
    P (l.foldl step s).document := by
  induction l generalizing s with
  | nil => exact h
  | cons a l ih => exact ih (hstep s a h)

variable (hP : Invariant P)
include hP

lemma invariant_settle (h : P s.document) (index : Nat) : P (settle index s).document := by
  rw [settle]
  split
  · exact hP.of_forest _ _ h rfl rfl
  · exact h

lemma invariant_pass (h : P s.document) (index : Nat) (e : Engine) : P (s.pass index e).2.document := by
  refine runPass_keeps (P := fun s : Session => P s.document) ⟨fun _ h => hP.normalize _ h, fun _ h => h,
    fun id specs s h => ?_, fun id css s h => ?_, fun _ _ h => h⟩ (fun t ht => ?_)
    (fun _ h => invariant_settle hP h index) h
  · simp only [host]
    split
    · exact h
    · exact document_attempt h fun d hok => hP.replaceText _ _ _ _ h hok
  · simp only [host]
    split
    · exact h
    · exact document_attempt h fun d hok => hP.insertStyle h hok
  · obtain ⟨scripted, -, rfl⟩ := List.mem_map.1 ht
    exact ⟨fun _ h => h, fun _ _ h => h⟩

lemma invariant_announceReady (h : P s.document) (listener : Listener) :
    P (s.announceReady listener).document := by
  cases listener with
  | script name => exact h
  | engine index =>
    simp only [announceReady]
    split
    · next e _ => exact invariant_pass hP (s := s.log .documentReady) h index e
    · exact h

lemma invariant_onReady (h : P s.document) (listener : Listener) : P (s.onReady listener).document := by
  rw [onReady]
  split
  · next d hd =>
    rw [Document.await?] at hd
    split at hd
    · obtain rfl := by simpa using hd
      exact hP.of_forest _ _ h rfl rfl
    · simp at hd
  · exact invariant_announceReady hP h listener

lemma invariant_finishLoading (h : P s.document) : P s.finishLoading.document := by
  refine document_foldl (fun _ listener h => invariant_announceReady hP h listener) _ ?_
  show P s.document.finishLoading.2
  rw [Document.finishLoading]
  split
  · exact hP.of_forest _ _ h rfl rfl
  · exact h

lemma invariant_notify (h : P s.document) (batch : Listener × List NodeId) :
    P (s.notify batch).document := by
  obtain ⟨listener, nodes⟩ := batch
  cases listener with
  | script name => exact h
  | engine index =>
    simp only [notify]
    split
    · next e _ =>
      split
      · exact invariant_pass hP (s := s.log .contentDetected) h index e
      · exact h
    · exact h

lemma invariant_deliver (h : P s.document) : P s.deliver.2.document :=
  document_foldl (fun _ batch h => invariant_notify hP h batch) _ (hP.of_forest _ _ h rfl rfl)

lemma invariant_setDebug (h : P s.document) (e : Engine) (enabled : Bool) :
    P (setDebug e enabled s).2.document := by
  cases hr : e.refusals.bodyClass with
  | some refusal =>
    simp only [setDebug, hr]
    exact h
  | none =>
    have hperform := document_attempt h fun d
        (hd : s.document.setBodyClass e.settings.debugClass.toList enabled = .ok d) => hP.setBodyClass h hd
    simp only [setDebug, hr]
    split
    · next s' heq => rwa [attempt, heq] at hperform
    · exact hperform

lemma invariant_watch (h : P s.document) (index : Nat) (e : Engine) : P (watch index e s).2.document := by
  rw [watch]
  split
  · exact h
  · exact h
  · exact hP.of_forest _ _ h rfl rfl

/-- No command breaks an invariant of documents. -/
lemma invariant_exec (h : P s.document) (command : Command) : P (s.exec command).document := by
  cases command with
  | createElement tag => exact hP.createElement _ _ h
  | createText data => exact hP.createText _ _ h
  | createComment data => exact hP.createComment _ _ h
  | append parent child => exact document_attempt h fun d hd => hP.appendChild _ _ _ _ h hd
  | insertBefore parent child reference =>
    exact document_attempt h fun d hd => hP.insertBefore _ _ _ _ _ h hd
  | appendElement parent tag => exact hP.appendNew (hP.createElement _ tag h)
  | appendText parent data => exact hP.appendNew (hP.createText _ data h)
  | remove node => exact document_attempt h fun d hd => hP.remove _ _ _ h hd
  | setAttribute node name value => exact document_attempt h fun d hd => hP.setAttribute _ _ _ _ _ h hd
  | removeAttribute node name => exact hP.removeAttribute _ _ _ h
  | addClass node name => exact document_attempt h fun d hd => hP.addClass h hd
  | removeClass node name => exact document_attempt h fun d hd => hP.removeClass h hd
  | setBodyClass name enabled => exact document_attempt h fun d hd => hP.setBodyClass h hd
  | normalize => exact hP.normalize _ h
  | replaceText node specs => exact document_attempt h fun d hd => hP.replaceText _ _ _ _ h hd
  | insertStyle id css => exact document_attempt h fun d hd => hP.insertStyle h hd
  | observe name => exact hP.of_forest _ _ h rfl rfl
  | takeRecords observer => exact hP.of_forest _ _ h rfl rfl
  | deliver => exact invariant_deliver hP h
  | finishLoading => exact invariant_finishLoading hP h
  | onReady name => exact invariant_onReady hP h _
  | build settings refusals typesetters => exact h
  | start index => exact document_withEngine h index fun e => invariant_onReady hP h _
  | process index => exact document_withEngine h index fun e => invariant_pass hP h index e
  | reprocess index =>
    exact document_withEngine h index fun e => invariant_pass hP (s := s.log .reprocessing) h index e
  | debug index enabled => exact document_withEngine h index fun e => invariant_setDebug hP h e enabled
  | watch index => exact document_withEngine h index fun e => invariant_watch hP h index e
  | retain index => exact h
  | release index => exact h

/-- What the operations on nodes keep holds after every run. -/
theorem invariant_run (hstart : ∀ loading, P (.empty loading)) (loading : Bool) (commands : List Command) :
    P (run loading commands).document :=
  document_foldl (fun _ command h => invariant_exec hP h command) commands (hstart loading)

end Session

end MarkedMath
