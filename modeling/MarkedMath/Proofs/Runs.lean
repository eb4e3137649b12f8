import MarkedMath.Proofs.Passes

/-!
# Runs of a session

A run is any sequence of commands to a document and to the engines on it, in any order and with any
nodes and engines, refused ones included. What holds of every run is `Session.Sound`: the document is
well-formed, and an engine has an observer exactly where the document has one that tells the engine.
-/

namespace MarkedMath

/-- What can be asked of a session. -/
inductive Command where
  /-- Makes an element. -/
  | createElement (tag : String)
  /-- Makes a text node. -/
  | createText (data : Text)
  /-- Makes a comment. -/
  | createComment (data : Text)
  /-- Moves a node to the end of another one. -/
  | append (parent child : NodeId)
  /-- Moves a node in front of a child of another one. -/
  | insertBefore (parent child reference : NodeId)
  /-- Makes an element at the end of a node. -/
  | appendElement (parent : NodeId) (tag : String)
  /-- Makes a text node at the end of a node. -/
  | appendText (parent : NodeId) (data : Text)
  /-- Takes a node out of its parent. -/
  | remove (node : NodeId)
  /-- Sets an attribute. -/
  | setAttribute (node : NodeId) (name : String) (value : Text)
  /-- Takes an attribute away. -/
  | removeAttribute (node : NodeId) (name : String)
  /-- Adds a class. -/
  | addClass (node : NodeId) (name : Text)
  /-- Takes a class away. -/
  | removeClass (node : NodeId) (name : Text)
  /-- Adds a class to the body or takes it away. -/
  | setBodyClass (name : Text) (enabled : Bool)
  /-- Normalizes the body. -/
  | normalize
  /-- Puts new nodes in the place of a node. -/
  | replaceText (node : NodeId) (specs : List NodeSpec)
  /-- Adds a style element. -/
  | insertStyle (id css : String)
  /-- Adds an observer that only notes what it is told. -/
  | observe (name : String)
  /-- Drops what an observer has not been told of. -/
  | takeRecords (observer : Nat)
  /-- Tells observers of insertions. -/
  | deliver
  /-- Ends loading. -/
  | finishLoading
  /-- Asks to be told of the end of loading. -/
  | onReady (name : String)
  /-- Makes an engine. -/
  | build (settings : CheckedSettings) (refusals : Refusals) (typesetters : List ScriptedTypesetter)
  /-- Has an engine make a pass when the document is ready. -/
  | start (engine : Nat)
  /-- Has an engine make a pass. -/
  | process (engine : Nat)
  /-- Has an engine make a pass over content that was loaded later. -/
  | reprocess (engine : Nat)
  /-- Shows or hides the identifiers of equations. -/
  | debug (engine : Nat) (enabled : Bool)
  /-- Puts the change monitor of an engine in place. -/
  | watch (engine : Nat)
  /-- One more handle to an engine. -/
  | retain (engine : Nat)
  /-- One handle less to an engine. -/
  | release (engine : Nat)

/-- Whether the command brings an observer or an engine. -/
def Command.adds : Command → Bool
  | .observe _ | .build _ _ _ | .watch _ => true
  | _ => false

namespace Session

/-- Runs an operation of the document. -/
def attempt (outcome : Except HostError Document) (s : Session) : Session :=
  (s.perform outcome).2

/-- Has an engine do something, as long as there are handles to it. -/
def withEngine (index : Nat) (act : Engine → Session → Session) (s : Session) : Session :=
  match s.engine? index with
  | some e => act e s
  | none => s

/-- Does what a command asks for. -/
def exec (s : Session) : Command → Session
  | .createElement tag => { s with document := (s.document.createElement tag).2 }
  | .createText data => { s with document := (s.document.create (.text data)).2 }
  | .createComment data => { s with document := (s.document.create (.comment data)).2 }
  | .append parent child => s.attempt (s.document.appendChild parent child)
  | .insertBefore parent child reference =>
    s.attempt (s.document.insertBefore parent child reference)
  | .appendElement parent tag => { s with document := (s.document.appendElement parent tag).2 }
  | .appendText parent data => { s with document := (s.document.appendText parent data).2 }
  | .remove node => s.attempt (s.document.remove node)
  | .setAttribute node name value => s.attempt (s.document.setAttribute node name value)
  | .removeAttribute node name => { s with document := s.document.removeAttribute node name }
  | .addClass node name => s.attempt (s.document.addClass node name)
  | .removeClass node name => s.attempt (s.document.removeClass node name)
  | .setBodyClass name enabled => s.attempt (s.document.setBodyClass name enabled)
  | .normalize => { s with document := s.document.normalize }
  | .replaceText node specs => s.attempt (s.document.replaceText node specs)
  | .insertStyle id css => s.attempt (s.document.insertStyle id css)
  | .observe name => { s with document := (s.document.observe (.script name)).2 }
  | .takeRecords observer => { s with document := s.document.takeRecords observer }
  | .deliver => s.deliver.2
  | .finishLoading => s.finishLoading
  | .onReady name => s.onReady (.script name)
  | .build settings refusals typesetters => (s.build settings refusals typesetters).2
  | .start index => s.withEngine index fun _ => onReady (.engine index)
  | .process index => s.withEngine index fun e s => (s.pass index e).2
  | .reprocess index => s.withEngine index fun e s => ((s.log .reprocessing).pass index e).2
  | .debug index enabled => s.withEngine index fun e s => (setDebug e enabled s).2
  | .watch index => s.withEngine index fun e s => (watch index e s).2
  | .retain index => s.retain index
  | .release index => s.release index

/-- The session after commands on a document without content. -/
def run (loading : Bool) (commands : List Command) : Session :=
  commands.foldl exec (start loading)

/-- What holds after every run. -/
structure Sound (s : Session) : Prop where
  /-- The document is well-formed. -/
  wellFormed : s.document.WellFormed
  /-- The observer of an engine is the one that tells it. -/
  monitors : ∀ observer index, s.document.listeners[observer]? = some (Listener.engine index) ↔
    (s.engines.map Engine.monitor)[index]? = some (some observer)

variable {s s' : Session}

lemma Sound.of_follows (h : s.Sound) (hs : s.Follows s') : s'.Sound where
  wellFormed := hs.document.wellFormed
  monitors observer index := by
    rw [hs.document.listeners_eq, hs.monitors]
    exact h.monitors observer index

/-! ## Commands that keep the observers -/

lemma follows_document {d : Document} (hd : s.document.Follows d) :
    s.Follows { s with document := d } :=
  ⟨hd, rfl⟩

lemma follows_attempt (h : s.document.WellFormed) {outcome : Except HostError Document}
    (hok : ∀ d, outcome = .ok d → s.document.Follows d) : s.Follows (s.attempt outcome) :=
  (Follows.refl h).perform hok

lemma Follows.pass (h : s.Follows s') (index : Nat) (e : Engine) : s.Follows (s'.pass index e).2 :=
  h.trans (follows_pass h.document.wellFormed index e)

lemma Follows.log (h : s.Follows s') (record : Record) : s.Follows (s'.log record) :=
  ⟨h.document, h.monitors⟩

lemma Follows.announceReady (h : s.Follows s') (listener : Listener) :
    s.Follows (s'.announceReady listener) := by
  cases listener with
  | script name => exact ⟨h.document, h.monitors⟩
  | engine index =>
    simp only [Session.announceReady]
    split
    · next e _ => exact (h.log .documentReady).pass index e
    · exact h

lemma Follows.notify (h : s.Follows s') (batch : Listener × List NodeId) :
    s.Follows (s'.notify batch) := by
  obtain ⟨listener, nodes⟩ := batch
  cases listener with
  | script name => exact ⟨h.document, h.monitors⟩
  | engine index =>
    simp only [Session.notify]
    split
    · next e _ =>
      split
      · exact (h.log .contentDetected).pass index e
      · exact h
    · exact h

lemma Follows.foldl {α : Type} {step : Session → α → Session}
    (hstep : ∀ s' a, s.Follows s' → s.Follows (step s' a)) (l : List α) (h : s.Follows s') :
    s.Follows (l.foldl step s') := by
  induction l generalizing s' with
  | nil => exact h
  | cons a l ih => exact ih (hstep s' a h)

lemma follows_deliver (h : s.document.WellFormed) : s.Follows s.deliver.2 :=
  Follows.foldl (fun _ batch h => h.notify batch) _
    (follows_document (Document.follows_takeBatches h))

lemma follows_finishLoading (h : s.document.WellFormed) : s.Follows s.finishLoading := by
  have hd : s.document.Follows s.document.finishLoading.2 := by
    rw [Document.finishLoading]
    split
    · exact ⟨h.of_forest rfl rfl, rfl⟩
    · exact ⟨h, rfl⟩
  exact Follows.foldl (fun _ listener h => h.announceReady listener) _ (follows_document hd)

lemma Follows.onReady (h : s.Follows s') (listener : Listener) :
    s.Follows (s'.onReady listener) := by
  rw [Session.onReady]
  split
  · next d hd =>
    rw [Document.await?] at hd
    split at hd
    · obtain rfl := by simpa using hd
      exact ⟨⟨h.document.wellFormed.of_forest rfl rfl, h.document.listeners_eq⟩, h.monitors⟩
    · simp at hd
  · exact h.announceReady listener

lemma follows_setDebug (h : s.document.WellFormed) (e : Engine) (enabled : Bool) :
    s.Follows (setDebug e enabled s).2 := by
  cases hr : e.refusals.bodyClass with
  | some refusal =>
    simp only [setDebug, hr]
    exact Follows.refl h
  | none =>
    have hperform := follows_attempt h fun d
        (hd : s.document.setBodyClass e.settings.debugClass.toList enabled = .ok d) =>
      Document.follows_setBodyClass h hd
    simp only [setDebug, hr]
    split
    · next s' heq => exact Follows.log (by rwa [attempt, heq] at hperform) _
    · exact hperform

lemma follows_withEngine (h : s.document.WellFormed) (index : Nat) {act : Engine → Session → Session}
    (hact : ∀ e, s.Follows (act e s)) : s.Follows (s.withEngine index act) := by
  rw [withEngine]
  split
  · next e _ => exact hact e
  · exact Follows.refl h

/-! ## Commands that add observers or engines -/

lemma getElem?_concat_eq_some {α : Type} {l : List α} {a b : α} {i : Nat} :
    (l ++ [a])[i]? = some b ↔ l[i]? = some b ∨ i = l.length ∧ a = b := by
  rcases Nat.lt_trichotomy i l.length with hi | rfl | hi
  · rw [List.getElem?_append_left hi]
    simp [Nat.ne_of_lt hi]
  · simp
  · rw [List.getElem?_eq_none (by simp; omega), List.getElem?_eq_none (by omega)]
    simp [Nat.ne_of_gt hi]

lemma Sound.observe (h : s.Sound) (name : String) :
    { s with document := (s.document.observe (.script name)).2 }.Sound where
  wellFormed := h.wellFormed.of_forest rfl rfl
  monitors observer index := by
    rw [← h.monitors observer index]
    simp [Document.observe, Document.listeners, getElem?_concat_eq_some]

lemma Sound.build (h : s.Sound) (settings : CheckedSettings) (refusals : Refusals)
    (typesetters : List ScriptedTypesetter) : (s.build settings refusals typesetters).2.Sound where
  wellFormed := h.wellFormed
  monitors observer index := by
    show s.document.listeners[observer]? = some (Listener.engine index) ↔ _
    rw [h.monitors observer index]
    simp [Session.build, getElem?_concat_eq_some]

lemma engines_of_engine? {index : Nat} {e : Engine} (he : s.engine? index = some e) :
    s.engines[index]? = some e :=
  (Option.filter_eq_some_iff.1 he).1

lemma Sound.watch (h : s.Sound) {index : Nat} {e : Engine} (he : s.engine? index = some e) :
    (watch index e s).2.Sound := by
  rw [Session.watch]
  split
  · exact h
  · exact h
  · next hmonitor _ =>
    have hindex : (s.engines.map Engine.monitor)[index]? = some none := by
      rw [List.getElem?_map, engines_of_engine? he, Option.map_some, hmonitor]
    refine ⟨h.wellFormed.of_forest rfl rfl, fun observer i => ?_⟩
    show (((s.document.observers ++ [Observer.mk (.engine index) []]).map Observer.listener)[observer]? = _) ↔
      ((s.engines.modify index _).map Engine.monitor)[i]? = _
    have hold := h.monitors observer i
    rw [Document.listeners, List.getElem?_map, List.getElem?_map] at hold
    rw [List.getElem?_map] at hindex
    rw [List.map_append, List.map_singleton, getElem?_concat_eq_some, List.length_map,
      List.getElem?_map, List.getElem?_map, List.getElem?_modify, hold]
    by_cases hi : index = i
    · -- the engine had no observer, and gets the last one
      subst hi
      rw [hindex, engines_of_engine? he]
      simp [eq_comm]
    · simp [hi]

/-! ## Every run -/

lemma sound_start (loading : Bool) : (start loading).Sound where
  wellFormed := Document.wellFormed_empty loading
  monitors observer index := by simp [start, Document.listeners, Document.empty]

/-- Neither the observers of the document nor those of the engines change. -/
lemma follows_exec (h : s.document.WellFormed) {command : Command} (hadds : command.adds = false) :
    s.Follows (s.exec command) := by
  cases command with
  | createElement tag => exact follows_document (Document.follows_create h _)
  | createText data => exact follows_document (Document.follows_create h _)
  | createComment data => exact follows_document (Document.follows_create h _)
  | append parent child => exact follows_attempt h fun d hd => Document.follows_insert h hd
  | insertBefore parent child reference => exact follows_attempt h fun d hd => Document.follows_insert h hd
  | appendElement parent tag => exact follows_document (Document.follows_appendNew h parent _)
  | appendText parent data => exact follows_document (Document.follows_appendNew h parent _)
  | remove node => exact follows_attempt h fun d hd => Document.follows_remove h hd
  | setAttribute node name value => exact follows_attempt h fun d hd => Document.follows_setAttribute h hd
  | removeAttribute node name => exact follows_document (Document.follows_removeAttribute h node name)
  | addClass node name => exact follows_attempt h fun d hd => Document.follows_addClass h hd
  | removeClass node name => exact follows_attempt h fun d hd => Document.follows_removeClass h hd
  | setBodyClass name enabled => exact follows_attempt h fun d hd => Document.follows_setBodyClass h hd
  | normalize => exact follows_document (Document.follows_normalize h)
  | replaceText node specs => exact follows_attempt h fun d hd => Document.follows_replaceText h hd
  | insertStyle id css => exact follows_attempt h fun d hd => Document.follows_insertStyle h hd
  | takeRecords observer => exact follows_document (Document.follows_takeRecords h observer)
  | deliver => exact follows_deliver h
  | finishLoading => exact follows_finishLoading h
  | onReady name => exact (Follows.refl h).onReady _
  | start index => exact follows_withEngine h index fun e => (Follows.refl h).onReady _
  | process index =>
    simp only [exec]
    exact follows_withEngine h index fun e => follows_pass h index e
  | reprocess index =>
    simp only [exec]
    exact follows_withEngine h index fun e => ((Follows.refl h).log .reprocessing).pass index e
  | debug index enabled =>
    simp only [exec]
    exact follows_withEngine h index fun e => follows_setDebug h e enabled
  | retain index => exact (Follows.refl h).modifyEngine index fun _ => rfl
  | release index => exact (Follows.refl h).modifyEngine index fun _ => rfl
  | observe | build | watch => cases hadds

lemma Sound.exec (h : s.Sound) (command : Command) : (s.exec command).Sound := by
  by_cases hadds : command.adds = false
  · exact h.of_follows (follows_exec h.wellFormed hadds)
  · cases command with
    | observe name => exact h.observe name
    | build settings refusals typesetters => exact h.build settings refusals typesetters
    | watch index =>
      simp only [Session.exec, withEngine]
      split
      · next e he => exact h.watch he
      · exact h
    | _ => exact absurd rfl hadds

/-- Observers come after those that are there. -/
lemma listeners_exec (h : s.document.WellFormed) (command : Command) :
    s.document.listeners <+: (s.exec command).document.listeners := by
  by_cases hadds : command.adds = false
  · rw [(follows_exec h hadds).document.listeners_eq]
  · cases command with
    | observe name => simp [exec, Document.observe, Document.listeners]
    | build => exact List.prefix_rfl
    | watch index =>
      simp only [Session.exec, withEngine, Session.watch]
      split
      · split
        · exact List.prefix_rfl
        · exact List.prefix_rfl
        · simp [Document.observe, Document.listeners, log, modifyEngine]
      · exact List.prefix_rfl
    | _ => exact absurd rfl hadds

/-- **Every run is sound.** -/
theorem sound_run (loading : Bool) (commands : List Command) : (run loading commands).Sound := by
  -- for any session to begin with, as the induction takes off the first command
  have hfold : ∀ (commands : List Command) (s : Session), s.Sound → (commands.foldl exec s).Sound := by
    intro commands
    induction commands with
    | nil => exact fun s h => h
    | cons command commands ih => exact fun s h => ih _ (h.exec command)
  exact hfold commands _ (sound_start loading)

end Session

end MarkedMath
