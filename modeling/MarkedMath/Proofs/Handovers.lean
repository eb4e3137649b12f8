import MarkedMath.Proofs.Insertions

/-!
# Batches handed over

What the history of a run says an observer was told of did reach the observer. Observers that only note what
they are told have noted, in order, exactly the batches that the history has for them, each with its nodes as
the document showed them when it was handed over (`Chronicle.handedOver_run`). The document may differ from
one observer of a delivery to the next, since an engine that is told of content makes its pass at once.
-/

namespace MarkedMath

/-- The batch that was handed to an observer which only notes it. -/
def Happening.handed? (listeners : List Listener) : Happening → Option (String × List NodeId)
  | told observer nodes =>
    match listeners[observer]? with
    | some (.script name) => some (name, nodes)
    | _ => none
  | _ => none

/-- The documents that a run comes to while its deliveries tell observers one after another. -/
def Session.Delivers (loading : Bool) (commands : List Command) (d : Document) : Prop :=
  ∃ earlier later told, commands = earlier ++ .deliver :: later ∧
    told <+: (run loading earlier).document.takeBatches.1 ∧
    d = (told.foldl notify
      { run loading earlier with document := (run loading earlier).document.takeBatches.2 }).document

/-- A batch was noted as it was handed over: by the same observer, and with the nodes as one of the documents
showed them. -/
def NotedAs (moment : Document → Prop) (handed : String × List NodeId) (noted : String × List Inserted) :
    Prop :=
  noted.1 = handed.1 ∧ ∃ d, moment d ∧ noted.2 = handed.2.map d.snapshot

namespace Chronicle

/-- The batches that observers noted are those that were handed over. -/
def HandedOver (moment : Document → Prop) (listeners : List Listener) (c : Chronicle) : Prop :=
  List.Forall₂ (NotedAs moment) (c.history.filterMap (Happening.handed? listeners))
    (c.session.events.filterMap Event.batch?)

variable {c c' : Chronicle} {moment : Document → Prop} {listeners : List Listener}

/-- Telling an observer that only notes it adds the batch to the history and, as the nodes are at this
moment, to what was noted. -/
lemma notify_script (c : Chronicle) (observer : Nat) (name : String) (nodes : List NodeId) :
    (c.notify (observer, .script name, nodes)).history = c.history ++ [.told observer nodes] ∧
    (c.notify (observer, .script name, nodes)).session.events =
      c.session.events ++ [.batch name (nodes.map c.session.document.snapshot)] :=
  ⟨rfl, rfl⟩

lemma HandedOver.mono {moment' : Document → Prop} (h : c.HandedOver moment listeners)
    (hmoment : ∀ d, moment d → moment' d) : c.HandedOver moment' listeners :=
  List.Forall₂.imp (fun _ _ ⟨hname, d, hd, hnodes⟩ => ⟨hname, d, hmoment d hd, hnodes⟩) h

/-! ## Where nothing is handed over -/

/-- Nothing is handed over and nothing of a batch is noted. -/
lemma HandedOver.append (h : c.HandedOver moment listeners) {happenings : List Happening} {events : List Event}
    (hhistory : c'.history = c.history ++ happenings)
    (hevents : c'.session.events = c.session.events ++ events)
    (hhanded : happenings.filterMap (Happening.handed? listeners) = [])
    (hnoted : events.filterMap Event.batch? = []) : c'.HandedOver moment listeners := by
  rw [HandedOver, hhistory, hevents, List.filterMap_append, List.filterMap_append, hhanded, hnoted,
    List.append_nil, List.append_nil]
  exact h

/-- Nothing happens to observers. -/
lemma HandedOver.of_eq (h : c.HandedOver moment listeners) (hhistory : c'.history = c.history)
    (hevents : c'.session.events = c.session.events) : c'.HandedOver moment listeners := by
  rw [HandedOver, hhistory, hevents]
  exact h

lemma HandedOver.perform (h : c.HandedOver moment listeners) (outcome : Except HostError Document)
    (parent : NodeId) (nodes : List NodeId) : (c.perform outcome parent nodes).2.HandedOver moment listeners := by
  cases outcome with
  | error e => exact h
  | ok d => exact h.append rfl (List.append_nil _).symm rfl rfl

lemma HandedOver.dropped (h : c.HandedOver moment listeners) (observer : Nat) (nodes : List NodeId) :
    (c.tell [.dropped observer nodes]).HandedOver moment listeners :=
  h.append rfl (List.append_nil _).symm rfl rfl

/-- In a pass nothing is handed over. -/
lemma HandedOver.pass (h : c.HandedOver moment listeners) (index : Nat) (e : Engine) :
    (c.pass index e).2.HandedOver moment listeners := by
  refine pass_keeps (fun f c hevents h => ?_) (fun _ _ _ _ h => h.perform ..) (fun _ _ _ h => h.dropped ..) index e h
  rw [HandedOver, session_change, hevents]
  exact h

/-! ## Deliveries -/

/-- Telling an observer hands its batch over. -/
lemma HandedOver.notify (h : c.HandedOver moment listeners) {batch : Nat × Listener × List NodeId}
    (hlistener : listeners[batch.1]? = some batch.2.1) (hmoment : moment c.session.document) :
    (c.notify batch).HandedOver moment listeners := by
  obtain ⟨observer, listener, nodes⟩ := batch
  cases listener with
  | script name =>
    obtain ⟨hhistory, hevents⟩ := notify_script c observer name nodes
    have hhanded : Happening.handed? listeners (.told observer nodes) = some (name, nodes) := by
      simp only [Happening.handed?, hlistener]
    rw [HandedOver, hhistory, hevents, List.filterMap_append, List.filterMap_append]
    refine List.rel_append h ?_
    simp only [List.filterMap_cons, List.filterMap_nil, hhanded, Event.batch?]
    exact .cons ⟨rfl, c.session.document, hmoment, rfl⟩ .nil
  | engine index =>
    have htold : (c.tell [.told observer nodes]).HandedOver moment listeners := by
      refine h.append rfl (List.append_nil _).symm ?_ rfl
      simp only [List.filterMap_cons, List.filterMap_nil, Happening.handed?, hlistener]
    simp only [Chronicle.notify]
    cases c.session.engine? index with
    | none => exact htold
    | some e =>
      dsimp only
      split
      · exact HandedOver.pass (c := (c.tell _).change (Session.log .contentDetected)) htold index e
      · exact htold

lemma HandedOver.foldl_notify {batches : List (Nat × Listener × List NodeId)}
    (h : c.HandedOver moment listeners) (hlisteners : ∀ b ∈ batches, listeners[b.1]? = some b.2.1)
    (hmoment : ∀ told, told <+: batches → moment (told.foldl Chronicle.notify c).session.document) :
    (batches.foldl Chronicle.notify c).HandedOver moment listeners := by
  induction batches generalizing c with
  | nil => exact h
  | cons batch batches ih =>
    obtain ⟨hlistener, hlisteners⟩ := List.forall_mem_cons.1 hlisteners
    refine ih (h.notify hlistener (hmoment [] List.nil_prefix)) hlisteners fun told htold => ?_
    exact hmoment (batch :: told) (List.cons_prefix_cons.2 ⟨rfl, htold⟩)

lemma HandedOver.deliver (h : c.HandedOver moment listeners)
    (hlisteners : c.session.document.listeners <+: listeners)
    (hmoment : ∀ told, told <+: c.session.document.takeBatches.1 →
      moment (told.foldl Session.notify
        { c.session with document := c.session.document.takeBatches.2 }).document) :
    c.deliver.HandedOver moment listeners := by
  refine HandedOver.foldl_notify (c := c.change _) h (fun b hb => ?_) fun told htold => ?_
  · obtain ⟨later, rfl⟩ := hlisteners
    have hlistener := listener_of_mem_numberedBatches hb
    rwa [List.getElem?_append_left (List.getElem?_eq_some_iff.1 hlistener).1]
  · rw [session_foldl (f := Prod.snd) session_notify]
    exact hmoment _ (map_numberedBatches c.session.document ▸ htold.map Prod.snd)

/-! ## Every run -/

lemma HandedOver.announceReady (h : c.HandedOver moment listeners) (listener : Listener) :
    (c.announceReady listener).HandedOver moment listeners := by
  cases listener with
  | script name =>
    exact h.append (List.append_nil _).symm rfl rfl rfl
  | engine index =>
    simp only [Chronicle.announceReady]
    cases c.session.engine? index with
    | none => exact h
    | some e => exact HandedOver.pass (c := c.change (Session.log .documentReady)) h index e

lemma HandedOver.onReady (h : c.HandedOver moment listeners) (listener : Listener) :
    (c.onReady listener).HandedOver moment listeners := by
  rw [Chronicle.onReady]
  cases c.session.document.await? listener with
  | none => exact h.announceReady listener
  | some d => exact h

lemma HandedOver.foldl_announceReady (h : c.HandedOver moment listeners) (ready : List Listener) :
    (ready.foldl Chronicle.announceReady c).HandedOver moment listeners := by
  induction ready generalizing c with
  | nil => exact h
  | cons listener ready ih => exact ih (h.announceReady listener)

lemma HandedOver.withEngine (h : c.HandedOver moment listeners) (index : Nat)
    {act : Engine → Chronicle → Chronicle} (hact : ∀ e, (act e c).HandedOver moment listeners) :
    (c.withEngine index act).HandedOver moment listeners := by
  rw [Chronicle.withEngine]
  cases c.session.engine? index with
  | none => exact h
  | some e => exact hact e

lemma HandedOver.watch (h : c.HandedOver moment listeners) (index : Nat) (e : Engine) :
    (c.watch index e).HandedOver moment listeners := by
  have hevents : (c.watch index e).session.events = c.session.events := by
    simp only [Chronicle.watch, session_change, session_tell, Session.watch]
    split <;> rfl
  refine h.append rfl (hevents.trans (List.append_nil _).symm) ?_ rfl
  split <;> rfl

/-! ### Commands that note nothing -/

end Chronicle

namespace Session

lemma events_attempt (outcome : Except HostError Document) (s : Session) :
    (s.attempt outcome).events = s.events := by
  cases outcome <;> rfl

lemma events_debug (s : Session) (index : Nat) (enabled : Bool) :
    (s.exec (.debug index enabled)).events = s.events := by
  simp only [exec, withEngine]
  split
  · next e _ =>
    cases hr : e.refusals.bodyClass with
    | some refusal =>
      simp only [setDebug, hr]
      rfl
    | none =>
      have hperform := events_attempt (s.document.setBodyClass e.settings.debugClass.toList enabled) s
      simp only [setDebug, hr]
      split
      · next s' heq => rwa [attempt, heq] at hperform
      · exact hperform
  · rfl

end Session

namespace Chronicle

variable {c : Chronicle} {moment : Document → Prop} {listeners : List Listener}

/-- Every command hands over what it notes, a delivery on the documents that it comes to. -/
lemma HandedOver.exec (h : c.HandedOver moment listeners)
    (hlisteners : c.session.document.listeners <+: listeners) (command : Command)
    (hmoment : command = .deliver → ∀ told, told <+: c.session.document.takeBatches.1 →
      moment (told.foldl Session.notify
        { c.session with document := c.session.document.takeBatches.2 }).document) :
    (c.exec command).HandedOver moment listeners := by
  cases command with
  | createElement | createText | createComment | removeAttribute | normalize | build | retain | release =>
    exact h
  | append | insertBefore | replaceText | insertStyle => exact h.perform ..
  | appendElement parent tag => exact HandedOver.perform (c := c.change _) h ..
  | appendText parent data => exact HandedOver.perform (c := c.change _) h ..
  | remove | setAttribute | addClass | removeClass | setBodyClass =>
    exact h.of_eq rfl (Session.events_attempt _ _)
  | debug index enabled => exact h.of_eq rfl (Session.events_debug _ index enabled)
  | observe name => exact h.append rfl (List.append_nil _).symm rfl rfl
  | takeRecords observer => exact h.dropped ..
  | deliver => exact h.deliver hlisteners (hmoment rfl)
  | finishLoading => exact HandedOver.foldl_announceReady (c := c.change _) h _
  | onReady name => exact h.onReady _
  | start index => exact h.withEngine index fun _ => h.onReady _
  | process index =>
    simp only [Chronicle.exec]
    exact h.withEngine index fun e => h.pass index e
  | reprocess index =>
    simp only [Chronicle.exec]
    exact h.withEngine index fun e => HandedOver.pass (c := c.change (Session.log .reprocessing)) h index e
  | watch index => exact h.withEngine index fun e => h.watch index e

/-- **What observers were told of was handed to them.** In every run, the batches that observers noted are, in
order, those that the history has for them, where each node is shown as it was in a document that a delivery
had come to. -/
theorem handedOver_run (loading : Bool) (commands : List Command) :
    HandedOver (Session.Delivers loading commands) (Session.run loading commands).document.listeners
      (run loading commands) := by
  -- the numbers that the observers have in the end serve for the whole run
  suffices ∀ listeners, (Session.run loading commands).document.listeners <+: listeners →
      (run loading commands).HandedOver (Session.Delivers loading commands) listeners from
    this _ List.prefix_rfl
  induction commands using List.reverseRecOn with
  | nil => exact fun _ _ => .nil
  | append_singleton commands command ih =>
    intro listeners hlisteners
    have hrun : Session.run loading (commands ++ [command]) = (Session.run loading commands).exec command :=
      List.foldl_concat ..
    have hsession := session_run loading commands
    have hbefore := (Session.listeners_exec (Session.sound_run loading commands).wellFormed command).trans
      (hrun ▸ hlisteners)
    have hearlier : (run loading commands).HandedOver
        (Session.Delivers loading (commands ++ [command])) listeners := by
      refine (ih listeners hbefore).mono ?_
      rintro d ⟨earlier, later, told, rfl, htold, hd⟩
      exact ⟨earlier, later ++ [command], told, List.append_assoc .., htold, hd⟩
    rw [run, List.foldl_concat]
    refine hearlier.exec (hsession ▸ hbefore) command ?_
    rintro rfl told htold
    exact ⟨commands, [], told, rfl, hsession ▸ htold, by rw [← hsession]⟩

example :
    (run false [.observe "log", .appendText Document.body ['x'], .deliver]).history.filterMap
        (Happening.handed? [.script "log"]) = [("log", [3])] ∧
    (Session.run false [.observe "log", .appendText Document.body ['x'], .deliver]).events =
      [.batch "log" [⟨.text, ['x']⟩]] := by
  decide

end Chronicle

end MarkedMath
