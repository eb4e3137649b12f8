import MarkedMath.Proofs.Projections
import MarkedMath.Proofs.Runs

/-!
# Runs with their history

A chronicle is a session together with what has happened to its observers: when each came, which nodes were
put where, what each observer was told of and what was dropped unseen. It does what the session does and
writes down what happens on the way, also in the passes that engines make while insertions are delivered.

Keeping the history changes nothing: the session of a chronicle is the session of the run
(`Chronicle.session_run`). For passes this follows from `Host.Projects`, as the host of a chronicle does on the
session what the host of the session does.
-/

namespace MarkedMath

/-! ## Histories -/

/-- What happens in a run as far as observers are concerned. -/
inductive Happening where
  /-- An observer came. -/
  | subscribed
  /-- Nodes were put into a parent that was the body or below it at that moment, or was not. -/
  | inserted (parent : NodeId) (nodes : List NodeId) (below : Bool)
  /-- An observer was told of nodes. -/
  | told (observer : Nat) (nodes : List NodeId)
  /-- The nodes that an observer had not been told of were dropped. -/
  | dropped (observer : Nat) (nodes : List NodeId)
  deriving DecidableEq, Repr

/-- The batch that an observer noted. -/
def Event.batch? : Event → Option (String × List Inserted)
  | batch observer nodes => some (observer, nodes)
  | _ => none

/-- A session with what has happened in it so far. -/
structure Chronicle where
  /-- The session. -/
  session : Session
  /-- What has happened, in order. -/
  history : List Happening := []

namespace Document

/-- The nodes that an observer has not been told of. -/
def pendingOf (d : Document) (observer : Nat) : List NodeId :=
  (d.observers[observer]?.map Observer.pending).getD []

/-- The observers that are to be told of insertions, by number, with whom to tell of which nodes. -/
def numberedBatches (d : Document) : List (Nat × Listener × List NodeId) :=
  (d.observers.zipIdx.filter fun o => !o.1.pending.isEmpty).map fun o => (o.2, o.1.listener, o.1.pending)

end Document

namespace Chronicle

/-- Changes the session where nothing happens to observers. -/
def change (f : Session → Session) (c : Chronicle) : Chronicle :=
  { c with session := f c.session }

/-- Writes down what happened. -/
def tell (happenings : List Happening) (c : Chronicle) : Chronicle :=
  { c with history := c.history ++ happenings }

/-! ### Insertions -/

/-- Runs an operation that puts nodes into a parent. The insertion is written down when the operation is not
refused, with the place of the parent in the document that comes of it. -/
def perform (outcome : Except HostError Document) (parent : NodeId) (nodes : List NodeId) (c : Chronicle) :
    Except HostError Unit × Chronicle :=
  let (answer, s) := c.session.perform outcome
  match outcome with
  | .ok d => (answer, ⟨s, c.history ++ [.inserted parent nodes (d.forest.isWithin parent Document.body)]⟩)
  | .error _ => (answer, ⟨s, c.history⟩)

/-- Makes a node at the end of a parent. -/
def appendNew (parent : NodeId) (data : NodeData) (c : Chronicle) : Chronicle :=
  let (id, d) := c.session.document.create data
  ((c.change fun s => { s with document := d }).perform (d.appendChild parent id) parent [id]).2

/-- Puts new nodes in the place of a node. -/
def replaceText (id : NodeId) (specs : List NodeSpec) (c : Chronicle) : Except HostError Unit × Chronicle :=
  c.perform (c.session.document.replaceText id specs) ((c.session.document.parent? id).getD id)
    (NodeSpec.buildAll c.session.document.fresh specs).1.roots

/-- Adds a style element, which is put into the head when its own text stands in it. -/
def insertStyle (id css : String) (c : Chronicle) : Except HostError Unit × Chronicle :=
  c.perform (c.session.document.insertStyle id css) Document.head [c.session.document.fresh]

/-! ### Passes -/

/-- The document as an engine meets it. -/
def host (refusals : Refusals) : Host Chronicle NodeId where
  normalize := change (Session.host refusals).normalize
  textNodes c := (c.session.document.textNodes, c)
  textOf c id := c.session.document.textOf id
  replaceText id specs c :=
    if Session.isLocked refusals (c.session.document.textOf id) then
      (.error (.rejected "replaceWith" "node is read-only"), c)
    else c.replaceText id specs
  hasStyle id c := c.session.document.hasStyle id
  insertStyle id css c :=
    match refusals.style with
    | some e => (.error e, c)
    | none => c.insertStyle id css
  log record := change (Session.log record)

/-- Drops what the engine has not been told of at the end of a pass. -/
def settle (index : Nat) (c : Chronicle) : Chronicle :=
  let monitor := c.session.engines[index]?.bind Engine.monitor
  (c.tell (monitor.map fun o => .dropped o (c.session.document.pendingOf o)).toList).change
    (Session.settle index)

/-- One pass of an engine. -/
def pass (index : Nat) (e : Engine) (c : Chronicle) : PassReport × Chronicle :=
  let typesetters := e.typesetters.map fun t => t.typesetter fun call => change (Session.note (.render call))
  runPass (host e.refusals) e.settings typesetters (settle index) c

/-- Tells a listener that the document is ready. -/
def announceReady (c : Chronicle) (listener : Listener) : Chronicle :=
  match listener with
  | .script name => c.change (Session.note (.ready name))
  | .engine index =>
    match c.session.engine? index with
    | some e => ((c.change (Session.log .documentReady)).pass index e).2
    | none => c

/-- Tells a listener of the end of loading: now when it has come, later otherwise. -/
def onReady (listener : Listener) (c : Chronicle) : Chronicle :=
  match c.session.document.await? listener with
  | some d => c.change fun s => { s with document := d }
  | none => c.announceReady listener

/-- Ends loading and tells those who waited for it. -/
def finishLoading (c : Chronicle) : Chronicle :=
  let (listeners, d) := c.session.document.finishLoading
  listeners.foldl announceReady (c.change fun s => { s with document := d })

/-! ### Deliveries -/

/-- Tells an observer of inserted nodes. -/
def notify (c : Chronicle) : Nat × Listener × List NodeId → Chronicle
  | (observer, .script name, nodes) =>
    (c.tell [.told observer nodes]).change fun s => s.notify (.script name, nodes)
  | (observer, .engine index, nodes) =>
    match c.session.engine? index with
    | some e =>
      if batchQualifies e.settings.grammar.watchPatterns (nodes.map c.session.document.snapshot) then
        (((c.tell [.told observer nodes]).change (Session.log .contentDetected)).pass index e).2
      else c.tell [.told observer nodes]
    | none => c.tell [.told observer nodes]

/-- Tells every observer of the insertions that it has not been told of. -/
def deliver (c : Chronicle) : Chronicle :=
  c.session.document.numberedBatches.foldl notify
    (c.change fun s => { s with document := s.document.takeBatches.2 })

/-! ### Commands -/

/-- Puts the change monitor of an engine in place, once. -/
def watch (index : Nat) (e : Engine) (c : Chronicle) : Chronicle :=
  let armed := e.monitor.isNone && e.refusals.observe.isNone
  (c.tell (if armed then [.subscribed] else [])).change fun s => (Session.watch index e s).2

/-- Has an engine do something, as long as there are handles to it. -/
def withEngine (index : Nat) (act : Engine → Chronicle → Chronicle) (c : Chronicle) : Chronicle :=
  match c.session.engine? index with
  | some e => act e c
  | none => c

/-- Does what a command asks for. -/
def exec (c : Chronicle) : Command → Chronicle
  | .append parent child => (c.perform (c.session.document.appendChild parent child) parent [child]).2
  | .insertBefore parent child reference =>
    (c.perform (c.session.document.insertBefore parent child reference) parent [child]).2
  | .appendElement parent tag => c.appendNew parent (.element (lowerName tag) [])
  | .appendText parent data => c.appendNew parent (.text data)
  | .replaceText node specs => (c.replaceText node specs).2
  | .insertStyle id css => (c.insertStyle id css).2
  | .observe name => (c.tell [.subscribed]).change fun s => s.exec (.observe name)
  | .takeRecords observer =>
    (c.tell [.dropped observer (c.session.document.pendingOf observer)]).change fun s =>
      s.exec (.takeRecords observer)
  | .deliver => c.deliver
  | .finishLoading => c.finishLoading
  | .onReady name => c.onReady (.script name)
  | .start index => c.withEngine index fun _ => onReady (.engine index)
  | .process index => c.withEngine index fun e c => (c.pass index e).2
  | .reprocess index => c.withEngine index fun e c => ((c.change (Session.log .reprocessing)).pass index e).2
  | .watch index => c.withEngine index (watch index)
  | command => c.change fun s => s.exec command

/-- The chronicle of commands on a document without content. -/
def run (loading : Bool) (commands : List Command) : Chronicle :=
  commands.foldl exec ⟨.start loading, []⟩

/-! ## Keeping the history changes nothing -/

variable {c : Chronicle}

@[simp] lemma session_change (f : Session → Session) (c : Chronicle) :
    (c.change f).session = f c.session := rfl

@[simp] lemma history_change (f : Session → Session) (c : Chronicle) :
    (c.change f).history = c.history := rfl

@[simp] lemma session_tell (happenings : List Happening) (c : Chronicle) :
    (c.tell happenings).session = c.session := rfl

@[simp] lemma history_tell (happenings : List Happening) (c : Chronicle) :
    (c.tell happenings).history = c.history ++ happenings := rfl

lemma map_perform (outcome : Except HostError Document) (parent : NodeId) (nodes : List NodeId)
    (c : Chronicle) : Prod.map id session (c.perform outcome parent nodes) = c.session.perform outcome := by
  rw [perform]
  cases outcome <;> rfl

lemma session_perform (outcome : Except HostError Document) (parent : NodeId) (nodes : List NodeId)
    (c : Chronicle) : (c.perform outcome parent nodes).2.session = c.session.attempt outcome :=
  congrArg Prod.snd (map_perform outcome parent nodes c)

lemma session_appendNew (parent : NodeId) (data : NodeData) (c : Chronicle) :
    (c.appendNew parent data).session =
      { c.session with document := (c.session.document.appendNew parent data).2 } := by
  simp only [appendNew, Document.appendNew, perform]
  cases (c.session.document.create data).2.appendChild parent (c.session.document.create data).1 <;> rfl

lemma host_projects (refusals : Refusals) : (host refusals).Projects session (Session.host refusals) where
  normalize _ := rfl
  textNodes _ := rfl
  textOf _ _ := rfl
  replaceText id specs c := by
    simp only [host, Session.host]
    split
    · rfl
    · exact map_perform _ _ _ c
  hasStyle _ _ := rfl
  insertStyle style css c := by
    simp only [host, Session.host]
    cases refusals.style with
    | some e => rfl
    | none => exact map_perform _ _ _ c
  log _ _ := rfl

lemma session_pass (index : Nat) (e : Engine) (c : Chronicle) :
    (c.pass index e).2.session = (c.session.pass index e).2 := by
  have htypesetters : List.Forall₂ (Typesetter.Projects session)
      (e.typesetters.map fun t => t.typesetter fun call => change (Session.note (.render call)))
      (e.typesetters.map fun t => t.typesetter fun call => Session.note (.render call)) := by
    rw [List.forall₂_map_left_iff, List.forall₂_map_right_iff, List.forall₂_same]
    exact fun t _ => ⟨rfl, rfl, fun _ => rfl, fun _ _ => rfl⟩
  exact congrArg Prod.snd
    (runPass_projects (host_projects e.refusals) htypesetters (g := Session.settle index) (fun _ => rfl) c)

lemma session_announceReady (c : Chronicle) (listener : Listener) :
    (c.announceReady listener).session = c.session.announceReady listener := by
  cases listener with
  | script name => rfl
  | engine index =>
    simp only [announceReady, Session.announceReady]
    cases c.session.engine? index with
    | some e => exact session_pass index e _
    | none => rfl

lemma session_onReady (listener : Listener) (c : Chronicle) :
    (c.onReady listener).session = c.session.onReady listener := by
  rw [onReady, Session.onReady]
  cases c.session.document.await? listener with
  | some d => rfl
  | none => exact session_announceReady c listener

lemma session_foldl {α β : Type} {step : Chronicle → α → Chronicle} {g : Session → β → Session}
    {f : α → β} (hstep : ∀ c a, (step c a).session = g c.session (f a)) (l : List α) (c : Chronicle) :
    (l.foldl step c).session = (l.map f).foldl g c.session := by
  induction l generalizing c with
  | nil => rfl
  | cons a l ih => rw [List.foldl_cons, ih, hstep, List.map_cons, List.foldl_cons]

lemma session_finishLoading (c : Chronicle) : c.finishLoading.session = c.session.finishLoading := by
  rw [finishLoading, Session.finishLoading,
    session_foldl (f := id) (g := Session.announceReady) session_announceReady, List.map_id]
  rfl

lemma session_notify (c : Chronicle) (batch : Nat × Listener × List NodeId) :
    (c.notify batch).session = c.session.notify batch.2 := by
  obtain ⟨observer, listener, nodes⟩ := batch
  cases listener with
  | script name => rfl
  | engine index =>
    simp only [notify, Session.notify]
    cases c.session.engine? index with
    | none => rfl
    | some e =>
      simp only [apply_ite session]
      congr 1
      exact session_pass index e _

lemma map_numberedBatches (d : Document) : d.numberedBatches.map Prod.snd = d.takeBatches.1 := by
  have hfst : (d.observers.zipIdx.filter fun o => !o.1.pending.isEmpty).map Prod.fst =
      d.observers.filter fun o => !o.pending.isEmpty := by
    conv_rhs => rw [← List.zipIdx_map_fst 0 d.observers, List.filter_map]
    rfl
  rw [Document.numberedBatches, List.map_map, Document.takeBatches, ← hfst, List.map_map]
  rfl

lemma session_deliver (c : Chronicle) : c.deliver.session = c.session.deliver.2 := by
  rw [deliver, Session.deliver, session_foldl (f := Prod.snd) session_notify, map_numberedBatches]
  rfl

lemma session_withEngine (index : Nat) {act : Engine → Chronicle → Chronicle}
    {g : Engine → Session → Session} (hact : ∀ e, (act e c).session = g e c.session) :
    (c.withEngine index act).session = c.session.withEngine index g := by
  rw [withEngine, Session.withEngine]
  cases c.session.engine? index with
  | some e => exact hact e
  | none => rfl

/-- A command does to the session of a chronicle what it does to a session. -/
lemma session_exec (c : Chronicle) (command : Command) :
    (c.exec command).session = c.session.exec command := by
  cases command with
  | append => exact session_perform _ _ _ c
  | insertBefore => exact session_perform _ _ _ c
  | appendElement => exact session_appendNew _ _ c
  | appendText => exact session_appendNew _ _ c
  | replaceText => exact session_perform _ _ _ c
  | insertStyle => exact session_perform _ _ _ c
  | deliver => exact session_deliver c
  | finishLoading => exact session_finishLoading c
  | onReady => exact session_onReady _ c
  | start index => exact session_withEngine index fun _ => session_onReady _ c
  | process index =>
    exact session_withEngine index (g := fun e s => (s.pass index e).2) fun e => session_pass index e c
  | reprocess index =>
    exact session_withEngine index (g := fun e s => ((s.log .reprocessing).pass index e).2) fun e =>
      session_pass index e (c.change (Session.log .reprocessing))
  | watch index =>
    exact session_withEngine index (g := fun e s => (Session.watch index e s).2) fun _ => rfl
  | _ => rfl

/-- The session of a chronicle is the session of the run. -/
lemma session_run (loading : Bool) (commands : List Command) :
    (run loading commands).session = Session.run loading commands := by
  rw [run, session_foldl (f := id) (g := Session.exec) session_exec, List.map_id]
  rfl

/-! ## What a pass keeps -/

lemma events_settle (index : Nat) (s : Session) : (Session.settle index s).events = s.events := by
  simp only [Session.settle, Session.modifyEngine]
  split <;> rfl

/-- A pass notes no batch, puts nodes into their places and drops what its engine has not been told of. What none
of these breaks holds after the pass. -/
lemma pass_keeps {P : Chronicle → Prop}
    (hchange : ∀ f c, (f c.session).events.filterMap Event.batch? = c.session.events.filterMap Event.batch? →
      P c → P (c.change f))
    (hperform : ∀ outcome parent nodes c, P c → P (c.perform outcome parent nodes).2)
    (hdrop : ∀ observer nodes c, P c → P (c.tell [.dropped observer nodes])) (index : Nat) (e : Engine)
    (h : P c) : P (c.pass index e).2 := by
  refine runPass_keeps (P := P) ⟨fun c => hchange _ c rfl, fun _ h => h, fun id specs c h => ?_,
    fun style css c h => ?_, fun record c => hchange _ c rfl⟩ (fun t ht => ?_) (fun c h => ?_) h
  · simp only [host]
    split
    · exact h
    · exact hperform _ _ _ c h
  · simp only [host]
    split
    · exact h
    · exact hperform _ _ _ c h
  · obtain ⟨scripted, -, rfl⟩ := List.mem_map.1 ht
    refine ⟨fun _ h => h, fun _ c => hchange _ c ?_⟩
    simp [Session.note, Event.batch?]
  · rw [settle]
    refine hchange _ _ (congrArg _ (events_settle index _)) ?_
    cases c.session.engines[index]?.bind Engine.monitor with
    | none => simpa [tell] using h
    | some o => exact hdrop o _ c h

end Chronicle

end MarkedMath
