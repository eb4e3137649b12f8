import MarkedMath.Document
import MarkedMath.Engine

/-!
# Engines at work on a document

A session is a document with any number of engines on it. Engines act when they are told to, when the
document becomes ready and when observers are told of insertions; what they are told of then is
decided by `Session.notify`. An engine all of whose handles were given up does nothing any more.
-/

namespace MarkedMath

/-- What a document keeps an engine from doing. -/
structure Refusals where
  /-- Text nodes with this text in them are not replaced. -/
  locked : Option Text := none
  /-- The answer to adding style rules. -/
  style : Option HostError := none
  /-- The answer to changing the classes of the body. -/
  bodyClass : Option HostError := none
  /-- The answer to observing insertions. -/
  observe : Option HostError := none
  deriving DecidableEq, Repr

/-- An engine. -/
structure Engine where
  /-- Its settings. -/
  settings : CheckedSettings
  /-- What the document keeps it from doing. -/
  refusals : Refusals
  /-- The typesetters that it asks to render. -/
  typesetters : List ScriptedTypesetter
  /-- Its observer, once the change monitor is in place. -/
  monitor : Option Nat := none
  /-- The passes it has made. -/
  passes : Nat := 0
  /-- The handles to it. -/
  handles : Nat := 1

/-- What listeners and typesetters note. -/
inductive Event where
  /-- An observer was told of insertions. -/
  | batch (observer : String) (nodes : List Inserted)
  /-- A listener was told of the end of loading. -/
  | ready (name : String)
  /-- A typesetter was called. -/
  | render (call : RenderCall)
  deriving DecidableEq, Repr

/-- A document with engines. -/
structure Session where
  /-- The document. -/
  document : Document
  /-- The engines, by number. -/
  engines : List Engine := []
  /-- What listeners and typesetters noted, in order. -/
  events : List Event := []
  /-- What engines reported, in order. -/
  records : List Record := []

namespace Session

/-- A session on a document without content. -/
def start (loading : Bool) : Session :=
  { document := .empty loading }

/-- Writes a record. -/
def log (record : Record) (s : Session) : Session :=
  { s with records := s.records ++ [record] }

/-- Notes an event. -/
def note (event : Event) (s : Session) : Session :=
  { s with events := s.events ++ [event] }

/-- Changes an engine. -/
def modifyEngine (index : Nat) (change : Engine → Engine) (s : Session) : Session :=
  { s with engines := s.engines.modify index change }

/-- Runs an operation of the document, which changes it only when it is not refused. -/
def perform (outcome : Except HostError Document) (s : Session) : Except HostError Unit × Session :=
  match outcome with
  | .ok d => (.ok (), { s with document := d })
  | .error e => (.error e, s)

/-- Whether a text node is locked. -/
def isLocked (refusals : Refusals) (data : Text) : Bool :=
  match refusals.locked with
  | some token => Text.mentions token data
  | none => false

/-- The document as an engine meets it. -/
def host (refusals : Refusals) : Host Session NodeId where
  normalize s := { s with document := s.document.normalize }
  textNodes s := (s.document.textNodes, s)
  textOf s id := s.document.textOf id
  replaceText id specs s :=
    if isLocked refusals (s.document.textOf id) then
      (.error (.rejected "replaceWith" "node is read-only"), s)
    else s.perform (s.document.replaceText id specs)
  hasStyle id s := s.document.hasStyle id
  insertStyle id css s :=
    match refusals.style with
    | some e => (.error e, s)
    | none => s.perform (s.document.insertStyle id css)
  log := log

/-- Drops what the pass inserted from what the engine is told of, and counts the pass. -/
def settle (index : Nat) (s : Session) : Session :=
  let s :=
    match s.engines[index]?.bind Engine.monitor with
    | some observer => { s with document := s.document.takeRecords observer }
    | none => s
  s.modifyEngine index fun e => { e with passes := e.passes + 1 }

/-- Makes an engine. Gives its number. -/
def build (settings : CheckedSettings) (refusals : Refusals)
    (typesetters : List ScriptedTypesetter) (s : Session) : Nat × Session :=
  (s.engines.length, { s with engines := s.engines ++ [{ settings, refusals, typesetters }] })

/-- One more handle to an engine. -/
def retain (index : Nat) : Session → Session :=
  modifyEngine index fun e => { e with handles := e.handles + 1 }

/-- One handle to an engine is given up. -/
def release (index : Nat) : Session → Session :=
  modifyEngine index fun e => { e with handles := e.handles - 1 }

/-- One pass of an engine. -/
def pass (index : Nat) (e : Engine) (s : Session) : PassReport × Session :=
  let typesetters := e.typesetters.map fun t => t.typesetter fun call => note (.render call)
  runPass (host e.refusals) e.settings typesetters (settle index) s

/-- An engine by its number, as long as there are handles to it. -/
def engine? (s : Session) (index : Nat) : Option Engine :=
  s.engines[index]?.filter fun e => e.handles ≠ 0

/-- Tells a listener that the document is ready. -/
def announceReady (s : Session) (listener : Listener) : Session :=
  match listener with
  | .script name => s.note (.ready name)
  | .engine index =>
    match s.engine? index with
    | some e => ((s.log .documentReady).pass index e).2
    | none => s

/-- Tells a listener of the end of loading: now when it has come, later otherwise. -/
def onReady (listener : Listener) (s : Session) : Session :=
  match s.document.await? listener with
  | some d => { s with document := d }
  | none => s.announceReady listener

/-- Ends loading and tells those who waited for it. -/
def finishLoading (s : Session) : Session :=
  let (listeners, d) := s.document.finishLoading
  listeners.foldl announceReady { s with document := d }

/-- Tells a listener of inserted nodes, which are shown as they are at this moment. -/
def notify (s : Session) (batch : Listener × List NodeId) : Session :=
  let nodes := batch.2.map s.document.snapshot
  match batch.1 with
  | .script name => s.note (.batch name nodes)
  | .engine index =>
    match s.engine? index with
    | some e =>
      if batchQualifies e.settings.grammar.watchPatterns nodes then
        ((s.log .contentDetected).pass index e).2
      else s
    | none => s

/-- Tells every observer of the insertions that it has not been told of. Gives the number of observers
told. -/
def deliver (s : Session) : Nat × Session :=
  let (batches, d) := s.document.takeBatches
  (batches.length, batches.foldl notify { s with document := d })

/-- Puts the change monitor of an engine in place, once. -/
def watch (index : Nat) (e : Engine) (s : Session) : Except HostError WatchStatus × Session :=
  match e.monitor, e.refusals.observe with
  | some _, _ => (.ok .alreadyArmed, s)
  | none, some refusal => (.error refusal, s)
  | none, none =>
    let (observer, d) := s.document.observe (.engine index)
    let s := { s with document := d }
    let s := s.modifyEngine index fun e => { e with monitor := some observer }
    (.ok .armed, s.log .watching)

/-- Shows or hides the identifiers of equations. -/
def setDebug (e : Engine) (enabled : Bool) (s : Session) : Except HostError Unit × Session :=
  let outcome :=
    match e.refusals.bodyClass with
    | some refusal => .error refusal
    | none => s.document.setBodyClass e.settings.debugClass.toList enabled
  match s.perform outcome with
  | (.ok _, s) => (.ok (), s.log (.debugMode enabled))
  | refused => refused

/-- The equation elements of a kind that stand in the document, in document order. -/
def equations (s : Session) (e : Engine) (kind : Kind) : List NodeId :=
  s.document.elementsWithClass (e.settings.layout.className kind).toList

end Session

end MarkedMath
