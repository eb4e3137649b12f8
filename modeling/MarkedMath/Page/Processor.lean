import MarkedMath.Page.Options
import MarkedMath.Page.Typeset

/-!
# Engines of a page

A script makes engines on the document of the page and calls them. An engine also acts when the document
becomes ready and when its observer is told of new content, which is when the running script has ended.
An engine all of whose handles were given up ends its observer and does nothing any more.
-/

namespace MarkedMath

/-- What is thrown at a script that uses the library. -/
inductive ScriptError where
  /-- Its options do not decode. -/
  | options (e : DecodeError)
  /-- Its settings have a fault. -/
  | settings (fault : SettingsFault)
  /-- The document refuses. -/
  | host (e : HostError)
  /-- A call into the page threw. -/
  | thrown (v : Value)

/-- The message of the error. -/
def ScriptError.message : ScriptError → String
  | options e => "Error: " ++ e.message
  | settings fault => fault.message
  | host e => e.message
  | thrown v => v.describe

/-- Options as a value, of which there need be none. -/
def Options.ofValue (v : Value) : Decoded Options :=
  if v.isNull then .ok {} else Options.decode Value.source v

/-- The level that options ask for; names that say nothing ask for the usual one. -/
def Options.threshold (o : Options) : Option Level :=
  (o.logLevel.bind fun name => Level.threshold? (String.ofList name)).getD (some .info)

/-- The global by which a page finds its engine. -/
def globalName : String := "EquationProcessor"

/-- The event that says that a document has been loaded. -/
def readyEvent : String := "DOMContentLoaded"

namespace Page

/-! ## Passes -/

/-- Changes an engine. -/
def modifyEngine (index : Nat) (change : PageEngine → PageEngine) (p : Page) : Page :=
  { p with engines := p.engines.modify index change }

/-- An engine by its number, as long as there are handles to it. -/
def engine? (p : Page) (index : Nat) : Option PageEngine :=
  p.engines[index]?.filter fun e => e.handles ≠ 0

/-- Drops what the pass inserted from what the engine is told of, and counts the pass. -/
def settle (index : Nat) (p : Page) : Page :=
  let p :=
    match p.engines[index]?.bind PageEngine.monitor with
    | some watcher => p.takeRecords watcher
    | none => p
  p.modifyEngine index fun e => { e with passes := e.passes + 1 }

/-- One pass of an engine. -/
def pass (index : Nat) (e : PageEngine) (p : Page) : PassReport × Page :=
  runPass host e.settings [mathJax, katex] (settle index) p

/-- Tells a listener that the document is ready. -/
def announceReady (p : Page) (listener : Listener) : Page :=
  match listener with
  | .script name => p.note (.ready name)
  | .engine index =>
    match p.engine? index with
    | some e => ((p.log .documentReady).pass index e).2
    | none => p

/-- Tells a listener of inserted nodes. -/
def tell (p : Page) (listener : Listener) (nodes : List Inserted) : Page :=
  match listener with
  | .script name => p.note (.batch name nodes)
  | .engine index =>
    match p.engine? index with
    | some e =>
      if batchQualifies e.settings.grammar.watchPatterns nodes then
        ((p.log .contentDetected).pass index e).2
      else p
    | none => p

/-! ## Tasks -/

/-- Tells an observer of the nodes that were inserted since it was told last. They are shown as they are
at this moment. -/
def visitWatcher (p : Page) (index : Nat) : Page :=
  match p.watchers[index]? with
  | none => p
  | some w =>
    let p := { p with
      watchers := p.watchers.modify index fun w => { w with records := [], carried := [] } }
    let nodes := w.records.flatten.map p.snapshot
    if nodes.isEmpty then p else p.tell w.listener nodes

/-- Visits all observers. -/
def visit (p : Page) : Page :=
  (List.range p.watchers.length).foldl visitWatcher { p with visitDue := false }

/-- Does a task. -/
def perform (p : Page) : Task → Page
  | .visit => p.visit
  | .await index => p.awaitPromise index
  | .react outcome => { p with tasks := p.tasks ++ [.finish outcome] }
  | .finish outcome => p.reportTypeset outcome

/-- Does tasks in their order until none is left, but no more than `fuel` of them. -/
def runTasks : (fuel : Nat) → Page → Page
  | 0, p => p
  | fuel + 1, p =>
    match p.tasks with
    | [] => p
    | task :: rest => runTasks fuel ({ p with tasks := rest }.perform task)

/-- More tasks than can follow from one another: a visit follows from a change of the document only, and
engines change it only as long as there are markers to convert, texts to merge and styles to add. -/
def taskBound (p : Page) : Nat :=
  let size := p.tasks.length + p.forest.ids.length + p.forest.textContent.length +
    p.engines.length + p.watchers.length + 4
  8 * size * size

/-- Does all tasks. -/
def finishTasks (p : Page) : Page :=
  runTasks p.taskBound p

/-! ## What scripts ask for -/

/-- The document of the page, which engines need. -/
def needDocument : PageStep HostError Unit := do
  let p ← get
  if !(p.hasWindow && p.hasDocument) then throw (.rejected "window.document" "no global document")

/-- Tells a listener that the document is ready: now when it is, later otherwise. -/
def onReady (listener : Listener) (p : Page) : Page :=
  if p.readyState ≠ "loading" then
    (p.log ⟨.info, "document already loaded, processing equations immediately"⟩).announceReady listener
  else
    match (call .addEventListener readyEvent.toList).on p with
    | (.ok _, p) => { p with waiting := p.waiting ++ [listener] }
    | (.error v, p) => p.log ⟨.error, "could not wait for " ++ readyEvent ++ ": " ++ v.describe⟩

/-- Tells listeners of an event. All of them wait for the same event, and each of them once. -/
def dispatch (event : String) (p : Page) : Page :=
  if event = readyEvent then p.waiting.foldl announceReady { p with waiting := [] } else p

/-- One more handle to an engine. -/
def retain (index : Nat) : Page → Page :=
  modifyEngine index fun e => { e with handles := e.handles + 1 }

/-- One handle to an engine is given up. The last one ends its observer. -/
def release (index : Nat) (p : Page) : Page :=
  let p := p.modifyEngine index fun e => { e with handles := e.handles - 1 }
  match p.engines[index]? with
  | some ⟨_, some watcher, _, 0⟩ => p.disconnect watcher
  | _ => p

/-- Sets a global, unless the window takes none. A handle that was its value is given up. -/
def setGlobal (name : String) (v : Value) (p : Page) : Bool × Page :=
  if p.frozen then (false, p)
  else
    let before := p.globals.lookup name.toList
    let others := p.globals.filter fun g => g.1 ≠ name.toList
    let p := { p with globals := (name.toList, v) :: others }
    match before with
    | some (.processor index) => (true, p.release index)
    | _ => (true, p)

/-- Puts the change monitor of an engine in place, once. -/
def watch (index : Nat) (e : PageEngine) : PageStep HostError WatchStatus := do
  if e.monitor.isSome then return .alreadyArmed
  let watcher ← observe (.engine index)
  modify (modifyEngine index fun e => { e with monitor := some watcher })
  modify (log .watching)
  return .armed

/-- Shows or hides the identifiers of equations. -/
def setDebug (e : PageEngine) (enabled : Bool) : PageStep HostError Unit := do
  setBodyClass e.settings.debugClass.toList enabled
  modify (log (.debugMode enabled))

/-- The elements of the body that have all classes named in a text. -/
def elementsByClass (p : Page) (names : Text) : List NodeId :=
  match p.body? with
  | some body => p.elementsWithClasses body (Text.words names)
  | none => []

/-- The equation elements of a kind that stand in the body, in document order. -/
def equations (p : Page) (e : PageEngine) (kind : Kind) : List NodeId :=
  p.elementsByClass (e.settings.layout.className kind).toList

/-- Makes an engine from options. Gives its number and the options. -/
def build (options : Value) : PageStep ScriptError (Nat × Options) := do
  match Options.ofValue options with
  | .error e => throw (.options e)
  | .ok o =>
    modify fun p => { p with threshold := o.threshold }
    needDocument.adapt .host
    match o.settings.check with
    | .error fault => throw (.settings fault)
    | .ok settings =>
      let index := (← get).engines.length
      modify fun p => { p with engines := p.engines ++ [{ settings }] }
      return (index, o)

/-- Starts a new engine and makes it a global. -/
def publish (index : Nat) (o : Options) : PageStep ScriptError Unit := do
  modify (onReady (.engine index))
  if o.watch.getD false then
    match (← get).engine? index with
    | some e => discard <| (watch index e).adapt ScriptError.host
    | none => pure ()
  (call .setGlobal globalName.toList).adapt .thrown
  modify fun p =>
    match p.setGlobal globalName (.processor index) with
    | (true, p) => p.retain index
    | (false, p) => p
  modify (log ⟨.info, "Equation Processor v" ++ version ++ " loaded"⟩)

/-- Makes an engine from options, starts it and makes it a global. An engine that cannot be started is
given up. Gives its number. -/
def install (options : Value) : PageStep ScriptError Nat := do
  let (index, o) ← build options
  try
    publish index o
    return index
  catch e =>
    modify (release index)
    throw e

end Page

end MarkedMath
