import MarkedMath.Document
import MarkedMath.Page.Value

/-!
# Pages

A page is a document in a browser, with the globals of its scripts, the tasks that wait for the running
script to end, and the observers of the document. Any call that an engine makes into the page may be
answered by a fault, which throws a value.
-/

namespace MarkedMath

/-- Calls into a page that may throw. -/
inductive HostCall where
  | createElement
  | setAttribute
  | appendChild
  | replaceChild
  | createTreeWalker
  | nextNode
  | addEventListener
  | addClass
  | removeClass
  | createObserver
  | observe
  | getGlobal
  | setGlobal
  deriving DecidableEq, Repr

namespace HostCall

/-- All calls. -/
def all : List HostCall :=
  [createElement, setAttribute, appendChild, replaceChild, createTreeWalker, nextNode,
    addEventListener, addClass, removeClass, createObserver, observe, getGlobal, setGlobal]

/-- The name of the call. -/
def name : HostCall → String
  | createElement => "createElement"
  | setAttribute => "setAttribute"
  | appendChild => "appendChild"
  | replaceChild => "replaceChild"
  | createTreeWalker => "createTreeWalker"
  | nextNode => "nextNode"
  | addEventListener => "addEventListener"
  | addClass => "classList.add"
  | removeClass => "classList.remove"
  | createObserver => "MutationObserver"
  | observe => "observe"
  | getGlobal => "getGlobal"
  | setGlobal => "setGlobal"

end HostCall

/-- A fault: what calls of one kind throw from some time on. -/
structure CallFault where
  /-- The calls. -/
  call : HostCall
  /-- Only calls with this text in their detail are meant. -/
  text : Text := []
  /-- So many of these calls are let pass first. -/
  passing : Nat := 0
  /-- What is thrown. -/
  thrown : Value

/-- The outcome of a promise: the value that it was kept with, or broken with. -/
abbrev Settled := Except Value Value

/-- A promise. -/
structure Promise where
  /-- Its outcome, once it has one. -/
  outcome : Option Settled := none
  /-- How many typesettings wait for it. -/
  waiting : Nat := 0

/-- What is done when the running script has ended. -/
inductive Task where
  /-- The observers are told of insertions. -/
  | visit
  /-- A typesetting begins to wait for a promise. -/
  | await (promise : Nat)
  /-- A typesetting is told the outcome of its promise. -/
  | react (outcome : Settled)
  /-- A typesetting ends. -/
  | finish (outcome : Settled)

/-- An observer of insertions into an element and all below it. -/
structure Watcher where
  /-- Who is told. -/
  listener : Listener
  /-- The element. -/
  target : NodeId
  /-- Nodes that were removed from below it since the observer was told last. What happens below them
  is observed as well. -/
  carried : List NodeId := []
  /-- For each change since the observer was told last, the nodes that it inserted. -/
  records : List (List NodeId) := []
  /-- Whether it still observes. -/
  connected : Bool := true

/-- An engine of a page. -/
structure PageEngine where
  /-- Its settings. -/
  settings : CheckedSettings
  /-- Its observer, once the change monitor is in place. -/
  monitor : Option Nat := none
  /-- The passes it has made. -/
  passes : Nat := 0
  /-- The handles to it. -/
  handles : Nat := 1

/-- What the scripts of a page note. -/
inductive PageEvent where
  /-- An observer was told of insertions. -/
  | batch (observer : String) (nodes : List Inserted)
  /-- A listener was told that the document is ready. -/
  | ready (name : String)
  /-- A function was called. -/
  | call (name : Text) (this : Value) (arguments : List Value)

/-- A page. -/
structure Page where
  /-- All nodes. -/
  forest : Forest := (Document.empty false).forest
  /-- The number of the next node. -/
  fresh : NodeId := 3
  /-- Whether there is a global window. -/
  hasWindow : Bool := true
  /-- Whether the window has a document. -/
  hasDocument : Bool := true
  /-- Whether the window takes no globals. -/
  frozen : Bool := false
  /-- How far the document has been loaded. -/
  readyState : String := "complete"
  /-- The globals of scripts. -/
  globals : List (Text × Value) := []
  /-- The faults, the oldest first. -/
  faults : List CallFault := []
  /-- The promises, by number. -/
  promises : List Promise := []
  /-- What is still to be done, in order. -/
  tasks : List Task := []
  /-- Whether a visit to the observers is among the tasks and has not begun. -/
  visitDue : Bool := false
  /-- The observers, in the order in which they came. -/
  watchers : List Watcher := []
  /-- Who waits for the document to be ready, in order. -/
  waiting : List Listener := []
  /-- The engines, by number. -/
  engines : List PageEngine := []
  /-- The least grave level that is reported, if any is. -/
  threshold : Option Level := none
  /-- What was reported, in order. -/
  console : List Record := []
  /-- What scripts noted, in order. -/
  events : List PageEvent := []

namespace Page

/-- How the markup of pages is written. -/
def markupStyle : MarkupStyle where
  textChar
    | '\u00A0' => "&nbsp;".toList
    | c => escapeMarkup c
  attributeChar
    | '&' => "&amp;".toList
    | '\u00A0' => "&nbsp;".toList
    | '\x22' => "&quot;".toList
    | c => [c]
  rawTags :=
    ["style", "script", "xmp", "iframe", "noembed", "noframes", "plaintext", "noscript"]
  voidHidesChildren := true

/-- Reports a record when its level is grave enough. -/
def log (record : Record) (p : Page) : Page :=
  match p.threshold with
  | some level =>
    if record.level.rank ≤ level.rank then
      { p with console := p.console ++ [⟨record.level, "[eqmark] " ++ record.text⟩] }
    else p
  | none => p

/-- Notes an event. -/
def note (event : PageEvent) (p : Page) : Page :=
  { p with events := p.events ++ [event] }

/-! ## Looking at the document -/

/-- The first child of the `html` element with a tag. -/
def section? (p : Page) (tag : String) : Option NodeId :=
  (p.forest.childrenOf Document.html).roots.find? fun id =>
    (p.forest.data? id).bind NodeData.tag? = some tag

/-- The body. -/
def body? (p : Page) : Option NodeId :=
  p.section? "body"

/-- The head. -/
def head? (p : Page) : Option NodeId :=
  p.section? "head"

/-- What a node is. -/
def data? (p : Page) (id : NodeId) : Option NodeData :=
  p.forest.data? id

/-- The tag of an element. -/
def tag? (p : Page) (id : NodeId) : Option String :=
  (p.data? id).bind NodeData.tag?

/-- The value of an attribute. -/
def attribute? (p : Page) (id : NodeId) (name : String) : Option Text :=
  (p.data? id).bind fun data => data.attribute? (lowerName name)

/-- The text of a node: of a comment its data, of an element all text below it. -/
def textOf (p : Page) (id : NodeId) : Text :=
  match p.data? id with
  | some (.comment data) => data
  | _ => (p.forest.tree id).textContent

/-- The markup inside a node. -/
def innerMarkup (p : Page) (id : NodeId) : Text :=
  p.forest.innerMarkup markupStyle id

/-- The elements below a node that have all the given classes, of which there has to be one. -/
def elementsWithClasses (p : Page) (root : NodeId) (classes : List Text) : List NodeId :=
  if classes.isEmpty then []
  else
    (p.forest.childrenOf root).elements fun data =>
      classes.all fun c => data.classes.contains c

/-- Whether an element of the document carries an identifier. -/
def hasStyle (p : Page) (id : String) : Bool :=
  id ≠ "" && ((p.forest.tree Document.html).first? fun data =>
    data.attribute? "id" = some id.toList).isSome

/-- A node as observers are shown it. -/
def snapshot (p : Page) (id : NodeId) : Inserted :=
  match p.data? id with
  | some (.element _ _) => ⟨.element, p.innerMarkup id⟩
  | some (.text data) => ⟨.text, data⟩
  | _ => ⟨.other, []⟩

/-! ## Changing the document -/

/-- Whether an observer is told of changes to the children of a node. -/
def isObserved (p : Page) (w : Watcher) (id : NodeId) : Bool :=
  w.connected && (w.target :: w.carried).any fun root => p.forest.isWithin id root

/-- Records that nodes were inserted into a parent, or that nodes were removed from it when there are
none, and asks for a visit to the observers. -/
def recordChange (p : Page) (parent : NodeId) (inserted : List NodeId) : Page :=
  if p.watchers.any fun w => p.isObserved w parent then
    let watchers := p.watchers.map fun w =>
      if p.isObserved w parent then { w with records := w.records ++ [inserted] } else w
    let tasks := if p.visitDue then p.tasks else p.tasks ++ [.visit]
    { p with watchers, tasks, visitDue := true }
  else p

/-- Has the observers of a parent go on observing a child that is about to be removed. -/
def carry (p : Page) (parent child : NodeId) : Page :=
  { p with
    watchers := p.watchers.map fun w =>
      if p.isObserved w parent then { w with carried := w.carried ++ [child] } else w }

/-- Makes a node that stands in no other one. -/
def create (p : Page) (data : NodeData) : NodeId × Page :=
  (p.fresh, { p with forest := p.forest ++ .leaf p.fresh data, fresh := p.fresh + 1 })

/-- Makes an element. -/
def createElement (p : Page) (tag : String) : NodeId × Page :=
  p.create (.element (lowerName tag) [])

/-- Takes a node out of its parent, if it has one. -/
def remove (p : Page) (id : NodeId) : Page :=
  match p.forest.parent? id with
  | none => p
  | some parent =>
    let p := p.carry parent id
    let p := p.recordChange parent []
    { p with forest := p.forest.detach id }

/-- Why a script cannot put a node into another one. -/
inductive PlaceFault where
  /-- The tree would be no tree, or the parent takes no children. -/
  | hierarchy
  /-- The reference node is no child of the parent. -/
  | notFound
  deriving DecidableEq, Repr

/-- The name of the exception. -/
def PlaceFault.name : PlaceFault → String
  | hierarchy => "HierarchyRequestError"
  | notFound => "NotFoundError"

/-- Puts a child into a parent, right before a reference node if there is one. A node that is put before
itself goes before the node behind it. -/
def place (p : Page) (parent child : NodeId) (reference : Option NodeId) : Except PlaceFault Page :=
  if (p.tag? parent).isNone || p.forest.isWithin parent child then .error .hierarchy
  else if reference.any fun r => p.forest.parent? r ≠ some parent then .error .notFound
  else
    let reference := if reference = some child then p.forest.nextSibling? child else reference
    let p := p.remove child
    let p := { p with forest := p.forest.move parent child reference }
    .ok (p.recordChange parent [child])

/-- Puts new trees in the place of a node. -/
def replace (p : Page) (parent id : NodeId) (new : Forest) : Page :=
  let p := p.carry parent id
  let p := { p with forest := p.forest.splice id new ++ p.forest.tree id }
  p.recordChange parent new.roots

/-- Makes a text the only child of an element; an empty text leaves it without children. -/
def setContent (p : Page) (id : NodeId) (data : Text) : Page :=
  let before := p.forest.childrenOf id
  let (new, fresh) :=
    if data.isEmpty then (Forest.nil, p.fresh) else (.leaf p.fresh (.text data), p.fresh + 1)
  if before.isEmpty && new.isEmpty then p
  else
    let p := before.roots.foldl (fun p child => p.carry id child) p
    let p := { p with forest := p.forest.setChildren id new ++ before, fresh }
    p.recordChange id new.roots

/-- Changes what a node is. Observers are not told. -/
def changeNode (p : Page) (id : NodeId) (change : NodeData → NodeData) : Page :=
  { p with forest := p.forest.modify id change }

/-- Sets the data of a text node or comment. -/
def setData (p : Page) (id : NodeId) (data : Text) : Page :=
  p.changeNode id fun
    | .text _ => .text data
    | .comment _ => .comment data
    | element => element

/-- Sets the text of a node: the content of an element, the data of any other node. -/
def setText (p : Page) (id : NodeId) (data : Text) : Page :=
  if (p.tag? id).isSome then p.setContent id data else p.setData id data

/-- Sets an attribute of an element. -/
def setAttribute (p : Page) (id : NodeId) (name : String) (value : Text) : Page :=
  p.changeNode id fun
    | .element tag attributes =>
      .element tag (NodeData.setAttribute (lowerName name) value attributes)
    | data => data

/-- Adds a class to an element or takes it away. The attribute is written anew with each class once; an
element without the attribute gets none by having a class taken away. -/
def setClass (p : Page) (id : NodeId) (name : Text) (enabled : Bool) : Page :=
  let before := ((p.data? id).map NodeData.classes).getD []
  let others := before.eraseDups.filter fun c => c ≠ name
  let after :=
    if !enabled then others
    else if before.contains name then before.eraseDups
    else before.eraseDups ++ [name]
  if after.isEmpty && (p.attribute? id "class").isNone then p
  else p.setAttribute id "class" (Text.unwords after)

/-- Normalizes the body. -/
def normalize (p : Page) : Page :=
  match p.body? with
  | none => p
  | some body =>
    let children := p.forest.childrenOf body
    let dropped := children.droppedTexts
    let parents := dropped.filterMap fun (id, _) => p.forest.parent? id
    let trees := dropped.foldr (fun (id, data) f => .node id (.text data) .nil f) .nil
    let p := { p with forest := p.forest.setChildren body children.normalize ++ trees }
    parents.foldl (fun p parent => p.recordChange parent []) p

end Page

end MarkedMath
