import MarkedMath.Engine
import MarkedMath.Page.State

/-!
# Pages as hosts

What an engine does to a page, call by call. A call that throws ends the operation that it belongs to,
and the operation is refused with what was thrown.
-/

namespace MarkedMath

/-- All text nodes of a forest in document order. -/
def Forest.texts : Forest → List NodeId
  | .nil => []
  | .node id data children next =>
    (match data with
      | .text _ => [id]
      | .element _ _ => children.texts
      | .comment _ => []) ++ next.texts

/-- Steps on a page that may end early. -/
abbrev PageStep (ε α : Type) := ExceptT ε (StateM Page) α

/-- Runs steps on a page. -/
def PageStep.on {ε α : Type} (step : PageStep ε α) (p : Page) : Except ε α × Page :=
  StateT.run (ExceptT.run step) p

/-- What faults throw at a call, if they do: the oldest one that means the call and lets no more calls
pass. -/
def CallFault.answer (call : HostCall) (detail : Text) :
    List CallFault → Option Value × List CallFault
  | [] => (none, [])
  | f :: rest =>
    if f.call = call && Text.mentions f.text detail then
      if f.passing = 0 then (some f.thrown, f :: rest)
      else
        let (thrown, rest) := answer call detail rest
        (thrown, { f with passing := f.passing - 1 } :: rest)
    else
      let (thrown, rest) := answer call detail rest
      (thrown, f :: rest)

namespace Page

/-- A call into the page, which may throw. -/
def call (call : HostCall) (detail : Text) : PageStep Value Unit := do
  let (thrown, faults) := CallFault.answer call detail (← get).faults
  modify fun p => { p with faults }
  match thrown with
  | some v => throw v
  | none => return

/-- A call as a part of an operation, which is refused when the call throws. -/
def require (operation : String) (step : PageStep Value Unit) : PageStep HostError Unit :=
  step.adapt fun v => .rejected operation v.describe

/-- A global by its name, when it is there and is a value. -/
def global? (p : Page) (name : String) : Option Value × Page :=
  if !p.hasWindow then (none, p)
  else
    match (call .getGlobal name.toList).on p with
    | (.ok _, p) => ((p.globals.lookup name.toList).filter fun v => !v.isNull, p)
    | (.error _, p) => (none, p)

/-- The body, which the operation needs. -/
def needBody : PageStep HostError NodeId := do
  match (← get).body? with
  | some body => return body
  | none => throw (.missingElement "body")

/-! ## Text nodes -/

/-- Walks over nodes in order, up to the first step of the walk that throws. -/
def walk : List NodeId → Page → List NodeId × Page
  | [], p => ([], ((call .nextNode []).on p).2)
  | id :: rest, p =>
    match (call .nextNode []).on p with
    | (.ok _, p) =>
      let (others, p) := walk rest p
      (id :: others, p)
    | (.error _, p) => ([], p)

/-- Whether the text node stands right inside a skipped element. -/
def isSkipped (p : Page) (id : NodeId) : Bool :=
  ((p.forest.parent? id).bind p.tag?).any skippedTags.contains

/-- The text nodes of the body in document order, without those right inside skipped elements. -/
def textNodes (p : Page) : List NodeId × Page :=
  match p.body? with
  | none => ([], p)
  | some body =>
    match (call .createTreeWalker []).on p with
    | (.error v, p) => ([], p.log ⟨.warn, "could not walk text nodes: " ++ v.describe⟩)
    | (.ok _, p) =>
      let (nodes, p) := walk (p.forest.childrenOf body).texts p
      (nodes.filter fun id => !p.isSkipped id, p)

/-! ## New nodes -/

/-- The calls that make a new node and put it into a fragment. -/
def requireNode (spec : NodeSpec) : PageStep HostError Unit := do
  match spec with
  | .text _ => pure ()
  | .element tag attributes _ =>
    require "createElement" (call .createElement tag.toList)
    for (name, _) in attributes do
      require "setAttribute" (call .setAttribute name.toList)
  require "appendChild" (call .appendChild "#fragment".toList)

/-- A new element with its attributes. -/
def newElement (tag : String) (attributes : List (String × Text)) : NodeData :=
  .element (lowerName tag)
    (attributes.foldl (fun set (n, v) => NodeData.setAttribute (lowerName n) v set) [])

/-- The tree of a new node numbered from `fresh`, and the next number. An element without text has no
children. -/
def buildNode (fresh : NodeId) (spec : NodeSpec) : Forest × NodeId :=
  match spec with
  | .text data => (.leaf fresh (.text data), fresh + 1)
  | .element tag attributes content =>
    if content.isEmpty then (.leaf fresh (newElement tag attributes), fresh + 1)
    else
      (.node fresh (newElement tag attributes) (.leaf (fresh + 1) (.text content)) .nil, fresh + 2)

/-- The trees of new nodes, one after the other, and the next number. -/
def buildNodes (fresh : NodeId) : List NodeSpec → Forest × NodeId
  | [] => (.nil, fresh)
  | spec :: rest =>
    let (first, fresh) := buildNode fresh spec
    let (others, fresh) := buildNodes fresh rest
    (first ++ others, fresh)

/-- Puts new nodes in the place of a node. -/
def replaceText (id : NodeId) (specs : List NodeSpec) : PageStep HostError Unit := do
  match (← get).forest.parent? id with
  | none => throw .detached
  | some parent =>
    specs.forM requireNode
    require "replaceChild" (call .replaceChild ((← get).textOf id))
    modify fun p =>
      let (new, fresh) := buildNodes p.fresh specs
      { p with fresh }.replace parent id new

/-! ## Styles, classes and observers -/

/-- Adds a style element to the head. -/
def insertStyle (id css : String) : PageStep HostError Unit := do
  match (← get).head? with
  | none => throw (.missingElement "head")
  | some head =>
    require "createElement" (call .createElement "style".toList)
    require "appendChild" (call .appendChild "head".toList)
    modify fun p =>
      let (new, fresh) := buildNode p.fresh (.element "style" [("id", id.toList)] css.toList)
      { p with forest := p.forest.appendTo head new, fresh }.recordChange head new.roots

/-- Adds a class to the body or takes it away. -/
def setBodyClass (name : Text) (enabled : Bool) : PageStep HostError Unit := do
  let body ← needBody
  require "classList" (call (if enabled then .addClass else .removeClass) name)
  modify fun p => p.setClass body name enabled

/-- Adds an observer of the body. Gives its number. -/
def observe (listener : Listener) : PageStep HostError Nat := do
  let target ← needBody
  require "MutationObserver" (call .createObserver [])
  require "observe" (call .observe [])
  let number := (← get).watchers.length
  modify fun p => { p with watchers := p.watchers ++ [{ listener, target }] }
  return number

/-- Drops what an observer has not been told of. -/
def takeRecords (p : Page) (watcher : Nat) : Page :=
  { p with watchers := p.watchers.modify watcher fun w => { w with records := [] } }

/-- Ends an observer. -/
def disconnect (p : Page) (watcher : Nat) : Page :=
  { p with
    watchers := p.watchers.modify watcher fun w =>
      { w with records := [], carried := [], connected := false } }

/-- The page as an engine meets it. -/
def host : Host Page NodeId where
  normalize := normalize
  textNodes := textNodes
  textOf := textOf
  replaceText id specs p := (replaceText id specs).on p
  hasStyle id p := p.hasStyle id
  insertStyle id css p := (insertStyle id css).on p
  log := log

end Page

end MarkedMath
