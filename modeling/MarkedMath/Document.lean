import MarkedMath.Host
import MarkedMath.Tree.Markup
import MarkedMath.Tree.Normalize
import MarkedMath.Watch

/-!
# Documents

A document is a forest whose first tree is the `html` element with `head` and `body`; the other trees
are nodes that stand in no other node. Insertions below the body are noted for every observer, and
kept until they are handed out. An operation that is refused yields no document, so it cannot change
one. Only where a new node was to be put into another one, it is made all the same and stands in none.
-/

namespace MarkedMath

/-- Who is told of insertions or of the end of loading. -/
inductive Listener where
  /-- A listener that only notes what it is told. -/
  | script (name : String)
  /-- An engine, by its number. -/
  | engine (index : Nat)
  deriving DecidableEq, Repr

/-- An observer of insertions. -/
structure Observer where
  /-- Who is told. -/
  listener : Listener
  /-- The inserted nodes that it has not been told of, in order. -/
  pending : List NodeId := []
  deriving DecidableEq, Repr

/-- A document. -/
structure Document where
  /-- All nodes. -/
  forest : Forest
  /-- The number of the next node. -/
  fresh : NodeId
  /-- Whether the document is still being loaded. -/
  loading : Bool
  /-- Who waits for the end of loading, in order. -/
  waiting : List Listener := []
  /-- The observers, in the order in which they came. -/
  observers : List Observer := []
  deriving Repr

namespace Document

/-- The `html` element. -/
def html : NodeId := 0

/-- The `head` element. -/
def head : NodeId := 1

/-- The `body` element. -/
def body : NodeId := 2

/-- A document without content. -/
def empty (loading : Bool) : Document where
  forest :=
    .node html (.element "html" [])
      (.node head (.element "head" []) .nil (.leaf body (.element "body" []))) .nil
  fresh := 3
  loading := loading

/-- How the markup of documents is written. -/
def markupStyle : MarkupStyle where
  textChar := escapeMarkup
  attributeChar := escapeQuoted
  rawTags := ["script", "style"]
  voidHidesChildren := false

/-! ## Looking at nodes -/

/-- The parent of a node. -/
def parent? (d : Document) (id : NodeId) : Option NodeId :=
  d.forest.parent? id

/-- The children of a node. -/
def children (d : Document) (id : NodeId) : List NodeId :=
  (d.forest.childrenOf id).roots

/-- What a node is. -/
def data? (d : Document) (id : NodeId) : Option NodeData :=
  d.forest.data? id

/-- The tag of an element. -/
def tag? (d : Document) (id : NodeId) : Option String :=
  (d.data? id).bind NodeData.tag?

/-- The value of an attribute. -/
def attribute? (d : Document) (id : NodeId) (name : String) : Option Text :=
  (d.data? id).bind fun data => data.attribute? name

/-- The text of a node and all below it. -/
def textContent (d : Document) (id : NodeId) : Text :=
  (d.forest.tree id).textContent

/-- The data of a text node. -/
def textOf (d : Document) (id : NodeId) : Text :=
  ((d.data? id).bind NodeData.text?).getD []

/-- The markup inside a node. -/
def innerMarkup (d : Document) (id : NodeId) : Text :=
  d.forest.innerMarkup markupStyle id

/-- Whether a class is among the classes of an element. -/
def hasClass (d : Document) (id : NodeId) (name : Text) : Bool :=
  ((d.data? id).map fun data => data.classes.contains name).getD false

/-- The elements below the body that have a class, in document order. -/
def elementsWithClass (d : Document) (name : Text) : List NodeId :=
  (d.forest.childrenOf body).elements fun data => data.classes.contains name

/-- The first element in document order with an identifier. -/
def elementById? (d : Document) (value : Text) : Option NodeId :=
  (d.forest.tree html).first? fun data => data.attribute? "id" = some value

end Document

/-- The text nodes of a forest in document order, without those in skipped elements. -/
def Forest.scannedTexts : Forest → List NodeId
  | .nil => []
  | .node id data children next =>
    (match data with
      | .text _ => [id]
      | .element tag _ => if skippedTags.contains tag then [] else children.scannedTexts
      | .comment _ => []) ++ next.scannedTexts

namespace Document

/-- The text nodes of the body in document order, without those in skipped elements. -/
def textNodes (d : Document) : List NodeId :=
  (d.forest.childrenOf body).scannedTexts

/-- A node as observers are shown it. -/
def snapshot (d : Document) (id : NodeId) : Inserted :=
  match d.data? id with
  | some (.element _ _) => ⟨.element, d.innerMarkup id⟩
  | some (.text data) => ⟨.text, data⟩
  | some (.comment data) => ⟨.other, data⟩
  | none => ⟨.other, []⟩

/-- How many insertions observers have not been told of. -/
def pendingCount (d : Document) : Nat :=
  (d.observers.flatMap fun o => o.pending).length

/-! ## Making and moving nodes -/

/-- Makes a node that stands in no other one. -/
def create (d : Document) (data : NodeData) : NodeId × Document :=
  (d.fresh, { d with forest := d.forest ++ .leaf d.fresh data, fresh := d.fresh + 1 })

/-- Makes an element. -/
def createElement (d : Document) (tag : String) : NodeId × Document :=
  d.create (.element (lowerName tag) [])

/-- Notes insertions into a parent for every observer when the parent is the body or below it. -/
def noteInsertions (d : Document) (parent : NodeId) (nodes : List NodeId) : Document :=
  if d.forest.isWithin parent body then
    { d with observers := d.observers.map fun o => { o with pending := o.pending ++ nodes } }
  else d

/-- Why a node cannot be put into another one. -/
inductive InsertFault where
  | unknownNode
  | parentNotElement
  | parentInsideChild
  | referenceIsChild
  | referenceElsewhere
  deriving DecidableEq, Repr

/-- The fault in words. -/
def InsertFault.message : InsertFault → String
  | unknownNode => "unknown node"
  | parentNotElement => "parent is not an element"
  | parentInsideChild => "the new child contains the parent"
  | referenceIsChild => "reference node is the inserted node"
  | referenceElsewhere => "reference node is not a child of parent"

/-- What keeps a child from being put into a parent, in front of a reference node if there is one. -/
def insertFault? (d : Document) (parent child : NodeId) (reference : Option NodeId) :
    Option InsertFault :=
  if !d.forest.contains parent || !d.forest.contains child then some .unknownNode
  else if (d.tag? parent).isNone then some .parentNotElement
  else if d.forest.isWithin parent child then some .parentInsideChild
  else
    match reference with
    | none => none
    | some r =>
      if r = child then some .referenceIsChild
      else if d.parent? r ≠ some parent then some .referenceElsewhere
      else none

/-- Takes a child out of where it is and puts it into a parent. -/
def place (d : Document) (parent child : NodeId) (reference : Option NodeId) : Document :=
  { d with forest := d.forest.move parent child reference }

/-- Puts a child into a parent and notes it, unless something is in the way. -/
def insert (d : Document) (operation : String) (parent child : NodeId) (reference : Option NodeId) :
    Except HostError Document :=
  match d.insertFault? parent child reference with
  | some fault => .error (.rejected operation fault.message)
  | none => .ok ((d.place parent child reference).noteInsertions parent [child])

/-- Moves a child to the end of a parent. -/
def appendChild (d : Document) (parent child : NodeId) : Except HostError Document :=
  d.insert "appendChild" parent child none

/-- Moves a child into a parent, right before a reference node. -/
def insertBefore (d : Document) (parent child reference : NodeId) : Except HostError Document :=
  d.insert "insertBefore" parent child (some reference)

/-- Makes a node at the end of a parent. When it is refused there, it stands in no other one. -/
def appendNew (d : Document) (parent : NodeId) (data : NodeData) : Except HostError NodeId × Document :=
  let (id, d) := d.create data
  match d.appendChild parent id with
  | .ok d => (.ok id, d)
  | .error e => (.error e, d)

/-- Makes an element at the end of a parent. -/
def appendElement (d : Document) (parent : NodeId) (tag : String) : Except HostError NodeId × Document :=
  d.appendNew parent (.element (lowerName tag) [])

/-- Makes a text node at the end of a parent. -/
def appendText (d : Document) (parent : NodeId) (data : Text) : Except HostError NodeId × Document :=
  d.appendNew parent (.text data)

/-- Takes a node out of its parent. -/
def remove (d : Document) (id : NodeId) : Except HostError Document :=
  match d.parent? id with
  | none => .error .detached
  | some _ => .ok { d with forest := d.forest.detach id }

/-! ## Attributes and classes -/

/-- Sets an attribute of an element. -/
def setAttribute (d : Document) (id : NodeId) (name : String) (value : Text) :
    Except HostError Document :=
  match d.data? id with
  | some (.element tag attributes) =>
    let changed := NodeData.element tag (NodeData.setAttribute name value attributes)
    .ok { d with forest := d.forest.modify id fun _ => changed }
  | _ => .error (.rejected "setAttribute" "node is not an element")

/-- Takes an attribute away. -/
def removeAttribute (d : Document) (id : NodeId) (name : String) : Document :=
  { d with
    forest := d.forest.modify id fun
      | .element tag attributes => .element tag (attributes.filter fun a => a.1 ≠ name)
      | data => data }

/-- Adds a class to an element unless it has it. The value of the attribute is kept but for the white
space at its ends. -/
def addClass (d : Document) (id : NodeId) (name : Text) : Except HostError Document :=
  if d.hasClass id name then .ok d
  else
    let before := Text.trim ((d.attribute? id "class").getD [])
    d.setAttribute id "class" (if before.isEmpty then name else before ++ ' ' :: name)

/-- Takes a class away from an element that has a `class` attribute. -/
def removeClass (d : Document) (id : NodeId) (name : Text) : Except HostError Document :=
  match d.attribute? id "class" with
  | none => .ok d
  | some value =>
    d.setAttribute id "class" (Text.unwords ((Text.words value).filter fun w => w ≠ name))

/-- Adds a class to the body or takes it away. -/
def setBodyClass (d : Document) (name : Text) (enabled : Bool) : Except HostError Document :=
  if enabled then d.addClass body name else d.removeClass body name

/-! ## What a pass does to a document -/

/-- Normalizes the body. The text nodes that are dropped stand in no other node afterwards. -/
def normalize (d : Document) : Document :=
  let children := d.forest.childrenOf body
  let dropped := children.droppedTexts.foldr (fun (id, data) f => .node id (.text data) .nil f) .nil
  { d with forest := d.forest.setChildren body children.normalize ++ dropped }

end Document

/-- The tree of new nodes for a specification, numbered from `fresh`, and the next number. -/
def NodeSpec.build (fresh : NodeId) : NodeSpec → Forest × NodeId
  | .text data => (.leaf fresh (.text data), fresh + 1)
  | .element tag attributes content =>
    let attributes := attributes.foldl (fun set (n, v) => NodeData.setAttribute n v set) []
    (.node fresh (.element (lowerName tag) attributes) (.leaf (fresh + 1) (.text content)) .nil,
      fresh + 2)

/-- The trees of new nodes for specifications, one after the other. -/
def NodeSpec.buildAll (fresh : NodeId) : List NodeSpec → Forest × NodeId
  | [] => (.nil, fresh)
  | spec :: rest =>
    let (first, fresh) := spec.build fresh
    let (others, fresh) := buildAll fresh rest
    (first ++ others, fresh)

namespace Document

/-- Puts new nodes in the place of a node. -/
def replaceText (d : Document) (id : NodeId) (specs : List NodeSpec) : Except HostError Document :=
  match d.parent? id with
  | none => .error .detached
  | some parent =>
    let (new, fresh) := NodeSpec.buildAll d.fresh specs
    let changed := { d with
      forest := d.forest.splice id new ++ d.forest.tree id
      fresh := fresh }
    .ok (changed.noteInsertions parent new.roots)

/-- Whether an element carries the identifier. -/
def hasStyle (d : Document) (id : String) : Bool :=
  (d.elementById? id.toList).isSome

/-- Adds a style element to the head. -/
def insertStyle (d : Document) (id css : String) : Except HostError Document := do
  let (style, d) := d.createElement "style"
  let d ← d.setAttribute style "id" id.toList
  let (text, d) := d.create (.text css.toList)
  let d ← d.appendChild style text
  d.appendChild head style

/-! ## Observers -/

/-- Adds an observer. Gives its number. -/
def observe (d : Document) (listener : Listener) : Nat × Document :=
  (d.observers.length, { d with observers := d.observers ++ [⟨listener, []⟩] })

/-- Drops what an observer has not been told of. -/
def takeRecords (d : Document) (observer : Nat) : Document :=
  { d with observers := d.observers.modify observer fun o => { o with pending := [] } }

/-- Takes what observers have not been told of: who is to be told of which nodes, in the order of the
observers that have anything to be told of. -/
def takeBatches (d : Document) : List (Listener × List NodeId) × Document :=
  ((d.observers.filter fun o => !o.pending.isEmpty).map fun o => (o.listener, o.pending),
    { d with observers := d.observers.map fun o => { o with pending := [] } })

/-- Puts a listener among those who wait for the end of loading, when that is still to come. -/
def await? (d : Document) (listener : Listener) : Option Document :=
  if d.loading then some { d with waiting := d.waiting ++ [listener] } else none

/-- Ends loading. Gives those who waited for it. -/
def finishLoading (d : Document) : List Listener × Document :=
  if d.loading then (d.waiting, { d with loading := false, waiting := [] }) else ([], d)

end Document

end MarkedMath
