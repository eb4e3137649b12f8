import MarkedMath.Proofs.Arena.Slots

/-!
# Operations on arenas

The operations of a document as they act on the slots of its nodes, and sequences of them. An operation may
be refused; what it did before it was refused stays done.
-/

namespace MarkedMath.Arena

/-- What an operation does to an arena. -/
abbrev Action (α : Type) : Type :=
  ExceptT HostError (StateT Arena Option) α

namespace Action

/-- The answer of an action and the arena after it, if it has a result at all. -/
def outcome {α : Type} (x : Action α) (a : Arena) : Option (Except HostError α × Arena) :=
  x.run.run a

/-- Makes a node without a parent. -/
def create (data : NodeData) : Action NodeId := do
  let a ← get
  set (a.push data)
  return a.size

/-- Makes an element. -/
def createElement (tag : String) : Action NodeId :=
  create (.element (lowerName tag) [])

/-- Looks whether an insertion into a parent is to be noted. -/
def isNoted (parent : NodeId) : Action Bool := do
  (← get).meets Document.body (some parent)

/-- Puts a child into a parent. -/
def insert (operation : String) (parent child : NodeId) (reference : Option NodeId) : Action Unit := do
  match ← (← get).insert parent child reference with
  | .error fault => throw (.rejected operation fault.message)
  | .ok b => set b
  discard (isNoted parent)

/-- Moves a child to the end of a parent. -/
def appendChild (parent child : NodeId) : Action Unit :=
  insert "appendChild" parent child none

/-- Moves a child into a parent, right before a reference node. -/
def insertBefore (parent child reference : NodeId) : Action Unit :=
  insert "insertBefore" parent child (some reference)

/-- Makes an element at the end of a parent. -/
def appendElement (parent : NodeId) (tag : String) : Action NodeId := do
  let id ← createElement tag
  appendChild parent id
  return id

/-- Makes a text node at the end of a parent. -/
def appendText (parent : NodeId) (data : Text) : Action NodeId := do
  let id ← create (.text data)
  appendChild parent id
  return id

/-- Takes a node out of its parent. -/
def remove (id : NodeId) : Action Unit := do
  let a ← get
  if (a.parent? id).isNone then throw .detached
  set (← a.detach id)

/-- Sets an attribute of an element. -/
def setAttribute (id : NodeId) (name : String) (value : Text) : Action Unit := do
  let a ← get
  if (a.tag? id).isNone then throw (.rejected "setAttribute" "node is not an element")
  set (a.mapAttributes id (NodeData.setAttribute name value))

/-- Takes an attribute away. -/
def removeAttribute (id : NodeId) (name : String) : Action Unit := do
  set ((← get).mapAttributes id fun l => l.filter fun p => p.1 ≠ name)

/-- Adds a class to an element unless it has it. -/
def addClass (id : NodeId) (name : Text) : Action Unit := do
  let a ← get
  if a.hasClass id name then return
  let before := Text.trim ((a.attribute? id "class").getD [])
  setAttribute id "class" (if before.isEmpty then name else before ++ ' ' :: name)

/-- Takes a class away from an element. -/
def removeClass (id : NodeId) (name : Text) : Action Unit := do
  match (← get).attribute? id "class" with
  | none => return
  | some value =>
    setAttribute id "class" (Text.unwords ((Text.words value).filter fun w => w ≠ name))

/-- Normalizes the body. -/
def normalize : Action Unit := do
  set (← (← get).normalize Document.body)

/-- Sets attributes one after the other. -/
def setAttributes (id : NodeId) : List (String × Text) → Action Unit
  | [] => return
  | (name, value) :: rest => do
    setAttribute id name value
    setAttributes id rest

/-- Makes the nodes of a specification. Gives the root. -/
def materialize : NodeSpec → Action NodeId
  | .text data => create (.text data)
  | .element tag attributes content => do
    let id ← createElement tag
    setAttributes id attributes
    discard (appendText id content)
    return id

/-- Makes the nodes of specifications. Gives the roots. -/
def materializeAll : List NodeSpec → Action (List NodeId)
  | [] => return []
  | spec :: rest => do
    let id ← materialize spec
    return id :: (← materializeAll rest)

/-- Puts new nodes in the place of a node. -/
def replaceText (id : NodeId) (specs : List NodeSpec) : Action Unit := do
  if ((← get).parent? id).isNone then throw .detached
  let nodes ← materializeAll specs
  match ← (← get).replace id nodes with
  | .error fault => throw (.rejected "replaceWith" fault.message)
  | .ok (parent, b) =>
    set b
    nodes.forM fun _ => discard (isNoted parent)

/-- Adds a style element to the head. -/
def insertStyle (id css : String) : Action Unit := do
  let style ← createElement "style"
  setAttribute style "id" id.toList
  discard (appendText style css.toList)
  appendChild Document.head style

end Action

/-! ## Sequences of operations -/

/-- The slots of a document without content, as its constructor fills them. -/
def start : Option Arena := do
  let a : Arena := ⟨[]⟩
  let a := a.push (.element "html" [])
  let a := a.push (.element "head" [])
  let a := a.push (.element "body" [])
  let a ← a.attach Document.html Document.head none
  a.attach Document.html Document.body none

/-- The operations of a document, with any nodes. -/
inductive Edit where
  | createElement (tag : String)
  | createText (data : Text)
  | createComment (data : Text)
  | append (parent child : NodeId)
  | insertBefore (parent child reference : NodeId)
  | appendElement (parent : NodeId) (tag : String)
  | appendText (parent : NodeId) (data : Text)
  | remove (node : NodeId)
  | setAttribute (node : NodeId) (name : String) (value : Text)
  | removeAttribute (node : NodeId) (name : String)
  | addClass (node : NodeId) (name : Text)
  | removeClass (node : NodeId) (name : Text)
  | normalize
  | replaceText (node : NodeId) (specs : List NodeSpec)
  | insertStyle (id css : String)

/-- What an edit does. -/
def Edit.action : Edit → Action Unit
  | createElement tag => discard (Action.createElement tag)
  | createText data => discard (Action.create (.text data))
  | createComment data => discard (Action.create (.comment data))
  | append parent child => Action.appendChild parent child
  | insertBefore parent child reference => Action.insertBefore parent child reference
  | appendElement parent tag => discard (Action.appendElement parent tag)
  | appendText parent data => discard (Action.appendText parent data)
  | remove node => Action.remove node
  | setAttribute node name value => Action.setAttribute node name value
  | removeAttribute node name => Action.removeAttribute node name
  | addClass node name => Action.addClass node name
  | removeClass node name => Action.removeClass node name
  | normalize => Action.normalize
  | replaceText node specs => Action.replaceText node specs
  | insertStyle id css => Action.insertStyle id css

/-- The arena after an edit, refused or not. -/
def apply (a : Arena) (e : Edit) : Option Arena :=
  (e.action.outcome a).map Prod.snd

/-- The arena after edits of a document without content. -/
def run (edits : List Edit) : Option Arena := do
  edits.foldlM apply (← start)

end MarkedMath.Arena
