import MarkedMath.Text

/-!
# Forests of nodes

The nodes of a document, attached or not, form a forest: a sequence of trees, each given by its root
node, the forest of the root's children and the forest of the trees behind it. Every node has a number,
and all operations name nodes by number.
-/

namespace MarkedMath

/-- The number of a node. -/
abbrev NodeId := Nat

/-- What a node is, its children aside. -/
inductive NodeData where
  /-- An element with its attributes in order. -/
  | element (tag : String) (attributes : List (String × Text))
  /-- A text node. -/
  | text (data : Text)
  /-- A comment. -/
  | comment (data : Text)
  deriving DecidableEq, Repr

namespace NodeData

/-- The tag of an element. -/
def tag? : NodeData → Option String
  | element tag _ => some tag
  | _ => none

/-- Whether the node is an element. -/
def isElement (data : NodeData) : Bool :=
  data.tag?.isSome

/-- The data of a text node. -/
def text? : NodeData → Option Text
  | text data => some data
  | _ => none

/-- The attributes of an element. -/
def attributes : NodeData → List (String × Text)
  | element _ attributes => attributes
  | _ => []

/-- The value of an attribute. -/
def attribute? (data : NodeData) (name : String) : Option Text :=
  (data.attributes.find? fun a => a.1 = name).map Prod.snd

/-- The attributes with one of them set: in its place when it is there, at the end otherwise. -/
def setAttribute (name : String) (value : Text) : List (String × Text) → List (String × Text)
  | [] => [(name, value)]
  | (n, v) :: rest => if n = name then (n, value) :: rest else (n, v) :: setAttribute name value rest

/-- The words of the `class` attribute. -/
def classes (data : NodeData) : List Text :=
  match data.attribute? "class" with
  | some value => Text.words value
  | none => []

end NodeData

/-- A sequence of trees. -/
inductive Forest where
  /-- No tree. -/
  | nil
  /-- A tree and the trees behind it. -/
  | node (id : NodeId) (data : NodeData) (children next : Forest)
  deriving DecidableEq, Repr

namespace Forest

/-- Two sequences one after the other. -/
def append : Forest → Forest → Forest
  | nil, g => g
  | node id data children next, g => node id data children (append next g)

instance : Append Forest := ⟨append⟩

/-- The tree of a single node. -/
def leaf (id : NodeId) (data : NodeData) : Forest :=
  node id data nil nil

/-- Whether there is no tree. -/
def isEmpty : Forest → Bool
  | nil => true
  | node .. => false

/-! ## Looking at nodes -/

/-- The numbers of all nodes in document order. -/
def ids : Forest → List NodeId
  | nil => []
  | node id _ children next => id :: (children.ids ++ next.ids)

/-- The numbers of the roots in order. -/
def roots : Forest → List NodeId
  | nil => []
  | node id _ _ next => id :: next.roots

/-- A node with the forest of its children. -/
def find? (id : NodeId) : Forest → Option (NodeData × Forest)
  | nil => none
  | node i data children next =>
    if i = id then some (data, children) else (children.find? id).or (next.find? id)

/-- Whether the node is there. -/
def contains (id : NodeId) (f : Forest) : Bool :=
  (f.find? id).isSome

/-- What a node is. -/
def data? (id : NodeId) (f : Forest) : Option NodeData :=
  (f.find? id).map Prod.fst

/-- The children of a node; a node that is not there has none. -/
def childrenOf (id : NodeId) (f : Forest) : Forest :=
  ((f.find? id).map Prod.snd).getD nil

/-- The tree below a node, the node included. -/
def tree (id : NodeId) (f : Forest) : Forest :=
  match f.find? id with
  | some (data, children) => node id data children nil
  | none => nil

/-- The parent of a node. Roots have none. -/
def parent? (id : NodeId) : Forest → Option NodeId
  | nil => none
  | node i _ children next =>
    if children.roots.contains id then some i else (children.parent? id).or (next.parent? id)

/-- Whether a node is another one or lies below it. -/
def isWithin (f : Forest) (id ancestor : NodeId) : Bool :=
  id = ancestor || (f.childrenOf ancestor).contains id

/-- The node that follows another one among its siblings, if there is one. -/
def nextSibling? (id : NodeId) : Forest → Option NodeId
  | nil => none
  | node i _ children next =>
    if i = id then next.roots.head? else (children.nextSibling? id).or (next.nextSibling? id)

/-- The text of the forest without its comments. -/
def textContent : Forest → Text
  | nil => []
  | node _ data children next =>
    (match data with
      | .text data => data
      | .element _ _ => children.textContent
      | .comment _ => []) ++ next.textContent

/-- The elements that satisfy a condition, in document order. -/
def elements (p : NodeData → Bool) : Forest → List NodeId
  | nil => []
  | node id data children next =>
    if data.isElement then
      (if p data then [id] else []) ++ (children.elements p ++ next.elements p)
    else next.elements p

/-- The first node in document order that satisfies a condition. -/
def first? (p : NodeData → Bool) : Forest → Option NodeId
  | nil => none
  | node id data children next =>
    if p data then some id else (children.first? p).or (next.first? p)

/-! ## Changing nodes -/

/-- Changes what a node is. -/
def modify (id : NodeId) (change : NodeData → NodeData) : Forest → Forest
  | nil => nil
  | node i data children next =>
    if i = id then node i (change data) children next
    else node i data (children.modify id change) (next.modify id change)

/-- Puts another forest in the place of a node and all below it. -/
def splice (f : Forest) (id : NodeId) (replacement : Forest) : Forest :=
  match f with
  | nil => nil
  | node i data children next =>
    if i = id then replacement ++ next
    else node i data (children.splice id replacement) (next.splice id replacement)

/-- The forest without a node and all below it. -/
def erase (f : Forest) (id : NodeId) : Forest :=
  f.splice id nil

/-- Puts a forest right before a node. -/
def insertBefore (f : Forest) (id : NodeId) (new : Forest) : Forest :=
  match f with
  | nil => nil
  | node i data children next =>
    if i = id then new ++ node i data children next
    else node i data (children.insertBefore id new) (next.insertBefore id new)

/-- Puts a forest behind the children of a node. -/
def appendTo (f : Forest) (id : NodeId) (new : Forest) : Forest :=
  match f with
  | nil => nil
  | node i data children next =>
    if i = id then node i data (children ++ new) next
    else node i data (children.appendTo id new) (next.appendTo id new)

/-- Takes the tree of a node out of where it is and puts it into a parent: right before a reference node,
or behind the children when there is none. -/
def move (f : Forest) (parent child : NodeId) (reference : Option NodeId) : Forest :=
  let moved := f.tree child
  let others := f.erase child
  match reference with
  | some r => others.insertBefore r moved
  | none => others.appendTo parent moved

/-- Takes the tree of a node out of where it is and puts it behind all trees. -/
def detach (f : Forest) (id : NodeId) : Forest :=
  f.erase id ++ f.tree id

/-- Puts a forest in the place of the children of a node. -/
def setChildren (f : Forest) (id : NodeId) (new : Forest) : Forest :=
  match f with
  | nil => nil
  | node i data children next =>
    if i = id then node i data new next
    else node i data (children.setChildren id new) (next.setChildren id new)

end Forest

end MarkedMath
