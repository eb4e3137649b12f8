import MarkedMath.Document

/-!
# Arenas

The nodes of a document may be kept in the slots of an arena, each named by the index of its slot. A slot
says which node is the parent, and an element lists its children. Nothing but the operations keeps the two
in step: each of them changes parents and lists one by one, and some of them look up slots that need not be
there or walk from slot to slot. An operation that asks for a slot outside the arena, or that does not come
to an end, has no result. Walks and descents count their steps: one that goes on for longer than there are
slots comes back to a slot that it has been to, so it does not come to an end.
-/

namespace MarkedMath

/-- What a slot holds. Only elements list children. -/
inductive SlotData where
  /-- An element. -/
  | element (tag : String) (attributes : List (String × Text)) (children : List NodeId)
  /-- A text node. -/
  | text (data : Text)
  /-- A comment. -/
  | comment (data : Text)
  deriving DecidableEq, Repr

namespace SlotData

/-- What the slot of a node holds that has these children. -/
def of (children : List NodeId) : NodeData → SlotData
  | .element tag attributes => element tag attributes children
  | .text data => text data
  | .comment data => comment data

/-- What the node is, its children aside. -/
def node : SlotData → NodeData
  | element tag attributes _ => .element tag attributes
  | text data => .text data
  | comment data => .comment data

/-- The children of an element. -/
def children : SlotData → List NodeId
  | element _ _ children => children
  | _ => []

/-- Changes the children of an element. -/
def mapChildren (change : List NodeId → List NodeId) : SlotData → SlotData
  | element tag attributes children => element tag attributes (change children)
  | data => data

/-- Changes the attributes of an element. -/
def mapAttributes (change : List (String × Text) → List (String × Text)) : SlotData → SlotData
  | element tag attributes children => element tag (change attributes) children
  | data => data

end SlotData

/-- A slot. -/
structure Slot where
  /-- The parent of the node. -/
  parent : Option NodeId
  /-- What the node is. -/
  data : SlotData
  deriving DecidableEq, Repr

/-- Changes the children that the slot lists. -/
def Slot.mapChildren (change : List NodeId → List NodeId) (s : Slot) : Slot :=
  { s with data := s.data.mapChildren change }

/-- Slots for nodes. -/
structure Arena where
  /-- The slots. -/
  slots : List Slot
  deriving DecidableEq, Repr

namespace Arena

/-! ## Looking at slots -/

/-- How many slots there are. -/
def size (a : Arena) : Nat :=
  a.slots.length

/-- What a slot holds. -/
def data? (a : Arena) (id : NodeId) : Option SlotData :=
  a.slots[id]?.map Slot.data

/-- What a node is. -/
def node? (a : Arena) (id : NodeId) : Option NodeData :=
  (a.data? id).map SlotData.node

/-- The parent of a node. -/
def parent? (a : Arena) (id : NodeId) : Option NodeId :=
  a.slots[id]?.bind Slot.parent

/-- The children of a node. -/
def children (a : Arena) (id : NodeId) : List NodeId :=
  ((a.data? id).map SlotData.children).getD []

/-- The tag of an element. -/
def tag? (a : Arena) (id : NodeId) : Option String :=
  (a.node? id).bind NodeData.tag?

/-- The value of an attribute. -/
def attribute? (a : Arena) (id : NodeId) (name : String) : Option Text :=
  (a.node? id).bind fun data => data.attribute? name

/-- Whether a class is among the classes of an element. -/
def hasClass (a : Arena) (id : NodeId) (name : Text) : Bool :=
  ((a.node? id).map fun data => data.classes.contains name).getD false

/-- Whether the way from a node through its parents meets `ancestor`, the node itself included, when the way
ends after that many nodes. -/
def meetsWithin (a : Arena) (ancestor : NodeId) : Nat → Option NodeId → Option Bool
  | _, none => some false
  | 0, some _ => none
  | steps + 1, some id =>
    if id = ancestor then some true else a.meetsWithin ancestor steps (a.parent? id)

/-- Whether the way from a node through its parents meets `ancestor`, the node itself included. -/
def meets (a : Arena) (ancestor : NodeId) (node : Option NodeId) : Option Bool :=
  -- the first node may stand outside
  a.meetsWithin ancestor (a.size + 1) node

/-! ## Changing slots -/

/-- Changes a slot when it is there. -/
def modify (a : Arena) (id : NodeId) (change : Slot → Slot) : Arena :=
  ⟨a.slots.modify id change⟩

/-- Changes the children of an element. -/
def mapChildren (a : Arena) (id : NodeId) (change : List NodeId → List NodeId) : Arena :=
  a.modify id (Slot.mapChildren change)

/-- Changes the attributes of an element. -/
def mapAttributes (a : Arena) (id : NodeId) (change : List (String × Text) → List (String × Text)) :
    Arena :=
  a.modify id fun s => { s with data := s.data.mapAttributes change }

/-- Sets the parent of a node, which has to be there. -/
def setParent (a : Arena) (id : NodeId) (parent : Option NodeId) : Option Arena :=
  if id < a.size then some (a.modify id fun s => { s with parent }) else none

/-- One more slot, for a node without parent and children. -/
def push (a : Arena) (data : NodeData) : Arena :=
  ⟨a.slots ++ [⟨none, .of [] data⟩]⟩

/-- Takes a node out of its parent. -/
def detach (a : Arena) (id : NodeId) : Option Arena :=
  match a.parent? id with
  | none => some a
  | some parent => (a.mapChildren parent fun l => l.filter (· ≠ id)).setParent id none

/-- Puts a child into an element, at an index or at the end. The index must not lie behind the end. -/
def attach (a : Arena) (parent child : NodeId) (index : Option Nat) : Option Arena :=
  match a.data? parent with
  | some (.element _ _ children) =>
    let place := index.getD children.length
    if place ≤ children.length then
      (a.mapChildren parent fun l => l.insertIdx place child).setParent child (some parent)
    else none
  | _ => some a

/-! ## Moving nodes -/

/-- Moves a child into a parent, right before a reference node if there is one. -/
def insert (a : Arena) (parent child : NodeId) (reference : Option NodeId) :
    Option (Except Document.InsertFault Arena) :=
  if ¬ (parent < a.size ∧ child < a.size) then some (.error .unknownNode)
  else if (a.tag? parent).isNone then some (.error .parentNotElement)
  else do
    if ← a.meets child (some parent) then return .error .parentInsideChild
    if reference = some child then return .error .referenceIsChild
    if reference.any fun r => a.parent? r ≠ some parent then return .error .referenceElsewhere
    let b ← a.detach child
    let index := reference.bind fun r => (b.children parent).idxOf? r
    return .ok (← b.attach parent child index)

/-- Why nodes cannot take the place of a node. -/
inductive ReplaceFault where
  | detached
  | unknownNode
  | alreadyAttached
  | containsParent
  | listedTwice
  | notAmongChildren
  deriving DecidableEq, Repr

/-- The fault in words. -/
def ReplaceFault.message : ReplaceFault → String
  | detached => "node is detached"
  | unknownNode => "unknown node"
  | alreadyAttached => "replacement node is already attached"
  | containsParent => "the new child contains the parent"
  | listedTwice => "replacement node is listed twice"
  | notAmongChildren => "node is not a child of its parent"

/-- What keeps nodes from taking the place of a child of `parent`; the nodes in `checked` stand before
them in the list. -/
def replaceFault? (a : Arena) (node parent : NodeId) (checked : List NodeId) :
    List NodeId → Option (Option ReplaceFault)
  | [] => some none
  | child :: rest =>
    if ¬ child < a.size then some (some .unknownNode)
    else if child = node ∨ (a.parent? child).isSome then some (some .alreadyAttached)
    else do
      if ← a.meets child (some parent) then return some .containsParent
      if child ∈ checked then return some .listedTwice
      a.replaceFault? node parent (checked ++ [child]) rest

/-- Puts nodes without parents in the place of a node. Gives the parent. -/
def replace (a : Arena) (node : NodeId) (replacement : List NodeId) :
    Option (Except ReplaceFault (NodeId × Arena)) :=
  match a.parent? node with
  | none => some (.error .detached)
  | some parent => do
    if let some fault ← a.replaceFault? node parent [] replacement then return .error fault
    match (a.children parent).idxOf? node with
    | none => return .error .notAmongChildren
    | some index =>
      let b := a.mapChildren parent fun l => l.take index ++ replacement ++ l.drop (index + 1)
      let b ← b.setParent node none
      let b ← replacement.foldlM (fun b child => b.setParent child (some parent)) b
      return .ok (parent, b)

/-! ## Merging texts -/

/-- Merges texts among children of a node, where `kept` are the children kept before. Elements among them
are normalized by `inner`. -/
def merge (inner : Arena → NodeId → Option Arena) (a : Arena) (kept : List NodeId) :
    List NodeId → Option (Arena × List NodeId)
  | [] => some (a, kept)
  | child :: rest => do
    match ← a.data? child with
    | .element .. => merge inner (← inner a child) (kept ++ [child]) rest
    | .comment _ => merge inner a (kept ++ [child]) rest
    | .text data =>
      if data.isEmpty then
        merge inner (← a.setParent child none) kept rest
      else
        match kept.getLast? with
        | none => merge inner a (kept ++ [child]) rest
        | some last =>
          match ← a.data? last with
          | .text before =>
            let b := a.modify last fun s => { s with data := .text (before ++ data) }
            merge inner (← b.setParent child none) kept rest
          | _ => merge inner a (kept ++ [child]) rest

/-- Merges adjacent text nodes below a node and drops empty ones, when that many levels are enough. -/
def normalizeWithin : Nat → Arena → NodeId → Option Arena
  | 0, _, _ => none
  | levels + 1, a, id => do
    let (b, kept) ← a.merge (normalizeWithin levels) [] (a.children id)
    return b.mapChildren id fun _ => kept

/-- Merges adjacent text nodes below a node and drops empty ones. -/
def normalize (a : Arena) (id : NodeId) : Option Arena :=
  a.normalizeWithin (a.size + 1) id

end Arena

end MarkedMath
