import MarkedMath.Tree.Forest

/-!
# Normal forests

A forest is normal when no text node is empty and no two text nodes are neighbours. Normalizing keeps
the first non-empty node of each run of text nodes, with the text of the whole run, and drops the other
text nodes of the run.
-/

namespace MarkedMath.Forest

/-- The kept node of a run of text nodes, in front of what follows the run. -/
def closeRun (run : Option (NodeId × Text)) (f : Forest) : Forest :=
  match run with
  | none => f
  | some (id, data) => node id (.text data) nil f

/-- The normal form of a forest, where `run` is the node that is kept for the run of text nodes right
before it, and the text nodes that are dropped, in document order. -/
def normalizeRun (run : Option (NodeId × Text)) : Forest → Forest × List (NodeId × Text)
  | nil => (closeRun run nil, [])
  | node id data children next =>
    match data with
    | .text data =>
      if data.isEmpty then
        let (f, dropped) := normalizeRun run next
        (f, (id, data) :: dropped)
      else
        match run with
        | none => normalizeRun (some (id, data)) next
        | some (kept, before) =>
          let (f, dropped) := normalizeRun (some (kept, before ++ data)) next
          (f, (id, data) :: dropped)
    | data =>
      let (children, below) := normalizeRun none children
      let (f, behind) := normalizeRun none next
      (closeRun run (node id data children f), below ++ behind)

/-- The normal form of a forest. -/
def normalize (f : Forest) : Forest :=
  (normalizeRun none f).1

/-- The text nodes that normalizing drops, with their data. -/
def droppedTexts (f : Forest) : List (NodeId × Text) :=
  (normalizeRun none f).2

end MarkedMath.Forest
