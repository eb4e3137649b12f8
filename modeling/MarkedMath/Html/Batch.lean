import MarkedMath.Html.Process

/-!
# Batches of documents

Many documents are converted by workers that share three counters. What a worker does to the counters is
a list of steps, and the counters depend on all steps of all workers, in whatever order they come. The
counters hold words of 32 bits.
-/

namespace MarkedMath.Html

/-- A document of a batch. -/
structure BatchInput where
  /-- What the caller knows it by. -/
  id : String
  /-- The document. -/
  html : Text
  deriving DecidableEq, Repr

/-- What became of a document. -/
structure BatchResult where
  /-- What the caller knows it by. -/
  id : String
  /-- The converted document, or why it could not be converted. -/
  outcome : Except AmbiguousTag Converted

/-- Whether the document could not be converted. -/
def BatchResult.isFailure (r : BatchResult) : Bool :=
  match r.outcome with
  | .ok _ => false
  | .error _ => true

/-- Converts a document of a batch. -/
def BatchInput.convert (s : CheckedSettings) (input : BatchInput) : BatchResult :=
  ⟨input.id, process s input.html⟩

/-- A step of a worker on the shared counters. -/
inductive CounterStep where
  /-- One more document was converted. -/
  | success
  /-- One more document could not be converted. -/
  | failure
  /-- So many more equations were converted. -/
  | equations (count : UInt32)
  deriving DecidableEq, Repr

/-- The steps that a document gives rise to, in the order in which its worker takes them. -/
def BatchResult.steps (r : BatchResult) : List CounterStep :=
  match r.outcome with
  | .ok converted => [.success, .equations converted.counts.total.toUInt32]
  | .error _ => [.failure]

/-- The shared counters. -/
structure Counters where
  /-- Documents converted. -/
  succeeded : UInt32 := 0
  /-- Documents that could not be converted. -/
  failed : UInt32 := 0
  /-- Equations converted in all documents. -/
  equations : UInt32 := 0
  deriving DecidableEq, Repr

/-- The counters after one more step. -/
def Counters.step (c : Counters) : CounterStep → Counters
  | .success => { c with succeeded := c.succeeded + 1 }
  | .failure => { c with failed := c.failed + 1 }
  | .equations count => { c with equations := c.equations + count }

/-- The counters after all steps. -/
def Counters.after (steps : List CounterStep) : Counters :=
  steps.foldl Counters.step {}

/-- The results up to the first failure, which is the last one. -/
def untilFailure : List BatchResult → List BatchResult
  | [] => []
  | r :: rest => if r.isFailure then [r] else r :: untilFailure rest

/-- A converted batch. -/
structure Batch where
  /-- What became of the documents, in their order. -/
  results : List BatchResult
  /-- The number of documents that the batch was given. -/
  total : UInt32
  /-- The counters at the end. -/
  counters : Counters

/-- The results of a batch. A batch that does not go on after a failure ends with it. -/
def batchResults (s : CheckedSettings) (continueOnError : Bool) (inputs : List BatchInput) :
    List BatchResult :=
  let results := inputs.map (BatchInput.convert s)
  if continueOnError then results else untilFailure results

/-- Converts a batch, one document after the other. -/
def convertBatch (s : CheckedSettings) (continueOnError : Bool) (inputs : List BatchInput) : Batch :=
  let results := batchResults s continueOnError inputs
  ⟨results, inputs.length.toUInt32, .after (results.flatMap BatchResult.steps)⟩

/-- Why a processor refuses what it is asked for. -/
inductive Refusal where
  /-- The settings have a fault. -/
  | settings (fault : SettingsFault)
  /-- The document cannot be converted. -/
  | document (e : AmbiguousTag)
  deriving DecidableEq, Repr

/-- The refusal in words. -/
def Refusal.message : Refusal → String
  | settings fault => "Config error: " ++ fault.message
  | document e => "Rewrite error: " ++ e.message

end MarkedMath.Html
