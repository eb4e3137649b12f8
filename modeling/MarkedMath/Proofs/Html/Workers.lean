import Mathlib.Algebra.GroupWithZero.Nat
import Mathlib.Data.List.Induction
import Mathlib.Data.List.Perm.Basic
import MarkedMath.Html.Batch

/-!
# Workers of a batch

The documents of a batch are converted by workers that share three counters. Here a turn is one step of the work
on one document: the document is converted, or one more of its steps is taken on the counters, or its result is
handed in. A schedule says which document is worked on at each turn, so every order in which any number of
workers may come to their turns is a schedule.

What a turn takes off the steps that are due it adds to the steps that the counters have seen
(`Workshop.Accounts.turn`), and no turn changes a result. The counters do not depend on the order of their steps
(`Counters.after_perm`), so when all results are in, they and the counters are those of the batch converted one
document after the other. A batch that stops at a failure is converted in turn by a loop of its own.
-/

namespace MarkedMath.Html

/-! ## Counters and the order of their steps -/

namespace Counters

instance : RightCommutative step where
  right_comm c a b := by
    have hadd (x y z : UInt32) : x + y + z = x + z + y := by
      rw [UInt32.add_assoc, UInt32.add_comm y z, UInt32.add_assoc]
    cases a <;> cases b <;> simp [step, hadd]

/-- The counters depend on which steps were taken, but not on their order. -/
lemma after_perm {steps steps' : List CounterStep} (h : steps.Perm steps') : after steps = after steps' :=
  h.foldl_eq (f := step) {}

lemma after_concat (steps : List CounterStep) (one : CounterStep) :
    after (steps ++ [one]) = (after steps).step one := by
  simp [after]

end Counters

/-- The number of equations in a result. -/
def BatchResult.total (r : BatchResult) : Nat :=
  match r.outcome with
  | .ok converted => converted.counts.total
  | .error _ => 0

/-- What the counters hold when they agree with results: how many documents were converted, how many were not,
and the equations in all of them, each as a word of 32 bits. -/
def Counters.ofResults (results : List BatchResult) : Counters where
  succeeded := (results.countP fun r => !r.isFailure).toUInt32
  failed := (results.countP BatchResult.isFailure).toUInt32
  equations := (results.map BatchResult.total).sum.toUInt32

lemma Counters.foldl_steps (results : List BatchResult) (c : Counters) :
    (results.flatMap BatchResult.steps).foldl step c =
      ⟨c.succeeded + (ofResults results).succeeded, c.failed + (ofResults results).failed,
        c.equations + (ofResults results).equations⟩ := by
  have hnext (x : UInt32) (n : Nat) : x + 1 + n.toUInt32 = x + (n + 1).toUInt32 := by
    rw [Nat.add_comm n 1, UInt32.add_assoc]
    exact congrArg (x + ·) (UInt32.ofNat_add 1 n).symm
  induction results generalizing c with
  | nil => simp [ofResults]
  | cons r results ih =>
    rw [List.flatMap_cons, List.foldl_append, ih]
    obtain ⟨id, outcome⟩ := r
    cases outcome with
    | ok converted =>
      have htotal (x : UInt32) (n : Nat) : x + converted.counts.total.toUInt32 + n.toUInt32 =
          x + (converted.counts.total + n).toUInt32 := by
        rw [UInt32.add_assoc]
        exact congrArg (x + ·) (UInt32.ofNat_add _ n).symm
      simp [BatchResult.steps, step, ofResults, BatchResult.isFailure, BatchResult.total, hnext, htotal]
    | error e =>
      have hfailure : BatchResult.isFailure ⟨id, .error e⟩ = true := rfl
      simp [BatchResult.steps, step, ofResults, hfailure, BatchResult.total, hnext]

/-- After the steps of all results the counters agree with them. -/
lemma Counters.after_steps (results : List BatchResult) :
    after (results.flatMap BatchResult.steps) = ofResults results := by
  simp [after, foldl_steps]

/-! ## Turns -/

/-- The work on one document. -/
inductive Job where
  /-- Nobody has begun with it. -/
  | waiting (input : BatchInput)
  /-- The document is converted, and steps on the counters are left to be taken. -/
  | counting (result : BatchResult) (due : List CounterStep)
  /-- The result is handed in. -/
  | finished (result : BatchResult)

namespace Job

variable (s : CheckedSettings)

/-- A turn of the work on one document. -/
def turn (c : Counters) : Job → Job × Counters
  | waiting input => (counting (input.convert s) (input.convert s).steps, c)
  | counting result (one :: due) => (counting result due, c.step one)
  | counting result [] => (finished result, c)
  | finished result => (finished result, c)

/-- The result that was handed in. -/
def result? : Job → Option BatchResult
  | finished result => some result
  | _ => none

/-- The result of the work, whether it has been handed in or not. -/
def outcome : Job → BatchResult
  | waiting input => input.convert s
  | counting result _ => result
  | finished result => result

/-- The steps on the counters that are still to be taken. -/
def due : Job → List CounterStep
  | waiting input => (input.convert s).steps
  | counting _ due => due
  | finished _ => []

/-- How many turns are left. -/
def turnsLeft : Job → Nat
  | waiting input => (input.convert s).steps.length + 2
  | counting _ due => due.length + 1
  | finished _ => 0

variable {s} {job : Job} {c : Counters}

lemma outcome_turn (job : Job) (c : Counters) : (job.turn s c).1.outcome s = job.outcome s := by
  cases job with
  | counting result due => cases due <;> rfl
  | _ => rfl

/-- A turn takes at most one step on the counters, the next one that is due. -/
lemma turn_cases (job : Job) (c : Counters) :
    (∃ one, job.due s = one :: (job.turn s c).1.due s ∧ (job.turn s c).2 = c.step one) ∨
      (job.due s = (job.turn s c).1.due s ∧ (job.turn s c).2 = c) := by
  cases job with
  | counting result due =>
    cases due with
    | nil => exact Or.inr ⟨rfl, rfl⟩
    | cons one due => exact Or.inl ⟨one, rfl, rfl⟩
  | _ => exact Or.inr ⟨rfl, rfl⟩

lemma turnsLeft_turn (h : job.result? = none) (c : Counters) :
    (job.turn s c).1.turnsLeft s < job.turnsLeft s := by
  cases job with
  | waiting input => exact Nat.lt_succ_self _
  | counting result due => cases due <;> simp [turn, turnsLeft]
  | finished result => cases h

lemma of_result? {result : BatchResult} (h : job.result? = some result) :
    job.outcome s = result ∧ job.due s = [] := by
  cases job with
  | finished r => exact ⟨Option.some.inj h, rfl⟩
  | waiting _ => cases h
  | counting _ _ => cases h

end Job

/-- The work on all documents of a batch, and the counters. -/
structure Workshop where
  /-- The work on each document, in the order of the documents. -/
  jobs : List Job
  /-- The counters. -/
  counters : Counters

namespace Workshop

variable (s : CheckedSettings)

/-- Before anybody has begun. -/
def start (inputs : List BatchInput) : Workshop :=
  ⟨inputs.map .waiting, {}⟩

/-- A turn of the work on the document with an index. -/
def turn (w : Workshop) (index : Nat) : Workshop :=
  match w.jobs[index]? with
  | none => w
  | some job => ⟨w.jobs.set index (job.turn s w.counters).1, (job.turn s w.counters).2⟩

/-- The turns of a schedule, one after the other. -/
def run (w : Workshop) (schedule : List Nat) : Workshop :=
  schedule.foldl (turn s) w

/-- The results in the order of the documents, once all of them are handed in. -/
def results? (w : Workshop) : Option (List BatchResult) :=
  w.jobs.mapM Job.result?

/-- What holds of the work on documents at any time: each job leads to the result of its document, and the
counters have seen the steps of all results but those that are due. -/
structure Accounts (inputs : List BatchInput) (w : Workshop) : Prop where
  /-- The results are those of the documents by themselves. -/
  outcomes : w.jobs.map (Job.outcome s) = inputs.map (BatchInput.convert s)
  /-- The steps taken and those that are due are those of all results. -/
  counters : ∃ taken, w.counters = .after taken ∧
    (taken ++ w.jobs.flatMap (Job.due s)).Perm ((inputs.map (BatchInput.convert s)).flatMap BatchResult.steps)

variable {s} {inputs : List BatchInput} {w : Workshop}

lemma accounts_start (inputs : List BatchInput) : (start inputs).Accounts s inputs where
  outcomes := by simp [start, Job.outcome]
  counters := ⟨[], rfl, by simp [start, List.flatMap_map, Job.due]⟩

/-- A turn of a job that there is leaves the jobs around it. -/
lemma turn_of_lt (s : CheckedSettings) (w : Workshop) {index : Nat} (hlt : index < w.jobs.length) :
    ∃ before after, w.jobs = before ++ w.jobs[index] :: after ∧ before.length = index ∧
      w.turn s index = ⟨before ++ (w.jobs[index].turn s w.counters).1 :: after,
        (w.jobs[index].turn s w.counters).2⟩ := by
  have hset : ∀ job, ∃ before after, w.jobs = before ++ w.jobs[index] :: after ∧ before.length = index ∧
      w.jobs.set index job = before ++ job :: after := fun _ => List.exists_of_set hlt
  obtain ⟨before, after, hjobs, hlength, hset⟩ := hset (w.jobs[index].turn s w.counters).1
  refine ⟨before, after, hjobs, hlength, ?_⟩
  rw [turn, List.getElem?_eq_getElem hlt, ← hset]

/-- A turn either finds no work or is a turn of one job among the others. -/
lemma turn_eq (s : CheckedSettings) (w : Workshop) (index : Nat) :
    w.turn s index = w ∨ ∃ before job after, w.jobs = before ++ job :: after ∧ before.length = index ∧
      w.turn s index = ⟨before ++ (job.turn s w.counters).1 :: after, (job.turn s w.counters).2⟩ := by
  by_cases hlt : index < w.jobs.length
  · obtain ⟨before, after, hturn⟩ := turn_of_lt s w hlt
    exact Or.inr ⟨before, _, after, hturn⟩
  · exact Or.inl (by rw [turn, List.getElem?_eq_none (by omega)])

/-- What a turn takes off the steps that are due the counters have seen. -/
lemma Accounts.turn (h : w.Accounts s inputs) (index : Nat) : (w.turn s index).Accounts s inputs := by
  rcases turn_eq s w index with heq | ⟨before, job, after, hjobs, -, heq⟩
  · rwa [heq]
  obtain ⟨houtcomes, taken, hcounters, hperm⟩ := h
  rw [hjobs] at houtcomes hperm
  rw [heq]
  refine ⟨?_, ?_⟩
  · simpa [Job.outcome_turn] using houtcomes
  · rcases Job.turn_cases (s := s) job w.counters with ⟨one, hdue, hstep⟩ | ⟨hdue, hstep⟩
    · refine ⟨taken ++ [one], ?_, ?_⟩
      · rw [hstep, hcounters, Counters.after_concat]
      · refine List.Perm.trans ?_ hperm
        simp only [List.flatMap_append, List.flatMap_cons, hdue, List.append_assoc, List.cons_append,
          List.nil_append]
        exact List.perm_middle.symm.append_left taken
    · refine ⟨taken, hstep.trans hcounters, ?_⟩
      simpa only [List.flatMap_append, List.flatMap_cons, ← hdue] using hperm

lemma accounts_run (inputs : List BatchInput) (schedule : List Nat) :
    ((start inputs).run s schedule).Accounts s inputs := by
  induction schedule using List.reverseRecOn with
  | nil => exact accounts_start inputs
  | append_singleton schedule index ih =>
    rw [run, List.foldl_append]
    exact ih.turn index

/-- When all results are in, nothing is due. -/
lemma of_results? {jobs : List Job} {results : List BatchResult} (h : jobs.mapM Job.result? = some results) :
    jobs.map (Job.outcome s) = results ∧ jobs.flatMap (Job.due s) = [] := by
  induction jobs generalizing results with
  | nil =>
    obtain rfl : [] = results := by simpa using h
    exact ⟨rfl, rfl⟩
  | cons job jobs ih =>
    rw [List.mapM_cons] at h
    obtain ⟨result, hresult, h⟩ := Option.bind_eq_some_iff.1 h
    obtain ⟨others, hothers, h⟩ := Option.bind_eq_some_iff.1 h
    obtain rfl : result :: others = results := by simpa using h
    obtain ⟨houtcome, hdue⟩ := Job.of_result? (s := s) hresult
    obtain ⟨houtcomes, hdues⟩ := ih hothers
    simp [houtcome, hdue, houtcomes, hdues]

/-- Whatever the schedule, the results and the counters are those of the documents by themselves. -/
lemma of_run {schedule : List Nat} {results : List BatchResult}
    (h : ((start inputs).run s schedule).results? = some results) :
    results = inputs.map (BatchInput.convert s) ∧
      ((start inputs).run s schedule).counters = .ofResults (inputs.map (BatchInput.convert s)) := by
  obtain ⟨houtcomes, taken, hcounters, hperm⟩ := accounts_run (s := s) inputs schedule
  obtain ⟨hresults, hdue⟩ := of_results? (s := s) h
  rw [hdue, List.append_nil] at hperm
  refine ⟨hresults.symm.trans houtcomes, ?_⟩
  rw [hcounters, Counters.after_perm hperm, Counters.after_steps]

/-! ## No schedule is stuck -/

lemma isSome_results {jobs : List Job} (h : ∀ job ∈ jobs, job.result? ≠ none) :
    (jobs.mapM Job.result?).isSome = true := by
  induction jobs with
  | nil => rfl
  | cons job jobs ih =>
    obtain ⟨result, hresult⟩ := Option.ne_none_iff_exists'.1 (h job (List.mem_cons_self ..))
    obtain ⟨others, hothers⟩ :=
      Option.isSome_iff_exists.1 (ih fun other hother => h other (List.mem_cons_of_mem job hother))
    simp [List.mapM_cons, hresult, hothers]

/-- While a result is missing, some turn brings the work on. -/
lemma exists_turn (h : w.results? = none) :
    ∃ index, ((w.turn s index).jobs.map (Job.turnsLeft s)).sum < (w.jobs.map (Job.turnsLeft s)).sum := by
  obtain ⟨job, hmem, hnone⟩ : ∃ job ∈ w.jobs, job.result? = none := by
    by_contra hall
    push Not at hall
    have hsome := isSome_results hall
    rw [← results?, h] at hsome
    cases hsome
  obtain ⟨index, hlt, rfl⟩ := List.getElem_of_mem hmem
  refine ⟨index, ?_⟩
  obtain ⟨before, after, hjobs, -, hturn⟩ := turn_of_lt s w hlt
  have hless := Job.turnsLeft_turn (s := s) hnone w.counters
  have hsum := congrArg (fun jobs => (jobs.map (Job.turnsLeft s)).sum) hjobs
  simp only [List.map_append, List.map_cons, List.sum_append, List.sum_cons] at hsum
  rw [hturn]
  simp only [List.map_append, List.map_cons, List.sum_append, List.sum_cons]
  omega

/-- Every schedule can be brought to its end. -/
lemma exists_run (w : Workshop) : ∃ more, (w.run s more).results?.isSome = true := by
  induction hleft : (w.jobs.map (Job.turnsLeft s)).sum using Nat.strongRecOn generalizing w with
  | _ left ih =>
    cases hresults : w.results? with
    | some results => exact ⟨[], by simp [run, hresults]⟩
    | none =>
      obtain ⟨index, hless⟩ := exists_turn (s := s) hresults
      obtain ⟨more, hmore⟩ := ih _ (hleft ▸ hless) (w.turn s index) rfl
      exact ⟨index :: more, hmore⟩

end Workshop

/-! ## Batches that stop at a failure -/

/-- Converts documents in turn up to the first failure. Gives the results so far followed by the new ones, and
the counters. -/
def convertInTurn (s : CheckedSettings) (results : List BatchResult) (c : Counters) :
    List BatchInput → List BatchResult × Counters
  | [] => (results, c)
  | input :: rest =>
    let result := input.convert s
    let c := result.steps.foldl Counters.step c
    if result.isFailure then (results ++ [result], c)
    else convertInTurn s (results ++ [result]) c rest

lemma untilFailure_eq_take (results : List BatchResult) :
    untilFailure results = results.take (results.findIdx BatchResult.isFailure + 1) := by
  induction results with
  | nil => rfl
  | cons r results ih =>
    rw [untilFailure, List.findIdx_cons]
    cases hr : r.isFailure with
    | true => simp
    | false => simp [ih]

lemma convertInTurn_eq (s : CheckedSettings) (inputs : List BatchInput) (results : List BatchResult) (c : Counters) :
    convertInTurn s results c inputs =
      (results ++ untilFailure (inputs.map (BatchInput.convert s)),
        ((untilFailure (inputs.map (BatchInput.convert s))).flatMap BatchResult.steps).foldl Counters.step c) := by
  induction inputs generalizing results c with
  | nil => simp [convertInTurn, untilFailure]
  | cons input inputs ih =>
    rw [convertInTurn, List.map_cons, untilFailure]
    cases hr : (input.convert s).isFailure with
    | true => simp
    | false => simp [ih]

/-! ## Batches -/

/-- How a batch is to be converted. -/
structure BatchOptions where
  /-- How many workers there may be at most. It has no part in what a turn does. -/
  maxThreads : Option UInt32 := none
  /-- Whether the batch goes on after a failure, which it does when nothing is said. -/
  continueOnError : Option Bool := none

/-- Whether the batch goes on after a failure. -/
def BatchOptions.goesOn (o : BatchOptions) : Bool :=
  o.continueOnError.getD true

/-- **The results of a batch do not depend on the schedule.** A batch that is not told to stop at a failure has,
in the order of its documents, the identifier of each with what becomes of the document by itself; those are the
results, and with them the counters, whatever the schedule by which they were all handed in, and no schedule is
stuck before. A batch that is told to stop, which is converted in turn, has those results up to the first failure
and including it. Either way the counters agree with the results of the batch and with nothing else. -/
theorem batch_of_schedule (s : CheckedSettings) (inputs : List BatchInput) (o : BatchOptions) :
    let batch := convertBatch s o.goesOn inputs
    let alone := inputs.map fun input => (⟨input.id, process s input.html⟩ : BatchResult)
    (o.continueOnError ≠ some false →
      batch.results = alone ∧
      (∀ schedule results, ((Workshop.start inputs).run s schedule).results? = some results →
        results = batch.results ∧ ((Workshop.start inputs).run s schedule).counters = batch.counters) ∧
      ∀ schedule, ∃ more, ((Workshop.start inputs).run s (schedule ++ more)).results?.isSome = true) ∧
    (o.continueOnError = some false →
      batch.results = alone.take (alone.findIdx BatchResult.isFailure + 1) ∧
      convertInTurn s [] {} inputs = (batch.results, batch.counters)) ∧
    batch.counters.succeeded.toNat = (batch.results.countP fun r => !r.isFailure) % 2 ^ 32 ∧
    batch.counters.failed.toNat = batch.results.countP BatchResult.isFailure % 2 ^ 32 ∧
    batch.counters.equations.toNat = (batch.results.map BatchResult.total).sum % 2 ^ 32 := by
  intro batch alone
  have hcounters : batch.counters = .ofResults batch.results := Counters.after_steps _
  refine ⟨fun hgoes => ?_, fun hstops => ?_, ?_⟩
  · have hon : o.goesOn = true := by
      rw [BatchOptions.goesOn]
      cases h : o.continueOnError with
      | none => rfl
      | some goes =>
        cases goes with
        | true => rfl
        | false => exact absurd h hgoes
    have hresults : batch.results = alone := by
      show batchResults s o.goesOn inputs = alone
      rw [batchResults, hon, if_pos rfl]
      rfl
    refine ⟨hresults, fun schedule results h => ?_, fun schedule => ?_⟩
    · obtain ⟨hall, hend⟩ := Workshop.of_run h
      exact ⟨hall.trans hresults.symm, by rw [hend, hcounters, hresults]; rfl⟩
    · obtain ⟨more, hmore⟩ := Workshop.exists_run (s := s) ((Workshop.start inputs).run s schedule)
      exact ⟨more, by rwa [Workshop.run, List.foldl_append]⟩
  · have hoff : o.goesOn = false := by rw [BatchOptions.goesOn, hstops]; rfl
    have hresults : batch.results = untilFailure alone := by
      show batchResults s o.goesOn inputs = untilFailure alone
      rw [batchResults, hoff, if_neg (by decide)]
      rfl
    refine ⟨hresults.trans (untilFailure_eq_take alone), ?_⟩
    rw [convertInTurn_eq, List.nil_append, hcounters, ← Counters.after_steps, hresults]
    rfl
  · rw [hcounters]
    refine ⟨?_, ?_, ?_⟩ <;> exact UInt32.toNat_ofNat'

end MarkedMath.Html
