import MarkedMath.Proofs.Html.Workers
import MarkedMath.Proofs.SecondPass

/-!
# Totals of a batch

The statistics of a batch name three numbers: how many documents there were, how many of them were converted
and how many were not. The last two are counted while the work goes on, and account for the results; the first
is noted before the work begins. So the three agree exactly when all documents were worked on, which a batch
that stops at a failure may not do.
-/

namespace MarkedMath.Html

/-- The batches that documents may come to. A batch that goes on after a failure has the results and the counters
at the end of any schedule, a batch that is told to stop those of the loop that converts one document after the
other. -/
inductive Batch.ComesOf (s : CheckedSettings) (inputs : List BatchInput) (o : BatchOptions) : Batch → Prop
  /-- All results are handed in, in whatever order the workers came to their turns. -/
  | scheduled {schedule : List Nat} {results : List BatchResult} (hgoes : o.continueOnError ≠ some false)
      (hend : ((Workshop.start inputs).run s schedule).results? = some results) :
      ComesOf s inputs o
        ⟨results, inputs.length.toUInt32, ((Workshop.start inputs).run s schedule).counters⟩
  /-- The documents are converted in turn up to the first failure. -/
  | inTurn (hstops : o.continueOnError = some false) :
      ComesOf s inputs o
        ⟨(convertInTurn s [] {} inputs).1, inputs.length.toUInt32, (convertInTurn s [] {} inputs).2⟩

/-- The total is the number of results, and the number of documents that were converted and of those that were
not, taken together. -/
structure Batch.Accounted (b : Batch) : Prop where
  /-- Every document has a result. -/
  results : b.total.toNat = b.results.length
  /-- Every document was converted or was not. -/
  outcomes : b.total.toNat = b.counters.succeeded.toNat + b.counters.failed.toNat

section Totals

variable {s : CheckedSettings} {inputs : List BatchInput} {o : BatchOptions} {batch : Batch}

/-- Successes and failures together are the results. -/
lemma length_results (results : List BatchResult) :
    results.length = (results.countP fun r => !r.isFailure) + results.countP BatchResult.isFailure := by
  have hnot : results.countP (fun r => decide ¬r.isFailure = true) = results.countP fun r => !r.isFailure :=
    List.countP_congr fun r _ => by simp
  rw [List.length_eq_countP_add_countP BatchResult.isFailure, hnot, Nat.add_comm]

lemma Counters.ofResults_add (results : List BatchResult) :
    (ofResults results).succeeded + (ofResults results).failed = results.length.toUInt32 := by
  rw [length_results]
  exact (UInt32.ofNat_add _ _).symm

lemma BatchOptions.goesOn_eq (o : BatchOptions) : o.goesOn = decide (o.continueOnError ≠ some false) := by
  obtain ⟨_, _ | _ | _⟩ := o <;> rfl

lemma results_convertBatch (s : CheckedSettings) (inputs : List BatchInput) (o : BatchOptions) :
    (convertBatch s o.goesOn inputs).results =
      if o.continueOnError = some false then untilFailure (inputs.map (BatchInput.convert s))
      else inputs.map (BatchInput.convert s) := by
  rw [convertBatch, batchResults, BatchOptions.goesOn_eq]
  by_cases hstops : o.continueOnError = some false <;> simp [hstops]

/-- Whatever the schedule, a batch comes to what the conversion of its documents one after the other comes to. -/
lemma Batch.ComesOf.eq_convertBatch (h : batch.ComesOf s inputs o) : batch = convertBatch s o.goesOn inputs := by
  have hresults := results_convertBatch s inputs o
  have hcounters : (convertBatch s o.goesOn inputs).counters = .ofResults (convertBatch s o.goesOn inputs).results :=
    Counters.after_steps _
  cases h with
  | scheduled hgoes hend =>
    rw [if_neg hgoes] at hresults
    obtain ⟨rfl, hall⟩ := Workshop.of_run hend
    rw [hall, ← hresults, ← hcounters]
    rfl
  | inTurn hstops =>
    rw [if_pos hstops] at hresults
    rw [convertInTurn_eq, List.nil_append, ← hresults]
    rfl

/-- A batch is accounted for exactly when the word that holds its total holds the number of its results. -/
lemma Batch.accounted_iff_length (hcounters : batch.counters = .ofResults batch.results) :
    batch.Accounted ↔ batch.total.toNat = batch.results.length := by
  refine ⟨Accounted.results, fun hlength => ⟨hlength, ?_⟩⟩
  -- no more results than a word can count, so neither counter has begun anew
  have hsmall : batch.results.length < UInt32.size := hlength ▸ batch.total.toNat_lt_size
  have hsum := length_results batch.results
  have hsucceeded : batch.counters.succeeded.toNat = batch.results.countP fun r => !r.isFailure := by
    rw [hcounters]
    exact UInt32.toNat_ofNat_of_lt' (by omega)
  have hfailed : batch.counters.failed.toNat = batch.results.countP BatchResult.isFailure := by
    rw [hcounters]
    exact UInt32.toNat_ofNat_of_lt' (by omega)
  rw [hlength, hsucceeded, hfailed, hsum]

lemma length_untilFailure (results : List BatchResult) :
    (untilFailure results).length = min (results.findIdx BatchResult.isFailure + 1) results.length := by
  rw [untilFailure_eq_take, List.length_take]

/-- No result but the last one is a failure exactly when the search for a failure gets to the last one. -/
lemma forall_dropLast_iff (results : List BatchResult) :
    (∀ r ∈ results.dropLast, r.isFailure = false) ↔
      results.length ≤ results.findIdx BatchResult.isFailure + 1 := by
  constructor
  · intro h
    by_contra hlt
    have hindex : results.findIdx BatchResult.isFailure < results.dropLast.length := by
      rw [List.length_dropLast]
      omega
    have hfound : results.dropLast[results.findIdx BatchResult.isFailure].isFailure = true := by
      rw [List.getElem_dropLast]
      exact List.findIdx_getElem
    rw [h _ (List.getElem_mem hindex)] at hfound
    cases hfound
  · intro h r hr
    obtain ⟨i, hi, rfl⟩ := List.getElem_of_mem hr
    rw [List.length_dropLast] at hi
    rw [List.getElem_dropLast]
    exact List.not_of_lt_findIdx (by omega)

/-- **When the statistics account for all documents.** Whatever documents a batch is given and however its
workers came to their turns, the batch is the same, and the successes and the failures together are the results.
The total is their number exactly when no document is left out: there are fewer than 2³² of them, and a batch that
is told to stop at a failure meets none before the last document. The one way besides is that so many more than
2³² documents are given that the word that holds the total begins anew and happens to stop at the first failure. -/
theorem batch_accounted_iff (s : CheckedSettings) (inputs : List BatchInput) (o : BatchOptions) :
    let batch := convertBatch s o.goesOn inputs
    let alone := inputs.map (BatchInput.convert s)
    (∀ other : Batch, other.ComesOf s inputs o → other = batch) ∧
      batch.counters.succeeded + batch.counters.failed = batch.results.length.toUInt32 ∧
      (batch.Accounted ↔
        inputs.length < 2 ^ 32 ∧ (o.continueOnError = some false → ∀ r ∈ alone.dropLast, r.isFailure = false) ∨
        2 ^ 32 ≤ inputs.length ∧ o.continueOnError = some false ∧
          inputs.length % 2 ^ 32 = alone.findIdx BatchResult.isFailure + 1) := by
  intro batch alone
  have hcounters : batch.counters = .ofResults batch.results := Counters.after_steps _
  refine ⟨fun other h => h.eq_convertBatch, by rw [hcounters, Counters.ofResults_add], ?_⟩
  have htotal : batch.total.toNat = inputs.length % 2 ^ 32 := UInt32.toNat_ofNat'
  have hword : inputs.length % 2 ^ 32 < 2 ^ 32 := Nat.mod_lt _ (by decide)
  have hfew : inputs.length < 2 ^ 32 → inputs.length % 2 ^ 32 = inputs.length := Nat.mod_eq_of_lt
  have halone : alone.length = inputs.length := List.length_map _
  rw [Batch.accounted_iff_length hcounters, htotal, forall_dropLast_iff, halone]
  have hresults : batch.results = if o.continueOnError = some false then untilFailure alone else alone :=
    results_convertBatch s inputs o
  by_cases hstops : o.continueOnError = some false
  · rw [hresults, if_pos hstops, length_untilFailure, halone]
    simp only [hstops, true_implies, true_and]
    omega
  · rw [hresults, if_neg hstops, halone]
    simp only [hstops, false_implies, false_and, and_true, and_false, or_false]
    omega

/-- The document behind the failure is part of the total, but nothing was done with it. -/
theorem not_accounted_of_first_failure :
    let batch := convertBatch .standard false [⟨"a", "<select><xmp>".toList⟩, ⟨"b", "<p>x</p>".toList⟩]
    batch.total = 2 ∧ batch.results.length = 1 ∧ ¬ batch.Accounted := by
  intro batch
  have hlength : batch.results.length = 1 := by decide +kernel
  refine ⟨rfl, hlength, fun haccounted => ?_⟩
  have hresults := haccounted.results
  rw [hlength] at hresults
  cases hresults

end Totals

end MarkedMath.Html
