import MarkedMath.Proofs.Occurrences

/-!
# What a pass leaves

A pass ends with dropping what its engine has not been told of. An engine is therefore never told of what it
put into the document itself. This holds of every pass in any number of turns
(`Session.leavesNothing_occurring`).
-/

namespace MarkedMath

/-- After a pass nothing is left that its engine has not been told of, so a delivery would not tell it of
anything. -/
def PassMade.Settled (p : PassMade) : Prop :=
  (∀ o, p.after.document.listeners[o]? = some (.engine p.index) → p.after.document.pendingOf o = []) ∧
    ∀ batch ∈ p.after.document.takeBatches.1, batch.1 ≠ .engine p.index

namespace Session

variable {s : Session}

/-! ## Turns keep sessions sound -/

lemma Sound.turn (h : s.Sound) (t : Turn) : (s.turn t).Sound := by
  cases t with
  | command command => exact h.exec command
  | refuse i refusals => exact h.of_follows ((Follows.refl h.wellFormed).modifyEngine i fun _ => rfl)

lemma Sound.turns (h : s.Sound) (l : List Turn) : (s.turns l).Sound := by
  induction l using List.reverseRecOn with
  | nil => exact h
  | append_singleton l t ih =>
    rw [turns_concat]
    exact ih.turn t

/-! ## One pass -/

/-- At the end of a pass there is nothing that its engine has not been told of. -/
lemma pendingOf_pass (h : s.Sound) (i : Nat) (e : Engine) {o : Nat}
    (ho : (s.pass i e).2.document.listeners[o]? = some (.engine i)) :
    (s.pass i e).2.document.pendingOf o = [] := by
  have hsound := h.of_follows (follows_pass h.wellFormed i e)
  obtain ⟨s', record, hs'⟩ : ∃ s' record, (s.pass i e).2 = (settle i s').log record := ⟨_, _, rfl⟩
  have hmonitor := (hsound.monitors o i).1 ho
  have hbind : s'.engines[i]?.bind Engine.monitor = some o := by
    rw [hs'] at hmonitor
    replace hmonitor : ((settle i s').engines.map Engine.monitor)[i]? = some (some o) := hmonitor
    rw [settle_engines, map_monitor_modify, List.getElem?_map] at hmonitor
    · obtain ⟨e', he', hmonitor⟩ := Option.map_eq_some_iff.1 hmonitor
      rw [he', Option.bind_some, hmonitor]
    · exact fun _ => rfl
  rw [hs']
  show (settle i s').document.pendingOf o = []
  rw [settle, hbind]
  show (s'.document.takeRecords o).pendingOf o = []
  rw [Document.pendingOf_takeRecords, if_pos rfl]

lemma settled_pass (h : s.Sound) (i : Nat) (e : Engine) : (PassMade.mk s i e).Settled := by
  refine ⟨fun o ho => pendingOf_pass h i e ho, fun batch hbatch hlistener => ?_⟩
  obtain ⟨observer, hobserver, rfl⟩ := List.mem_map.1 hbatch
  obtain ⟨hmem, hpending⟩ := List.mem_filter.1 hobserver
  obtain ⟨o, ho⟩ := List.mem_iff_getElem?.1 hmem
  have hnone := pendingOf_pass h i e (o := o) (by
    rw [Document.listeners, List.getElem?_map]
    show Option.map Observer.listener (PassMade.mk s i e).after.document.observers[o]? = _
    rw [ho, Option.map_some]
    exact congrArg some hlistener)
  have hsome : (PassMade.mk s i e).after.document.pendingOf o = observer.pending := by
    rw [Document.pendingOf, ho, Option.map_some, Option.getD_some]
  rw [PassMade.after] at hsome
  simp [hsome.symm.trans hnone] at hpending

/-! ## All passes -/

/-- An occurrence after which nothing is pending for the engine that made a pass. -/
def LeavesNothing (occurrence : Occurrence) : Prop :=
  ∀ p, occurrence = .passed p → p.Settled

lemma leavesNothing_passBy (h : s.Sound) (i : Nat) : ∀ occurrence ∈ s.passBy i, LeavesNothing occurrence := by
  rintro occurrence hmem p rfl
  obtain ⟨e, rfl⟩ := eq_of_passed_mem_passBy hmem
  exact settled_pass h i e

lemma leavesNothing_announced (h : s.Sound) (listener : Listener) :
    ∀ occurrence ∈ s.announced listener, LeavesNothing occurrence := by
  rintro occurrence hmem p rfl
  obtain ⟨i, e, rfl⟩ := eq_of_passed_mem_announced hmem
  exact settled_pass (s := s.log .documentReady) ⟨h.wellFormed, h.monitors⟩ i e

lemma leavesNothing_notified (h : s.Sound) (batch : Listener × List NodeId) :
    ∀ occurrence ∈ s.notified batch, LeavesNothing occurrence := by
  rintro occurrence hmem p rfl
  obtain ⟨i, e, rfl⟩ := eq_of_passed_mem_notified hmem
  exact settled_pass (s := s.log .contentDetected) ⟨h.wellFormed, h.monitors⟩ i e

/-- Every pass that is made in a turn is settled. -/
lemma leavesNothing_occurrences (h : s.Sound) (t : Turn) :
    ∀ occurrence ∈ s.occurrences t, LeavesNothing occurrence := by
  cases t with
  | refuse i refusals => exact fun _ hmem => absurd hmem List.not_mem_nil
  | command command =>
    by_cases hplain : command.isPlain = true
    · rw [occurrences_plain hplain]
      exact fun _ hmem => absurd hmem List.not_mem_nil
    cases command with
    | deliver =>
      refine forall_along (fun s' batch hs' => ?_) (fun s' batch hs' => leavesNothing_notified hs' batch) _
        (h.of_follows (follows_document (Document.follows_takeBatches h.wellFormed)))
      exact hs'.of_follows ((Follows.refl hs'.wellFormed).notify batch)
    | finishLoading =>
      refine forall_along (fun s' listener hs' => ?_) (fun s' l hs' => leavesNothing_announced hs' l) _ ?_
      · exact hs'.of_follows ((Follows.refl hs'.wellFormed).announceReady listener)
      · refine ⟨h.wellFormed.of_forest ?_ ?_, ?_⟩ <;> rw [Document.finishLoading]
        · split <;> rfl
        · split <;> rfl
        · split <;> exact h.monitors
    | start i =>
      rw [occurrences]
      split
      · exact fun _ hmem => absurd hmem List.not_mem_nil
      · exact leavesNothing_announced h (.engine i)
    | process i => exact leavesNothing_passBy h i
    | reprocess i => exact leavesNothing_passBy (s := s.log .reprocessing) ⟨h.wellFormed, h.monitors⟩ i
    | onReady | build | watch | retain | release => exact fun _ hmem => absurd hmem List.not_mem_nil
    | _ => exact absurd rfl hplain

lemma leavesNothing_occurring (h : s.Sound) (l : List Turn) :
    ∀ occurrence ∈ s.occurring l, LeavesNothing occurrence :=
  forall_along (fun _ t hs => hs.turn t) (fun _ t hs => leavesNothing_occurrences hs t) l h

end Session

end MarkedMath
