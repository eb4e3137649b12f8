import MarkedMath.Proofs.Chronicle

/-!
# Insertions and observers

No insertion is lost on the way to an observer and none comes twice. What an observer was told of, what was
dropped before it was told and what it has not been told of yet are, in this order, the nodes that were put
below the body since it came (`Chronicle.insertions_accounted`).

During a delivery some nodes are on their way: they were taken from the document and their observer has not
been told. `Chronicle.Accounts` is the law with these nodes in it. A step of a pass keeps it, since a pass
drops only what its own engine has not been told of, and nothing is on its way to that engine any more.

The law speaks of what the history says. That observers did get the batches that the history has for them is
shown in `Proofs.Handovers`.
-/

namespace MarkedMath

namespace Happening

/-- The nodes that are off an observer's hands. -/
def received (observer : Nat) : Happening → List NodeId
  | told o nodes => if o = observer then nodes else []
  | dropped o nodes => if o = observer then nodes else []
  | _ => []

/-- The nodes that were put below the body. -/
def insertedBelow : Happening → List NodeId
  | inserted _ nodes true => nodes
  | _ => []

/-- The batch that an observer was told of. -/
def batchTo? (observer : Nat) : Happening → Option (List NodeId)
  | told o nodes => if o = observer then some nodes else none
  | _ => none

end Happening

/-- The nodes that were put below the body since an observer came. Observers are numbered in the order in
which they come. -/
def insertedSince : (observer : Nat) → List Happening → List NodeId
  | _, [] => []
  | observer, happening :: rest =>
    if happening ≠ .subscribed then insertedSince observer rest
    else if observer = 0 then rest.flatMap Happening.insertedBelow
    else insertedSince (observer - 1) rest

/-- What happens last adds to what was inserted since an observer came if it has come. -/
lemma insertedSince_concat (observer : Nat) (history : List Happening) (happening : Happening) :
    insertedSince observer (history ++ [happening]) = insertedSince observer history ++
      if observer < history.count .subscribed then happening.insertedBelow else [] := by
  induction history generalizing observer with
  | nil => cases happening <;> cases observer <;> simp [insertedSince]
  | cons first rest ih =>
    rw [List.cons_append, insertedSince, insertedSince, List.count_cons]
    by_cases hfirst : first = .subscribed
    · subst hfirst
      cases observer with
      | zero => simp
      | succ earlier => simp [ih]
    · simp [hfirst, ih]

namespace Document

variable {d d' : Document} {observer : Nat} {parent : NodeId} {nodes : List NodeId}

/-! ## Insertions are noted -/

lemma notes_insert {operation : String} {child : NodeId} {reference : Option NodeId}
    (hok : d.insert operation parent child reference = .ok d') : d.Notes d' parent [child] := by
  rw [insert] at hok
  split at hok
  · simp at hok
  · obtain rfl := by simpa using hok
    exact notes_noteInsertions rfl parent [child]

lemma notes_replaceText {id : NodeId} {specs : List NodeSpec} (hok : d.replaceText id specs = .ok d') :
    d.Notes d' ((d.parent? id).getD id) (NodeSpec.buildAll d.fresh specs).1.roots := by
  rw [replaceText] at hok
  split at hok
  · simp at hok
  · next hparent =>
    obtain rfl := by simpa using hok
    rw [hparent]
    exact notes_noteInsertions rfl _ _

lemma notes_insertStyle (h : d.WellFormed) {id css : String} (hok : d.insertStyle id css = .ok d') :
    d.Notes d' head [d.fresh] := by
  obtain ⟨d₁, hok₁, -, -, -, hnotes⟩ := insertStyle_eq_ok h id css
  obtain rfl : d₁ = d' := by simpa [hok₁] using hok
  exact hnotes

/-! ## What observers have not been told of -/

lemma pendingOf_eq (h : d'.observers = d.observers) (observer : Nat) :
    d'.pendingOf observer = d.pendingOf observer := by
  rw [pendingOf, pendingOf, h]

/-- What is noted is what an observer that was there has not been told of then. -/
lemma Notes.pendingOf (h : d.Notes d' parent nodes) (observer : Nat) :
    d'.pendingOf observer = d.pendingOf observer ++
      if d'.forest.isWithin parent body ∧ observer < d.observers.length then nodes else [] := by
  rw [Document.pendingOf, Document.pendingOf, h]
  split
  · next hbelow =>
    rw [List.getElem?_map]
    by_cases hobserver : observer < d.observers.length
    · simp [hbelow, hobserver]
    · simp [hobserver]
  · next hbelow => simp [hbelow]

lemma Notes.length_observers (h : d.Notes d' parent nodes) : d'.observers.length = d.observers.length := by
  rw [h]
  split
  · rw [List.length_map]
  · rfl

lemma pendingOf_takeRecords (d : Document) (dropped observer : Nat) :
    (d.takeRecords dropped).pendingOf observer = if dropped = observer then [] else d.pendingOf observer := by
  rw [pendingOf, takeRecords, pendingOf]
  simp only [List.getElem?_modify]
  split
  · cases d.observers[observer]? <;> rfl
  · cases d.observers[observer]? <;> rfl

/-- A new observer has nothing to be told of. -/
lemma pendingOf_concat {listener : Listener} (h : d'.observers = d.observers ++ [⟨listener, []⟩])
    (observer : Nat) : d'.pendingOf observer = d.pendingOf observer := by
  rw [pendingOf, pendingOf, h]
  rcases Nat.lt_trichotomy observer d.observers.length with hlt | rfl | hgt
  · rw [List.getElem?_append_left hlt]
  · simp
  · rw [List.getElem?_eq_none (by simp; omega), List.getElem?_eq_none (by omega)]

lemma pendingOf_takeBatches (d : Document) (observer : Nat) : d.takeBatches.2.pendingOf observer = [] := by
  rw [pendingOf, takeBatches]
  simp only [List.getElem?_map]
  cases d.observers[observer]? <;> rfl

end Document

/-! ## The law -/

namespace Chronicle

/-- Where `onTheWay` was taken for observers that have not been told, each observer has received, will be told
of and has not been told of what was put below the body since it came. -/
structure Accounts (onTheWay : Nat → List NodeId) (c : Chronicle) : Prop where
  /-- All observers have come. -/
  observers : c.history.count .subscribed = c.session.document.observers.length
  /-- No insertion is lost, and none comes twice. -/
  nodes : ∀ observer,
    c.history.flatMap (Happening.received observer) ++ onTheWay observer ++
      c.session.document.pendingOf observer = insertedSince observer c.history

variable {c c' : Chronicle} {onTheWay : Nat → List NodeId}

lemma accounts_start (loading : Bool) : Accounts (fun _ => []) ⟨.start loading, []⟩ :=
  ⟨rfl, fun _ => rfl⟩

/-- Nothing happens to observers. -/
lemma Accounts.of_observers {b : Chronicle} (h : Accounts onTheWay c) (hhistory : b.history = c.history)
    (hobservers : b.session.document.observers = c.session.document.observers) : Accounts onTheWay b where
  observers := by rw [hhistory, hobservers, h.observers]
  nodes observer := by rw [hhistory, Document.pendingOf_eq hobservers, h.nodes]

/-- An insertion is noted and written down. -/
lemma Accounts.perform (h : Accounts onTheWay c) {outcome : Except HostError Document} {parent : NodeId}
    {nodes : List NodeId} (hnotes : ∀ d, outcome = .ok d → c.session.document.Notes d parent nodes) :
    Accounts onTheWay (c.perform outcome parent nodes).2 := by
  cases outcome with
  | error e => exact h
  | ok d =>
    have hd := hnotes d rfl
    refine ⟨?_, fun observer => ?_⟩
    · show (c.history ++ [_]).count _ = d.observers.length
      rw [hd.length_observers, ← h.observers]
      simp
    · show (c.history ++ [_]).flatMap _ ++ onTheWay observer ++ d.pendingOf observer =
        insertedSince observer (c.history ++ [_])
      rw [insertedSince_concat, ← h.nodes observer, hd.pendingOf, h.observers]
      cases hbelow : d.forest.isWithin parent Document.body <;>
        simp [Happening.received, Happening.insertedBelow]

/-- A new node is made without anybody being told of it, and then put into its parent. -/
lemma Accounts.appendNew (h : Accounts onTheWay c) (parent : NodeId) (data : NodeData) :
    Accounts onTheWay (c.appendNew parent data) :=
  Accounts.perform (h.of_observers (b := c.change fun s => { s with document := (s.document.create data).2 }) rfl rfl)
    fun _ hok => Document.notes_insert hok

/-- What an observer has not been told of is dropped when nothing is on the way to it. -/
lemma Accounts.drop (h : Accounts onTheWay c) {dropped : Nat} (hnone : onTheWay dropped = []) :
    Accounts onTheWay ((c.tell [.dropped dropped (c.session.document.pendingOf dropped)]).change fun s =>
      { s with document := s.document.takeRecords dropped }) where
  observers := by
    simp [Document.takeRecords, h.observers]
  nodes observer := by
    have hold := h.nodes observer
    simp only [history_change, history_tell, session_change, session_tell, List.flatMap_append,
      insertedSince_concat, Document.pendingOf_takeRecords]
    by_cases hdropped : dropped = observer
    · subst hdropped
      simpa [Happening.received, Happening.insertedBelow, hnone] using hold
    · simpa [Happening.received, Happening.insertedBelow, hdropped] using hold

/-- An observer comes and has nothing to be told of. -/
lemma Accounts.subscribe (h : Accounts onTheWay c) {f : Session → Session} {l : Listener}
    (hf : (f c.session).document.observers = c.session.document.observers ++ [⟨l, []⟩]) :
    Accounts onTheWay ((c.tell [.subscribed]).change f) where
  observers := by
    simp [hf, h.observers]
  nodes observer := by
    have hold := h.nodes observer
    have hpending := Document.pendingOf_concat hf observer
    simp only [history_change, history_tell, session_change, session_tell, List.flatMap_append,
      insertedSince_concat, hpending]
    simpa [Happening.received, Happening.insertedBelow] using hold

/-- An observer is told of nodes that were on the way to it. -/
lemma Accounts.told {observer : Nat} {nodes : List NodeId}
    (h : Accounts (fun o => (if o = observer then nodes else []) ++ onTheWay o) c) :
    Accounts onTheWay (c.tell [.told observer nodes]) where
  observers := by
    simp [h.observers]
  nodes o := by
    have hold := h.nodes o
    simp only [history_tell, session_tell, List.flatMap_append, insertedSince_concat]
    by_cases ho : o = observer
    · subst ho
      simpa [Happening.received, Happening.insertedBelow] using hold
    · simpa [Happening.received, Happening.insertedBelow, ho, Ne.symm ho] using hold

/-! ### A pass -/

/-- At the end of a pass what the engine has not been told of is dropped. -/
lemma Accounts.settle (h : Accounts onTheWay c) {index : Nat}
    (hnone : ∀ o, c.session.engines[index]?.bind Engine.monitor = some o → onTheWay o = []) :
    Accounts onTheWay (c.settle index) := by
  cases hmonitor : c.session.engines[index]?.bind Engine.monitor with
  | none => exact h.of_observers (by simp [Chronicle.settle, hmonitor]) (by
      simp [Chronicle.settle, Session.settle, Session.modifyEngine, hmonitor])
  | some o => exact (h.drop (hnone o hmonitor)).of_observers (by simp [Chronicle.settle, hmonitor]) (by
      simp [Chronicle.settle, Session.settle, Session.modifyEngine, hmonitor])

lemma host_keeps (refusals : Refusals) (onTheWay : Nat → List NodeId) (s : Session) :
    (host refusals).Keeps fun c => Accounts onTheWay c ∧ s.Follows c.session := by
  have hfollows := (host_projects refusals).keeps (Session.host_keeps refusals s)
  refine ⟨fun c h => ⟨h.1.of_observers rfl rfl, hfollows.normalize c h.2⟩, fun c h => h,
    fun n specs c h => ⟨?_, hfollows.replaceText n specs c h.2⟩,
    fun style css c h => ⟨?_, hfollows.insertStyle style css c h.2⟩,
    fun record c h => ⟨h.1.of_observers rfl rfl, hfollows.log record c h.2⟩⟩
  · simp only [host]
    split
    · exact h.1
    · exact h.1.perform fun d hok => Document.notes_replaceText hok
  · simp only [host]
    split
    · exact h.1
    · exact h.1.perform fun d hok => Document.notes_insertStyle h.2.document.wellFormed hok

/-- A pass keeps the law when nothing is on the way to its engine. -/
lemma Accounts.pass (h : Accounts onTheWay c) (hwell : c.session.document.WellFormed) (index : Nat)
    (e : Engine)
    (hnone : ∀ o, (c.session.engines.map Engine.monitor)[index]? = some (some o) → onTheWay o = []) :
    Accounts onTheWay (c.pass index e).2 := by
  refine (runPass_keeps (host_keeps e.refusals onTheWay c.session) (fun t ht => ?_) (fun c' h => ⟨?_, ?_⟩)
    ⟨h, Session.Follows.refl hwell⟩).1
  · obtain ⟨scripted, -, rfl⟩ := List.mem_map.1 ht
    exact ⟨fun _ h => h, fun _ c' h => ⟨h.1.of_observers rfl rfl, h.2.document, h.2.monitors⟩⟩
  · refine h.1.settle fun o ho => hnone o ?_
    rw [← h.2.monitors, List.getElem?_map]
    obtain ⟨e', he', hmonitor⟩ := Option.bind_eq_some_iff.1 ho
    rw [he', Option.map_some, hmonitor]
  · exact h.2.settle index

/-! ### A delivery -/

/-- The batches among others that are for an observer. -/
def batchesFor (observer : Nat) (batches : List (Nat × Listener × List NodeId)) : List (List NodeId) :=
  batches.filterMap fun b => if b.1 = observer then some b.2.2 else none

lemma batchesFor_cons (observer : Nat) (batch : Nat × Listener × List NodeId)
    (batches : List (Nat × Listener × List NodeId)) :
    batchesFor observer (batch :: batches) =
      (if batch.1 = observer then [batch.2.2] else []) ++ batchesFor observer batches := by
  rw [batchesFor, List.filterMap_cons]
  split
  · next h => simp_all [batchesFor]
  · next h => simp_all [batchesFor]

lemma batchesFor_append (observer : Nat) (batches batches' : List (Nat × Listener × List NodeId)) :
    batchesFor observer (batches ++ batches') = batchesFor observer batches ++ batchesFor observer batches' :=
  List.filterMap_append

lemma batchesFor_of_not_mem {observer : Nat} {batches : List (Nat × Listener × List NodeId)}
    (h : observer ∉ batches.map Prod.fst) : batchesFor observer batches = [] := by
  refine List.filterMap_eq_nil_iff.2 fun b hb => if_neg fun he => h ?_
  exact he ▸ List.mem_map_of_mem hb

/-- There is one batch for an observer that has something to be told of, and none for another one. -/
lemma batchesFor_numberedBatches (d : Document) (observer : Nat) :
    batchesFor observer d.numberedBatches =
      if d.pendingOf observer = [] then [] else [d.pendingOf observer] := by
  rw [Document.numberedBatches, Document.pendingOf]
  -- the last observer has the highest number
  induction d.observers using List.reverseRecOn with
  | nil => rfl
  | append_singleton observers o ih =>
    rw [List.zipIdx_append, List.filter_append, List.map_append, batchesFor_append, ih]
    rcases Nat.lt_trichotomy observer observers.length with hlt | rfl | hgt
    · have hne : observers.length ≠ observer := Nat.ne_of_gt hlt
      rw [List.getElem?_append_left hlt]
      cases hpending : o.pending <;> simp [batchesFor, hpending, hne]
    · cases hpending : o.pending <;> simp [batchesFor, hpending]
    · have hne : observers.length ≠ observer := Nat.ne_of_lt hgt
      rw [List.getElem?_eq_none (Nat.le_of_lt hgt), List.getElem?_eq_none (by simp; omega)]
      cases hpending : o.pending <;> simp [batchesFor, hpending, hne]

lemma nodup_numberedBatches (d : Document) : (d.numberedBatches.map Prod.fst).Nodup := by
  have hsub : (d.numberedBatches.map Prod.fst).Sublist (d.observers.zipIdx.map Prod.snd) := by
    rw [Document.numberedBatches, List.map_map]
    exact List.filter_sublist.map Prod.snd
  refine hsub.nodup ?_
  rw [List.zipIdx_map_snd]
  exact List.nodup_range'

lemma listener_of_mem_numberedBatches {d : Document} {batch : Nat × Listener × List NodeId}
    (h : batch ∈ d.numberedBatches) : d.listeners[batch.1]? = some batch.2.1 := by
  obtain ⟨⟨o, observer⟩, ho, rfl⟩ := List.mem_map.1 h
  have hobserver := List.mk_mem_zipIdx_iff_getElem?.1 (List.mem_filter.1 ho).1
  rw [Document.listeners, List.getElem?_map, hobserver]
  rfl

/-- Telling an observer keeps the law when nothing more is on the way to it. -/
lemma Accounts.notify {s : Session} (hs : s.Sound) (hfollows : s.Follows c.session)
    {batch : Nat × Listener × List NodeId} (hlistener : s.document.listeners[batch.1]? = some batch.2.1)
    (hlast : onTheWay batch.1 = [])
    (h : Accounts (fun o => (if o = batch.1 then batch.2.2 else []) ++ onTheWay o) c) :
    Accounts onTheWay (c.notify batch) := by
  obtain ⟨observer, listener, nodes⟩ := batch
  have htold := h.told
  cases listener with
  | script name => exact htold.of_observers rfl rfl
  | engine index =>
    simp only [Chronicle.notify]
    cases c.session.engine? index with
    | none => exact htold
    | some e =>
      dsimp only
      split
      · refine Accounts.pass
          (htold.of_observers (b := (c.tell _).change (Session.log .contentDetected)) rfl rfl)
          hfollows.document.wellFormed index e fun o ho => ?_
        -- the engine has this observer and no other
        have hmonitor : (s.engines.map Engine.monitor)[index]? = some (some o) := hfollows.monitors ▸ ho
        have hsame := (hs.monitors observer index).1 hlistener
        obtain rfl : observer = o := by simpa [hsame] using hmonitor
        exact hlast
      · exact htold

lemma Accounts.foldl_notify {s : Session} (hs : s.Sound) {batches : List (Nat × Listener × List NodeId)}
    (hnodup : (batches.map Prod.fst).Nodup)
    (hlisteners : ∀ b ∈ batches, s.document.listeners[b.1]? = some b.2.1)
    (hfollows : s.Follows c.session) (h : Accounts (fun o => (batchesFor o batches).flatten) c) :
    Accounts (fun _ => []) (batches.foldl Chronicle.notify c) := by
  induction batches generalizing c with
  | nil => exact h
  | cons batch batches ih =>
    obtain ⟨hbatch, hnodup⟩ := List.nodup_cons.1 hnodup
    obtain ⟨hlistener, hlisteners⟩ := List.forall_mem_cons.1 hlisteners
    have hnotified : Accounts (fun o => (batchesFor o batches).flatten) (c.notify batch) := by
      refine Accounts.notify hs hfollows hlistener (by rw [batchesFor_of_not_mem hbatch]; rfl) ?_
      convert h using 2 with o
      rw [batchesFor_cons, List.flatten_append]
      by_cases ho : o = batch.1
      · simp [ho]
      · simp [ho, Ne.symm ho]
    refine ih hnodup hlisteners ?_ hnotified
    rw [session_notify]
    exact hfollows.notify batch.2

/-- A delivery keeps the law. -/
lemma Accounts.deliver (h : Accounts (fun _ => []) c) (hs : c.session.Sound) :
    Accounts (fun _ => []) c.deliver := by
  refine Accounts.foldl_notify hs (nodup_numberedBatches _) (fun b hb => listener_of_mem_numberedBatches hb)
    (Session.follows_document (Document.follows_takeBatches hs.wellFormed)) ⟨?_, fun observer => ?_⟩
  · simp [h.observers, Document.takeBatches]
  · have hold := h.nodes observer
    simp only [history_change, session_change, Document.pendingOf_takeBatches, List.append_nil] at hold ⊢
    rw [← hold, batchesFor_numberedBatches]
    split
    · next hnone => simp [hnone]
    · simp

/-! ### Batches -/

/-- The batches that an observer was told of. -/
def batchesTo (observer : Nat) (c : Chronicle) : List (List NodeId) :=
  c.history.filterMap (Happening.batchTo? observer)

lemma batchesTo_perform (observer : Nat) (outcome : Except HostError Document) (parent : NodeId)
    (nodes : List NodeId) (c : Chronicle) :
    (c.perform outcome parent nodes).2.batchesTo observer = c.batchesTo observer := by
  cases outcome <;> simp [batchesTo, Chronicle.perform, Happening.batchTo?]

/-- No observer is told in a pass. -/
lemma batchesTo_pass (observer index : Nat) (e : Engine) (c : Chronicle) :
    (c.pass index e).2.batchesTo observer = c.batchesTo observer := by
  refine pass_keeps (P := fun c' => c'.batchesTo observer = c.batchesTo observer) (fun _ _ _ h => h)
    (fun _ _ _ _ h => (batchesTo_perform ..).trans h) (fun o nodes c' h => ?_) index e rfl
  rw [← h, batchesTo, history_tell, List.filterMap_append]
  exact List.append_nil _

lemma batchesTo_notify (observer : Nat) (c : Chronicle) (batch : Nat × Listener × List NodeId) :
    (c.notify batch).batchesTo observer = c.batchesTo observer ++ batchesFor observer [batch] := by
  have htold : (c.tell [.told batch.1 batch.2.2]).batchesTo observer =
      c.batchesTo observer ++ batchesFor observer [batch] := by
    rw [batchesTo, history_tell, List.filterMap_append]
    rfl
  obtain ⟨o, listener, nodes⟩ := batch
  cases listener with
  | script name => exact htold
  | engine index =>
    simp only [Chronicle.notify]
    cases c.session.engine? index with
    | none => exact htold
    | some e =>
      dsimp only
      split
      · exact (batchesTo_pass observer index e _).trans htold
      · exact htold

lemma batchesTo_foldl_notify (observer : Nat) (batches : List (Nat × Listener × List NodeId))
    (c : Chronicle) :
    (batches.foldl Chronicle.notify c).batchesTo observer =
      c.batchesTo observer ++ batchesFor observer batches := by
  induction batches generalizing c with
  | nil => exact (List.append_nil _).symm
  | cons batch batches ih =>
    rw [List.foldl_cons, ih, batchesTo_notify, List.append_assoc, ← batchesFor_append]
    rfl

/-- In a delivery each observer that has something to be told of is told of it in one batch, and no other
observer is told of anything. -/
lemma batchesTo_deliver (observer : Nat) (c : Chronicle) :
    c.deliver.batchesTo observer = c.batchesTo observer ++
      if c.session.document.pendingOf observer = [] then []
      else [c.session.document.pendingOf observer] := by
  rw [Chronicle.deliver, batchesTo_foldl_notify, batchesFor_numberedBatches]
  rfl

end Chronicle

/-! ## Commands that add and drop nothing -/

namespace Document

variable {d d' : Document} {id : NodeId}

lemma observers_setAttribute {name : String} {value : Text} (hok : d.setAttribute id name value = .ok d') :
    d'.observers = d.observers := by
  rw [setAttribute] at hok
  split at hok
  · obtain rfl := by simpa using hok
    rfl
  · simp at hok

lemma observers_addClass {name : Text} (hok : d.addClass id name = .ok d') :
    d'.observers = d.observers := by
  rw [addClass] at hok
  split at hok
  · obtain rfl := by simpa using hok
    rfl
  · exact observers_setAttribute hok

lemma observers_removeClass {name : Text} (hok : d.removeClass id name = .ok d') :
    d'.observers = d.observers := by
  rw [removeClass] at hok
  split at hok
  · obtain rfl := by simpa using hok
    rfl
  · exact observers_setAttribute hok

lemma observers_setBodyClass {name : Text} {enabled : Bool} (hok : d.setBodyClass name enabled = .ok d') :
    d'.observers = d.observers := by
  rw [setBodyClass] at hok
  split at hok
  · exact observers_addClass hok
  · exact observers_removeClass hok

lemma observers_remove (hok : d.remove id = .ok d') : d'.observers = d.observers := by
  rw [remove] at hok
  split at hok
  · simp at hok
  · obtain rfl := by simpa using hok
    rfl

end Document

lemma Session.observers_attempt {s : Session} {outcome : Except HostError Document}
    (hok : ∀ d, outcome = .ok d → d.observers = s.document.observers) :
    (s.attempt outcome).document.observers = s.document.observers := by
  cases outcome with
  | error e => rfl
  | ok d => exact hok d rfl

lemma Session.observers_debug (s : Session) (index : Nat) (enabled : Bool) :
    (s.exec (.debug index enabled)).document.observers = s.document.observers := by
  simp only [exec, withEngine]
  split
  · next e _ =>
    cases hr : e.refusals.bodyClass with
    | some refusal =>
      simp only [setDebug, hr]
      rfl
    | none =>
      have hperform := observers_attempt (s := s) fun d
          (hd : s.document.setBodyClass e.settings.debugClass.toList enabled = .ok d) =>
        Document.observers_setBodyClass hd
      simp only [setDebug, hr]
      split
      · next s' heq => rwa [attempt, heq] at hperform
      · exact hperform
  · rfl

/-! ## Every run -/

namespace Chronicle

variable {c : Chronicle}

lemma Accounts.withEngine (h : Accounts (fun _ => []) c) (index : Nat) {act : Engine → Chronicle → Chronicle}
    (hact : ∀ e, c.session.engine? index = some e → Accounts (fun _ => []) (act e c)) :
    Accounts (fun _ => []) (c.withEngine index act) := by
  rw [Chronicle.withEngine]
  cases he : c.session.engine? index with
  | none => exact h
  | some e => exact hact e he

lemma Accounts.announceReady (h : Accounts (fun _ => []) c) (hwell : c.session.document.WellFormed)
    (listener : Listener) : Accounts (fun _ => []) (c.announceReady listener) := by
  cases listener with
  | script name => exact h.of_observers rfl rfl
  | engine index =>
    simp only [Chronicle.announceReady]
    cases c.session.engine? index with
    | none => exact h
    | some e =>
      exact Accounts.pass (h.of_observers (b := c.change (Session.log .documentReady)) rfl rfl) hwell index e
        fun _ _ => rfl

lemma Accounts.onReady (h : Accounts (fun _ => []) c) (hwell : c.session.document.WellFormed)
    (listener : Listener) : Accounts (fun _ => []) (c.onReady listener) := by
  rw [Chronicle.onReady]
  cases hawait : c.session.document.await? listener with
  | none => exact h.announceReady hwell listener
  | some d =>
    refine h.of_observers rfl ?_
    rw [Document.await?] at hawait
    split at hawait
    · obtain rfl := by simpa using hawait
      rfl
    · simp at hawait

lemma Accounts.foldl_announceReady (h : Accounts (fun _ => []) c) (hwell : c.session.document.WellFormed)
    (listeners : List Listener) :
    Accounts (fun _ => []) (listeners.foldl Chronicle.announceReady c) := by
  induction listeners generalizing c with
  | nil => exact h
  | cons listener listeners ih =>
    refine ih (h.announceReady hwell listener) ?_
    rw [session_announceReady]
    exact ((Session.Follows.refl hwell).announceReady listener).document.wellFormed

lemma Accounts.finishLoading (h : Accounts (fun _ => []) c) (hwell : c.session.document.WellFormed) :
    Accounts (fun _ => []) c.finishLoading := by
  have hobservers : c.session.document.finishLoading.2.observers = c.session.document.observers := by
    rw [Document.finishLoading]
    split <;> rfl
  have hwell' : c.session.document.finishLoading.2.WellFormed := by
    rw [Document.finishLoading]
    split
    · exact hwell.of_forest rfl rfl
    · exact hwell
  refine Accounts.foldl_announceReady ?_ ?_ _
  · exact h.of_observers rfl hobservers
  · exact hwell'

lemma Accounts.watch (h : Accounts (fun _ => []) c) (index : Nat) (e : Engine) :
    Accounts (fun _ => []) (c.watch index e) := by
  rw [Chronicle.watch]
  cases hmonitor : e.monitor with
  | some o => exact h.of_observers (by simp) (by simp [Session.watch, hmonitor])
  | none =>
    cases hobserve : e.refusals.observe with
    | some refusal => exact h.of_observers (by simp) (by simp [Session.watch, hmonitor, hobserve])
    | none =>
      refine Accounts.subscribe h (l := .engine index) ?_
      simp [Session.watch, hmonitor, hobserve, Session.modifyEngine, Session.log, Document.observe]

/-- Every command keeps the law. -/
lemma Accounts.exec (h : Accounts (fun _ => []) c) (hs : c.session.Sound) (command : Command) :
    Accounts (fun _ => []) (c.exec command) := by
  have hwell := hs.wellFormed
  cases command with
  | createElement | createText | createComment | removeAttribute | normalize | build | retain | release =>
    exact h.of_observers rfl rfl
  | append | insertBefore => exact h.perform fun d hok => Document.notes_insert hok
  | appendElement | appendText => exact h.appendNew _ _
  | replaceText => exact h.perform fun d hok => Document.notes_replaceText hok
  | insertStyle => exact h.perform fun d hok => Document.notes_insertStyle hwell hok
  | remove => exact h.of_observers rfl (Session.observers_attempt fun d => Document.observers_remove)
  | setAttribute =>
    exact h.of_observers rfl (Session.observers_attempt fun d => Document.observers_setAttribute)
  | addClass => exact h.of_observers rfl (Session.observers_attempt fun d => Document.observers_addClass)
  | removeClass =>
    exact h.of_observers rfl (Session.observers_attempt fun d => Document.observers_removeClass)
  | setBodyClass =>
    exact h.of_observers rfl (Session.observers_attempt fun d => Document.observers_setBodyClass)
  | debug index enabled => exact h.of_observers rfl (Session.observers_debug _ index enabled)
  | observe name =>
    exact Accounts.subscribe (f := fun s => s.exec (.observe name)) (l := .script name) h rfl
  | takeRecords observer => exact Accounts.drop h rfl
  | deliver => exact h.deliver hs
  | finishLoading => exact h.finishLoading hwell
  | onReady name => exact h.onReady hwell _
  | start index => exact h.withEngine index fun _ _ => h.onReady hwell _
  | process index =>
    simp only [Chronicle.exec]
    exact h.withEngine index fun e _ => h.pass hwell index e fun _ _ => rfl
  | reprocess index =>
    simp only [Chronicle.exec]
    refine h.withEngine index fun e _ => ?_
    exact Accounts.pass (h.of_observers (b := c.change (Session.log .reprocessing)) rfl rfl) hwell index e
      fun _ _ => rfl
  | watch index => exact h.withEngine index fun e _ => h.watch index e

/-- The law holds after every run. -/
lemma accounts_run (loading : Bool) (commands : List Command) :
    Accounts (fun _ => []) (run loading commands) := by
  induction commands using List.reverseRecOn with
  | nil => exact accounts_start loading
  | append_singleton commands command ih =>
    rw [run, List.foldl_concat]
    refine Accounts.exec ih ?_ command
    show (run loading commands).session.Sound
    rw [session_run]
    exact Session.sound_run loading commands

/-- **Insertions are neither lost nor duplicated.** In every run, passes made during deliveries included, the
nodes that an observer was told of or that were dropped before it was told, and then those that it has not
been told of, are exactly the nodes put below the body since it came. A delivery then tells each observer
that has something to be told of in exactly one batch, and no other one. The history is that of the run: its
session is the session of the run, and as many observers have come as the document has. -/
theorem insertions_accounted (loading : Bool) (commands : List Command) :
    (run loading commands).session = Session.run loading commands ∧
    (run loading commands).history.count .subscribed =
      (Session.run loading commands).document.observers.length ∧
    ∀ observer,
      (run loading commands).history.flatMap (Happening.received observer) ++
          (Session.run loading commands).document.pendingOf observer =
        insertedSince observer (run loading commands).history ∧
      (run loading (commands ++ [.deliver])).batchesTo observer =
        (run loading commands).batchesTo observer ++
          if (Session.run loading commands).document.pendingOf observer = [] then []
          else [(Session.run loading commands).document.pendingOf observer] := by
  have haccounts := accounts_run loading commands
  have hsession := session_run loading commands
  refine ⟨hsession, ?_, fun observer => ⟨?_, ?_⟩⟩
  · rw [← hsession]
    exact haccounts.observers
  · have hnodes := haccounts.nodes observer
    rwa [List.append_nil, hsession] at hnodes
  · have hdelivered := batchesTo_deliver observer (run loading commands)
    rw [hsession] at hdelivered
    rw [← hdelivered, run, List.foldl_concat]
    rfl

end Chronicle

end MarkedMath
