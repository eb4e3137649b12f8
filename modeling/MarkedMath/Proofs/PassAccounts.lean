import MarkedMath.Proofs.SecondPass
import MarkedMath.Proofs.Settled

/-!
# The passes of an engine

An engine passes over the document when it is asked to, when a document that it was started on is ready and
when it is told of new content with markers, and never else. `Session.Tally` keeps the account: how often each
of these was the case so far, and whether the change monitor is in place. A turn adds to it what the turn asks
for and what occurs in it (`Session.Tally.turn`), so the account holds after any number of turns
(`Session.passes_accounted`).
-/

namespace MarkedMath

namespace Turn

/-- Whether an engine is asked for a pass at once. -/
def asks (index : Nat) : Turn → Bool
  | command (.process i) => i = index
  | command (.reprocess i) => i = index
  | _ => false

/-- Whether an engine is asked for a pass when the document is ready. -/
def starts (index : Nat) : Turn → Bool
  | command (.start i) => i = index
  | _ => false

end Turn

/-- An engine but for the passes it has made. -/
def Engine.bare (e : Engine) : Engine :=
  { e with passes := 0 }

lemma Engine.eq_of_bare {e e' : Engine} (h : e'.bare = e.bare) :
    e'.settings = e.settings ∧ e'.monitor = e.monitor ∧ e'.handles = e.handles := by
  simp only [bare, Engine.mk.injEq] at h
  exact ⟨h.1, h.2.2.2.1, h.2.2.2.2.2⟩

namespace Session

variable {s s' : Session} {index : Nat} {e : Engine} {settings : CheckedSettings}

/-! ## Passes leave engines alone -/

/-- What passes leave alone: the engines but for their passes, and who waits for the end of loading. -/
structure Spares (s s' : Session) : Prop where
  /-- The engines are the same but for their passes. -/
  engines : s'.engines.map Engine.bare = s.engines.map Engine.bare
  /-- Loading has not ended, and the same listeners wait for its end. -/
  gate : s'.document.gate = s.document.gate

lemma Spares.refl (s : Session) : s.Spares s :=
  ⟨rfl, rfl⟩

lemma Spares.log (h : s.Spares s') (record : Record) : s.Spares (s'.log record) :=
  ⟨h.engines, h.gate⟩

lemma Spares.pass (h : s.Spares s') (i : Nat) (e : Engine) : s.Spares (s'.pass i e).2 := by
  refine ⟨?_, (gate_pass i e s').trans h.gate⟩
  rw [← h.engines, pass_engines]
  refine List.ext_getElem? fun j => ?_
  rw [List.getElem?_map, List.getElem?_modify, List.getElem?_map]
  cases s'.engines[j]? with
  | none => rfl
  | some e' =>
    simp only [Option.map_eq_map, Option.map_some]
    split <;> rfl

lemma Spares.announceReady (h : s.Spares s') (listener : Listener) : s.Spares (s'.announceReady listener) := by
  cases listener with
  | script name => exact ⟨h.engines, h.gate⟩
  | engine i =>
    simp only [Session.announceReady]
    split
    · next e _ => exact (h.log .documentReady).pass i e
    · exact h

lemma Spares.notify (h : s.Spares s') (batch : Listener × List NodeId) : s.Spares (s'.notify batch) := by
  obtain ⟨listener, nodes⟩ := batch
  cases listener with
  | script name => exact ⟨h.engines, h.gate⟩
  | engine i =>
    simp only [Session.notify]
    split
    · next e _ =>
      split
      · exact (h.log .contentDetected).pass i e
      · exact h
    · exact h

lemma Spares.foldl {α : Type} {step : Session → α → Session}
    (hstep : ∀ s' a, s.Spares s' → s.Spares (step s' a)) (l : List α) (h : s.Spares s') :
    s.Spares (l.foldl step s') := by
  induction l generalizing s' with
  | nil => exact h
  | cons a l ih => exact ih (hstep s' a h)

lemma Spares.deliver (s : Session) : s.Spares s.deliver.2 :=
  Spares.foldl (fun _ batch h => h.notify batch) _ ⟨rfl, rfl⟩

lemma Spares.withEngine (i : Nat) (h : s.Spares s') : s.Spares (s.withEngine i fun e _ => (s'.pass i e).2) := by
  rw [Session.withEngine]
  split
  · next e _ => exact h.pass i e
  · exact Spares.refl s

lemma Spares.length_eq (h : s.Spares s') : s'.engines.length = s.engines.length := by
  have := congrArg List.length h.engines
  simpa using this

lemma Spares.exists_engine (h : s.Spares s') (he : s.engines[index]? = some e) :
    ∃ e', s'.engines[index]? = some e' ∧ e'.bare = e.bare := by
  have hbare : (s'.engines.map Engine.bare)[index]? = some e.bare := by
    rw [h.engines, List.getElem?_map, he, Option.map_some]
  rw [List.getElem?_map] at hbare
  exact Option.map_eq_some_iff.1 hbare

lemma Spares.exists_engine? (h : s.Spares s') (he : s.engine? index = some e) :
    ∃ e', s'.engine? index = some e' ∧ e'.bare = e.bare := by
  obtain ⟨hindex, hhandles⟩ := Option.filter_eq_some_iff.1 he
  obtain ⟨e', he', hbare⟩ := h.exists_engine hindex
  refine ⟨e', Option.filter_eq_some_iff.2 ⟨he', ?_⟩, hbare⟩
  rwa [(Engine.eq_of_bare hbare).2.2]

/-! ## Waiting for the end of loading -/

/-- A listener is put among those who wait for the end of loading. -/
def awaiting (listener : Listener) (s : Session) : Session :=
  { s with document := { s.document with waiting := s.document.waiting ++ [listener] } }

lemma exec_start (i : Nat) (s : Session) : s.exec (.start i) = s.withEngine i fun e _ =>
    if s.document.loading then s.awaiting (.engine i) else ((s.log .documentReady).pass i e).2 := by
  simp only [Session.exec, Session.withEngine]
  cases he : s.engine? i with
  | none => rfl
  | some e =>
    simp only [onReady, Document.await?, announceReady, he, awaiting]
    cases s.document.loading <;> rfl

lemma exec_onReady (name : String) (s : Session) : s.exec (.onReady name) =
    if s.document.loading then s.awaiting (.script name) else s.note (.ready name) := by
  simp only [Session.exec, onReady, Document.await?, announceReady, awaiting]
  cases s.document.loading <;> rfl

lemma gate_finishLoading (s : Session) : s.finishLoading.document.gate = s.document.finishLoading.2.gate :=
  (Spares.foldl (fun _ l h => h.announceReady l) s.document.finishLoading.1
    (Spares.refl { s with document := s.document.finishLoading.2 })).gate

/-! ## Who wakes an engine -/

/-- A batch makes an engine pass exactly when it wakes it. -/
lemma countP_notified (he : s.engine? index = some e) (batch : Listener × List NodeId) :
    (s.notified batch).countP (Occurrence.isPassOf index) =
      (s.notified batch).countP (Occurrence.wakes index e.settings.grammar.watchPatterns) := by
  obtain ⟨listener, nodes⟩ := batch
  cases listener with
  | script name => rfl
  | engine i =>
    by_cases hi : i = index
    · subst hi
      simp only [notified, he, List.countP_cons, Occurrence.isPassOf, Occurrence.wakes]
      split <;> simp_all [Occurrence.isPassOf, Occurrence.wakes]
    · -- another engine is told
      simp only [notified, List.countP_cons, Occurrence.isPassOf, Occurrence.wakes, hi]
      cases s.engine? i with
      | none => rfl
      | some e' =>
        dsimp only
        split <;> simp [Occurrence.isPassOf, Occurrence.wakes, hi]

lemma countP_along_notified (he : s.engine? index = some e) (hs : s.Spares s')
    (batches : List (Listener × List NodeId)) :
    (along notify notified batches s').countP (Occurrence.isPassOf index) =
      (along notify notified batches s').countP
        (Occurrence.wakes index e.settings.grammar.watchPatterns) := by
  induction batches generalizing s' with
  | nil => rfl
  | cons batch batches ih =>
    obtain ⟨e', he', hbare⟩ := hs.exists_engine? he
    rw [along, List.countP_append, List.countP_append, ih (hs.notify batch), countP_notified he',
      (Engine.eq_of_bare hbare).1]

/-- An engine passes each time it is told that the document is ready, and is woken by none of it. -/
lemma countP_along_announced (he : s.engine? index = some e) (hs : s.Spares s') (listeners : List Listener)
    (patterns : List Text) :
    (along announceReady announced listeners s').countP (Occurrence.isPassOf index) =
        listeners.count (.engine index) ∧
      (along announceReady announced listeners s').countP (Occurrence.wakes index patterns) = 0 := by
  induction listeners generalizing s' with
  | nil => exact ⟨rfl, rfl⟩
  | cons listener listeners ih =>
    obtain ⟨hpasses, hwakes⟩ := ih (hs.announceReady listener)
    obtain ⟨e', he', -⟩ := (hs.log .documentReady).exists_engine? he
    rw [along, List.countP_append, List.countP_append, hpasses, hwakes, List.count_cons]
    cases listener with
    | script name => exact ⟨by simp [announced], rfl⟩
    | engine i =>
      rw [announced, countP_passBy]
      by_cases hi : i = index
      · subst hi
        simp [he', passBy, Occurrence.wakes, Nat.add_comm]
      · refine ⟨by simp [hi], ?_⟩
        rw [passBy]
        cases (s'.log .documentReady).engine? i <;> rfl

/-! ## The account of an engine -/

/-- The account of an engine: how often it was asked for a pass, started and woken so far, and whether it was
ever to be told of insertions without being refused that. -/
structure Tally (index : Nat) (settings : CheckedSettings) (s : Session) (asked started woken : Nat)
    (armed : Prop) : Prop where
  /-- The engine is there, and its monitor is in place once it may be. -/
  engine : ∃ e, s.engines[index]? = some e ∧ e.settings = settings ∧ (e.monitor.isSome = true ↔ armed)
  /-- Its passes have these three causes. -/
  passes : s.passesOf index = asked + (if s.document.loading then 0 else started) + woken
  /-- While the document is being loaded every start is waited for. -/
  waiting : s.document.loading = true → s.document.waiting.count (.engine index) = started

variable {asked started woken a b w : Nat} {armed : Prop}

lemma Tally.congr {m : Prop} (h : Tally index settings s asked started woken armed)
    (ha : a = asked) (hb : b = started) (hw : w = woken) (hm : m ↔ armed) : Tally index settings s a b w m := by
  obtain rfl := propext hm
  subst ha hb hw
  exact h

/-- A turn in which nothing happens to loading, and in which the engine stays but for its passes. -/
lemma Tally.of_gate (h : Tally index settings s asked started woken armed) (s' : Session)
    (hengine : ∀ e, s.engines[index]? = some e →
      ∃ e', s'.engines[index]? = some e' ∧ e'.settings = e.settings ∧ e'.monitor = e.monitor)
    (hgate : s'.document.gate = s.document.gate)
    (hpasses : s'.passesOf index = s.passesOf index + (a + w)) :
    Tally index settings s' (asked + a) started (woken + w) armed := by
  obtain ⟨hloading, hwaiting⟩ := Prod.mk.inj hgate
  obtain ⟨e, he, hsettings, harmed⟩ := h.engine
  obtain ⟨e', he', hsettings', hmonitor⟩ := hengine e he
  refine ⟨⟨e', he', hsettings'.trans hsettings, hmonitor ▸ harmed⟩, ?_, fun hl => ?_⟩
  · rw [hpasses, h.passes, hloading]
    omega
  · rw [hwaiting]
    exact h.waiting (hloading ▸ hl)

lemma Tally.of_spares (h : Tally index settings s asked started woken armed) (hs : s.Spares s')
    (hpasses : s'.passesOf index = s.passesOf index + (a + w)) :
    Tally index settings s' (asked + a) started (woken + w) armed := by
  refine h.of_gate s' (fun e he => ?_) hs.gate hpasses
  obtain ⟨e', he', hbare⟩ := hs.exists_engine he
  exact ⟨e', he', (Engine.eq_of_bare hbare).1, (Engine.eq_of_bare hbare).2.1⟩

/-- A turn that changes neither what engines are made of nor who waits. -/
lemma Tally.of_modifyEngine (h : Tally index settings s asked started woken armed) (i : Nat)
    (change : Engine → Engine) (hsettings : ∀ e, (change e).settings = e.settings)
    (hmonitor : ∀ e, (change e).monitor = e.monitor) (hpasses : ∀ e, (change e).passes = e.passes) :
    Tally index settings (s.modifyEngine i change) asked started woken armed := by
  refine h.of_gate (a := 0) (w := 0) _ (fun e he => ?_) rfl (passesOf_modifyEngine i index hpasses)
  rw [getElem?_modifyEngine, he]
  refine ⟨_, rfl, ?_, ?_⟩
  · split
    · exact hsettings e
    · rfl
  · split
    · exact hmonitor e
    · rfl

/-- Who is put among those who wait. -/
lemma Tally.await (h : Tally index settings s asked started woken armed) (hl : s.document.loading = true)
    (listener : Listener) : Tally index settings (s.awaiting listener) asked
      (started + if listener = .engine index then 1 else 0) woken armed := by
  refine ⟨h.engine, ?_, fun _ => ?_⟩
  · show s.passesOf index = asked + (if s.document.loading then 0 else _) + woken
    rw [h.passes, hl]
    rfl
  · show (s.document.waiting ++ [listener]).count _ = _
    rw [List.count_append, h.waiting hl, List.count_singleton]
    congr 1
    exact if_congr beq_iff_eq rfl rfl

lemma Tally.finishLoading (h : Tally index settings s asked started woken armed)
    (he : s.engine? index = some e) :
    Tally index settings s.finishLoading asked started
      (woken + (s.occurrences (.command .finishLoading)).countP
        (Occurrence.wakes index settings.grammar.watchPatterns)) armed := by
  obtain ⟨opened, hopened⟩ : ∃ opened : Session, opened = { s with document := s.document.finishLoading.2 } :=
    ⟨_, rfl⟩
  have hengine : opened.engine? index = some e := by rw [hopened]; exact he
  have hspares := Spares.foldl (s := opened) (fun _ l h => h.announceReady l) s.document.finishLoading.1
    (Spares.refl opened)
  obtain ⟨hpassed, hwoken⟩ := countP_along_announced hengine (Spares.refl opened)
    s.document.finishLoading.1 settings.grammar.watchPatterns
  have hoccurrences : s.occurrences (.command .finishLoading) =
      along Session.announceReady announced s.document.finishLoading.1 opened := by rw [hopened]; rfl
  have hfinished : s.finishLoading = s.document.finishLoading.1.foldl Session.announceReady opened := by
    rw [hopened]; rfl
  have hpasses : s.finishLoading.passesOf index = s.passesOf index + s.document.finishLoading.1.count
      (.engine index) := by
    have hturn := passesOf_turn index s (.command .finishLoading)
    rwa [hoccurrences, hpassed] at hturn
  rw [hoccurrences, hwoken]
  -- the listeners are those who waited while the document was being loaded, and none afterwards
  obtain ⟨e₀, he₀, hsettings, harmed⟩ := h.engine
  rw [← hfinished] at hspares
  have hopened₀ : opened.engines[index]? = some e₀ := by rw [hopened]; exact he₀
  obtain ⟨e', he', hbare⟩ := hspares.exists_engine hopened₀
  obtain ⟨hsettings', hmonitor, -⟩ := Engine.eq_of_bare hbare
  obtain ⟨hloading, -⟩ := Prod.mk.inj hspares.gate
  have hended : s.finishLoading.document.loading = false := by
    rw [hloading, hopened]
    show s.document.finishLoading.2.loading = false
    rw [Document.finishLoading]
    split
    · rfl
    · next hl => simpa using hl
  refine ⟨⟨e', he', hsettings'.trans hsettings, hmonitor ▸ harmed⟩, ?_, fun hl => ?_⟩
  · rw [hpasses, h.passes, hended, Document.finishLoading]
    cases hl : s.document.loading with
    | true => simp [h.waiting hl]; omega
    | false => simp
  · rw [hended] at hl
    cases hl

/-- Whether a turn puts the monitor of an engine in place, were it not there. -/
def Arms (index : Nat) (s : Session) (t : Turn) : Prop :=
  t = .command (.watch index) ∧ ∃ e, s.engine? index = some e ∧ e.refusals.observe = none

/-- An engine that is asked for a pass makes it, and no other one does. -/
lemma Tally.passBy (h : Tally index settings s asked started woken armed) (halive : (s.engine? index).isSome)
    (s' : Session) (hengines : s'.engines = s.engines) (hgate : s'.document.gate = s.document.gate) (i : Nat) :
    Tally index settings (s.withEngine i fun e _ => (s'.pass i e).2) (asked + if i = index then 1 else 0)
      started woken armed := by
  refine h.of_spares (w := 0) (Spares.withEngine i ⟨by rw [hengines], hgate⟩) ?_
  rw [passesOf_withEngine s s' hengines, countP_passBy]
  by_cases hi : i = index
  · subst hi
    have hengine : s'.engine? i = s.engine? i := by rw [engine?, engine?, hengines]
    simp [hengine, halive]
  · simp [hi]

lemma countP_wakes_passBy (i index : Nat) (patterns : List Text) (s : Session) :
    (s.passBy i).countP (Occurrence.wakes index patterns) = 0 := by
  rw [passBy]
  cases s.engine? i <;> rfl

/-- An engine that is started passes at once when loading has ended, and waits otherwise. -/
lemma Tally.start (h : Tally index settings s asked started woken armed) (halive : (s.engine? index).isSome)
    (i : Nat) : Tally index settings (s.exec (.start i)) asked (started + if i = index then 1 else 0) woken
      armed := by
  rw [exec_start]
  cases hl : s.document.loading with
  | true =>
    rw [Session.withEngine]
    cases he : s.engine? i with
    | none =>
      have hi : i ≠ index := by
        rintro rfl
        rw [he] at halive
        cases halive
      rw [if_neg hi]
      exact h
    | some e =>
      have hwaits := h.await hl (.engine i)
      simpa using hwaits
  | false =>
    have hpassed := h.passBy halive (s.log .documentReady) rfl rfl i
    obtain ⟨hloading, -⟩ := Prod.mk.inj (Spares.withEngine i ((Spares.refl s).log .documentReady)).gate
    rw [hl] at hloading
    -- loading has ended, so the pass may be put to the account of the start
    refine ⟨hpassed.engine, ?_, fun hl' => absurd (hl'.symm.trans hloading) (by decide)⟩
    have hpasses := hpassed.passes
    simp only [hloading, Bool.false_eq_true, if_false] at hpasses ⊢
    omega

/-- What asking for a monitor may do. -/
lemma exec_watch (i : Nat) (s : Session) : s.exec (.watch i) = s ∨ ∃ o d, d.gate = s.document.gate ∧
    s.exec (.watch i) =
      ({ s with document := d }.modifyEngine i fun e => { e with monitor := some o }).log .watching := by
  simp only [Session.exec, Session.withEngine]
  split
  · next e _ =>
    rw [Session.watch]
    split
    · exact Or.inl rfl
    · exact Or.inl rfl
    · exact Or.inr ⟨_, (s.document.observe (.engine i)).2, rfl, rfl⟩
  · exact Or.inl rfl

/-- The monitor of an engine is put in place when the engine has none and may have one. -/
lemma Tally.watch (h : Tally index settings s asked started woken armed) (he : s.engine? index = some e)
    (i : Nat) : Tally index settings (s.exec (.watch i)) asked started woken
      (armed ∨ Arms index s (.command (.watch i))) := by
  have hpasses := passesOf_turn index s (.command (.watch i))
  by_cases hi : i = index
  · subst hi
    obtain ⟨e₀, he₀, hsettings, harmed⟩ := h.engine
    obtain rfl := Option.some_inj.1 ((engines_of_engine? he).symm.trans he₀)
    have harms : Arms i s (.command (.watch i)) ↔ e.refusals.observe = none := by
      simp [Arms, he]
    simp only [Session.turn, Session.exec, Session.withEngine, he, Session.watch] at hpasses ⊢
    cases hmonitor : e.monitor with
    | some o =>
      have hin : armed := harmed.1 (by rw [hmonitor]; rfl)
      exact h.congr rfl rfl rfl (by simp [hin])
    | none =>
      cases hobserve : e.refusals.observe with
      | some refusal => exact h.congr rfl rfl rfl (by simp [harms, hobserve])
      | none =>
        simp only [hmonitor, hobserve] at hpasses
        refine ⟨⟨{ e with monitor := some s.document.observers.length }, ?_, hsettings, ?_⟩, ?_, h.waiting⟩
        · show (Session.modifyEngine ..).engines[i]? = _
          rw [getElem?_modifyEngine]
          simp only [Document.observe, he₀, Option.map_some, if_true]
        · simp [harms, hobserve]
        · rw [hpasses]
          exact h.passes
  · obtain ⟨hengine, hgate⟩ : (s.exec (.watch i)).engines[index]? = s.engines[index]? ∧
        (s.exec (.watch i)).document.gate = s.document.gate := by
      rcases exec_watch i s with heq | ⟨o, d, hd, heq⟩
      · rw [heq]
        exact ⟨rfl, rfl⟩
      · rw [heq]
        refine ⟨?_, hd⟩
        show (Session.modifyEngine ..).engines[index]? = _
        rw [getElem?_modifyEngine]
        simp [hi]
    have hnot : ¬ Arms index s (.command (.watch i)) := fun harms => hi (by simpa using harms.1)
    exact (h.of_gate (a := 0) (w := 0) _ (fun e he => ⟨e, hengine.trans he, rfl, rfl⟩) hgate hpasses).congr
      rfl rfl rfl (or_iff_left hnot)

/-- **One turn.** The account of an engine to which there are handles grows by what the turn asks of the engine
and by what occurs in it. -/
lemma Tally.turn (h : Tally index settings s asked started woken armed) (halive : (s.engine? index).isSome)
    (t : Turn) : Tally index settings (s.turn t) (asked + if t.asks index then 1 else 0)
      (started + if t.starts index then 1 else 0)
      (woken + (s.occurrences t).countP (Occurrence.wakes index settings.grammar.watchPatterns))
      (armed ∨ Arms index s t) := by
  obtain ⟨e, he⟩ := Option.isSome_iff_exists.1 halive
  have hsame : e.settings = settings := by
    obtain ⟨e', he', hsettings, -⟩ := h.engine
    obtain rfl := Option.some_inj.1 ((engines_of_engine? he).symm.trans he')
    exact hsettings
  have harms : (∀ i, t ≠ .command (.watch i)) → (armed ∨ Arms index s t ↔ armed) :=
    fun hne => or_iff_left fun harms => hne index harms.1
  cases t with
  | refuse i refusals =>
    exact (h.of_modifyEngine i (fun e => { e with refusals }) (fun _ => rfl) (fun _ => rfl)
      fun _ => rfl).congr rfl rfl rfl (harms (by simp))
  | command command =>
    by_cases hplain : command.isPlain = true
    · obtain ⟨hengines, hgate⟩ := exec_plain hplain s
      rw [occurrences_plain hplain]
      refine (h.of_spares (a := 0) (w := 0) ⟨congrArg _ hengines, hgate⟩
        (passesOf_eq_of_engines hengines index)).congr ?_ ?_ rfl (harms ?_)
      · cases command <;> first | rfl | cases hplain
      · cases command <;> first | rfl | cases hplain
      · rintro i ⟨⟩
        cases hplain
    cases command with
    | deliver =>
      have hpasses := passesOf_turn index s (.command .deliver)
      have htaken : s.Spares { s with document := s.document.takeBatches.2 } := ⟨rfl, rfl⟩
      have hwoken : (s.occurrences (.command .deliver)).countP (Occurrence.isPassOf index) = _ :=
        countP_along_notified he htaken _
      rw [hwoken, hsame, ← Nat.zero_add (List.countP ..)] at hpasses
      exact (h.of_spares (Spares.deliver s) hpasses).congr rfl rfl rfl (harms (by simp))
    | finishLoading => exact (h.finishLoading he).congr rfl rfl rfl (harms (by simp))
    | process i =>
      refine (h.passBy halive s rfl rfl i).congr ?_ rfl ?_ (harms (by simp))
      · simp [Turn.asks]
      · exact congrArg _ (countP_wakes_passBy i index _ s)
    | reprocess i =>
      refine (h.passBy halive (s.log .reprocessing) rfl rfl i).congr ?_ rfl ?_ (harms (by simp))
      · simp [Turn.asks]
      · exact congrArg _ (countP_wakes_passBy i index _ _)
    | start i =>
      refine (h.start halive i).congr rfl ?_ ?_ (harms (by simp))
      · simp [Turn.starts]
      · simp only [occurrences, announced]
        split
        · rfl
        · rw [countP_wakes_passBy, Nat.add_zero]
    | onReady name =>
      show Tally index settings (s.exec (.onReady name)) _ _ _ _
      rw [exec_onReady]
      cases hl : s.document.loading with
      | true => exact (h.await hl (.script name)).congr rfl rfl rfl (harms (by simp))
      | false =>
        have hnoted : s.Spares (s.note (.ready name)) := ⟨rfl, rfl⟩
        exact (h.of_spares (a := 0) (w := 0) hnoted rfl).congr rfl rfl rfl (harms (by simp))
    | watch i =>
      exact (h.watch he i).congr rfl rfl rfl Iff.rfl
    | retain i =>
      exact (h.of_modifyEngine i (fun e => { e with handles := e.handles + 1 }) (fun _ => rfl) (fun _ => rfl)
        fun _ => rfl).congr rfl rfl rfl (harms (by simp))
    | release i =>
      exact (h.of_modifyEngine i (fun e => { e with handles := e.handles - 1 }) (fun _ => rfl) (fun _ => rfl)
        fun _ => rfl).congr rfl rfl rfl (harms (by simp))
    | build settings' refusals typesetters =>
      have hpasses := passesOf_turn index s (.command (.build settings' refusals typesetters))
      refine (h.of_gate (a := 0) (w := 0) (s.exec (.build settings' refusals typesetters))
        (fun e he => ⟨e, ?_, rfl, rfl⟩) rfl hpasses).congr rfl rfl rfl (harms (by simp))
      show (s.engines ++ [_])[index]? = some e
      rwa [List.getElem?_append_left (List.getElem?_eq_some_iff.1 he).1]
    | _ => exact absurd rfl hplain

/-! ## Any number of turns -/

/-- Only engines that are there wait for the end of loading. -/
lemma waiting_turn (h : ∀ i, .engine i ∈ s.document.waiting → i < s.engines.length) (t : Turn) :
    ∀ i, .engine i ∈ (s.turn t).document.waiting → i < (s.turn t).engines.length := by
  have hspares : ∀ {s' : Session}, s.Spares s' → ∀ i, .engine i ∈ s'.document.waiting →
      i < s'.engines.length := by
    intro s' hs i hi
    rw [(Prod.mk.inj hs.gate).2] at hi
    rw [hs.length_eq]
    exact h i hi
  cases t with
  | refuse i refusals =>
    show ∀ j, _ → j < (s.engines.modify i _).length
    rw [List.length_modify]
    exact h
  | command command =>
    by_cases hplain : command.isPlain = true
    · obtain ⟨hengines, hgate⟩ := exec_plain hplain s
      exact hspares ⟨congrArg _ hengines, hgate⟩
    cases command with
    | deliver => exact hspares (Spares.deliver s)
    | finishLoading =>
      intro i hi
      have hwaiting : (s.exec .finishLoading).document.waiting = s.document.finishLoading.2.waiting :=
        (Prod.mk.inj (gate_finishLoading s)).2
      have hlength : (s.exec .finishLoading).engines.length = s.engines.length :=
        (Spares.foldl (fun _ l h => h.announceReady l) s.document.finishLoading.1
          (Spares.refl { s with document := s.document.finishLoading.2 })).length_eq
      rw [Session.turn, hwaiting, Document.finishLoading] at hi
      show i < (s.exec .finishLoading).engines.length
      rw [hlength]
      split at hi
      · cases hi
      · exact h i hi
    | start i =>
      rw [Session.turn, exec_start, Session.withEngine]
      cases he : s.engine? i with
      | none => exact h
      | some e =>
        dsimp only
        split
        · -- the engine that comes to wait is there
          intro j hj
          rcases List.mem_append.1 hj with hj | hj
          · exact h j hj
          · obtain rfl : j = i := by simpa using hj
            exact (List.getElem?_eq_some_iff.1 (engines_of_engine? he)).1
        · exact hspares (((Spares.refl s).log .documentReady).pass i e)
    | onReady name =>
      rw [Session.turn, exec_onReady]
      split
      · intro j hj
        rcases List.mem_append.1 hj with hj | hj
        · exact h j hj
        · simp at hj
      · exact h
    | process i => exact hspares (Spares.withEngine i (Spares.refl s))
    | reprocess i => exact hspares (Spares.withEngine i ((Spares.refl s).log .reprocessing))
    | build settings refusals typesetters =>
      intro i hi
      have hlt := h i hi
      show i < (s.engines ++ [_]).length
      rw [List.length_append]
      omega
    | watch i =>
      rw [Session.turn]
      rcases exec_watch i s with heq | ⟨o, d, hd, heq⟩
      · rw [heq]
        exact h
      · rw [heq]
        show ∀ j, .engine j ∈ d.waiting → j < (s.engines.modify i _).length
        rw [(Prod.mk.inj hd).2, List.length_modify]
        exact h
    | retain i =>
      show ∀ j, _ → j < (s.engines.modify i _).length
      rw [List.length_modify]
      exact h
    | release i =>
      show ∀ j, _ → j < (s.engines.modify i _).length
      rw [List.length_modify]
      exact h
    | _ => exact absurd rfl hplain

lemma waiting_turns (h : ∀ i, .engine i ∈ s.document.waiting → i < s.engines.length) (l : List Turn) :
    ∀ i, .engine i ∈ (s.turns l).document.waiting → i < (s.turns l).engines.length := by
  induction l using List.reverseRecOn with
  | nil => exact h
  | append_singleton l t ih =>
    rw [turns_concat]
    exact waiting_turn ih t

/-- An observer that comes once is the only one of its listener. -/
lemma count_listener {l : List Listener} {a : Listener} {monitor : Option Nat}
    (h : ∀ o, l[o]? = some a ↔ monitor = some o) : l.count a = if monitor.isSome then 1 else 0 := by
  cases monitor with
  | none =>
    refine List.count_eq_zero_of_not_mem fun hmem => ?_
    obtain ⟨o, ho⟩ := List.mem_iff_getElem?.1 hmem
    cases (h o).1 ho
  | some o =>
    have ho := (h o).2 rfl
    obtain ⟨hlt, hget⟩ := List.getElem?_eq_some_iff.1 ho
    have hsplit : l = l.take o ++ a :: l.drop (o + 1) := by
      rw [← hget, List.getElem_cons_drop, List.take_append_drop]
    have hbefore : a ∉ l.take o := fun hmem => by
      obtain ⟨i, hi, hget⟩ := List.mem_take_iff_getElem.1 hmem
      have heq := (h i).1 (hget ▸ List.getElem?_eq_getElem _)
      simp at heq
      omega
    have hbehind : a ∉ l.drop (o + 1) := fun hmem => by
      obtain ⟨i, hi⟩ := List.mem_iff_getElem?.1 hmem
      rw [List.getElem?_drop] at hi
      have heq := (h _).1 hi
      simp at heq
      omega
    rw [hsplit, List.count_append, List.count_cons_self, List.count_eq_zero_of_not_mem hbefore,
      List.count_eq_zero_of_not_mem hbehind]
    rfl

/-- The monitor of an engine was asked for while it was not refused. -/
def ArmedIn (index : Nat) (s : Session) (turns : List Turn) : Prop :=
  ∃ l, l ++ [.command (.watch index)] <+: turns ∧
    ∃ e, (s.turns l).engine? index = some e ∧ e.refusals.observe = none

lemma armedIn_concat (index : Nat) (s : Session) (l : List Turn) (t : Turn) :
    ArmedIn index s (l ++ [t]) ↔ ArmedIn index s l ∨ Arms index (s.turns l) t := by
  constructor
  · rintro ⟨l', hprefix, harmed⟩
    rcases List.prefix_concat_iff.1 hprefix with heq | hprefix
    · obtain ⟨rfl, ht⟩ := List.append_inj' heq rfl
      exact Or.inr ⟨(List.singleton_inj.1 ht).symm, harmed⟩
    · exact Or.inl ⟨l', hprefix, harmed⟩
  · rintro (⟨l', hprefix, harmed⟩ | ⟨rfl, harmed⟩)
    · exact ⟨l', hprefix.trans (List.prefix_append l _), harmed⟩
    · exact ⟨l, List.prefix_rfl, harmed⟩

/-- The account of an engine after any number of turns. -/
lemma tally_turns (h : Tally index settings s 0 0 0 False) (l : List Turn)
    (halive : ∀ l', l' <+: l → ((s.turns l').engine? index).isSome = true) :
    Tally index settings (s.turns l) (l.countP (Turn.asks index)) (l.countP (Turn.starts index))
      ((s.occurring l).countP (Occurrence.wakes index settings.grammar.watchPatterns))
      (ArmedIn index s l) := by
  induction l using List.reverseRecOn with
  | nil =>
    refine h.congr rfl rfl rfl (iff_of_false ?_ not_false)
    rintro ⟨l, hprefix, -⟩
    simp at hprefix
  | append_singleton l t ih =>
    have hbefore := ih fun l' hl' => halive l' (hl'.trans (List.prefix_append l _))
    have hturn := hbefore.turn (halive l (List.prefix_append l _)) t
    rw [turns_concat, occurring_concat]
    refine hturn.congr ?_ ?_ ?_ (armedIn_concat index s l t)
    · rw [List.countP_append, List.countP_singleton]
    · rw [List.countP_append, List.countP_singleton]
    · rw [List.countP_append]

/-- **The passes of an engine.** An engine is made after any turns, and there are handles to it throughout
what comes next. Then at most one observer tells it of insertions, namely one when it was ever asked to watch
while the document did not refuse that. Its passes are as many as the times it was asked for one, the times
it was started, once loading has ended, and the batches that it was told of in which an element or a text
mentions a watch pattern. No pass leaves anything that its engine has not been told of. -/
theorem passes_accounted (loading : Bool) (before : List Turn) (settings : CheckedSettings)
    (refusals : Refusals) (typesetters : List ScriptedTypesetter) (after : List Turn) :
    let built := (start loading).turns (before ++ [.command (.build settings refusals typesetters)])
    let index := ((start loading).turns before).engines.length
    let s := built.turns after
    (∀ l, l <+: after → ((built.turns l).engine? index).isSome = true) →
      ∃ e, s.engine? index = some e ∧
        s.document.listeners.count (.engine index) = (if e.monitor.isSome then 1 else 0) ∧
        (e.monitor.isSome = true ↔ ArmedIn index built after) ∧
        e.passes = after.countP (Turn.asks index) +
          (if s.document.loading then 0 else after.countP (Turn.starts index)) +
          (built.occurring after).countP (Occurrence.wakes index settings.grammar.watchPatterns) ∧
        e.passes = (built.occurring after).countP (Occurrence.isPassOf index) ∧
        ∀ p, .passed p ∈ built.occurring after → p.index = index → p.Settled := by
  intro built index s halive
  obtain ⟨s₀, hs₀⟩ : ∃ s₀, s₀ = (start loading).turns before := ⟨_, rfl⟩
  have hbuilt : built = (s₀.build settings refusals typesetters).2 := by
    rw [hs₀]
    exact turns_concat ..
  have hindex : index = s₀.engines.length := by rw [hs₀]
  have hengine : built.engines[index]? = some { settings, refusals, typesetters } := by
    rw [hbuilt, hindex]
    exact List.getElem?_concat_length
  -- the account of a new engine is empty
  have hwaiting : Listener.engine index ∉ built.document.waiting := by
    rw [hbuilt, hindex]
    intro hmem
    rw [hs₀] at hmem
    exact absurd (waiting_turns (fun i hi => by cases hi) before _ hmem) (Nat.lt_irrefl _)
  have hempty : built.passesOf index = 0 := by
    rw [passesOf, hengine]
    rfl
  have htally := tally_turns ⟨⟨_, hengine, rfl, by simp⟩, by simp [hempty],
    fun _ => List.count_eq_zero_of_not_mem hwaiting⟩ after halive
  have hsound : s.Sound := ((sound_start loading).turns _).turns after
  obtain ⟨e, he⟩ := Option.isSome_iff_exists.1 (halive after List.prefix_rfl)
  obtain ⟨e', he', -, harmed⟩ := htally.engine
  obtain rfl := Option.some_inj.1 ((engines_of_engine? he).symm.trans he')
  have hpasses : s.passesOf index = e.passes := by
    rw [passesOf, engines_of_engine? he]
    rfl
  refine ⟨e, he, count_listener fun o => ?_, harmed, ?_, ?_, fun p hp _ => ?_⟩
  · rw [hsound.monitors o index, List.getElem?_map, engines_of_engine? he, Option.map_some, Option.some_inj]
  · rw [← hpasses]
    exact htally.passes
  · rw [← hpasses]
    show (built.turns after).passesOf index = _
    rw [passesOf_turns, hempty, Nat.zero_add]
  · exact leavesNothing_occurring ((sound_start loading).turns _) after _ hp p rfl

/-- An engine may watch when it asks again, is started while the document is being loaded, is asked for two
passes and is told of a paragraph with a comment in it. -/
def busyTurns : List Turn :=
  [.command (.watch 0), .refuse 0 {}, .command (.watch 0), .command (.start 0), .command .finishLoading,
    .command (.process 0), .command (.createElement "p"), .command (.createComment "MATHSTART".toList),
    .command (.append 5 6), .command (.append Document.body 5), .command .deliver, .command (.reprocess 0)]

/-- A document that has no observers for now. -/
def refusingObservers : Refusals :=
  { observe := some (.rejected "observe" "no observers") }

/-- The engine makes one pass for the start, two that it is asked for and one for the comment. -/
theorem passes_of_busyTurns :
    let built := (start true).turns [.command (.build .standard refusingObservers [])]
    (∀ l, l <+: busyTurns → ((built.turns l).engine? 0).isSome = true) ∧
      ∃ e, (built.turns busyTurns).engine? 0 = some e ∧ e.monitor.isSome = true ∧ e.passes = 4 := by
  have halive : ∀ l, l <+: busyTurns → ((((start true).turns
      [.command (.build .standard refusingObservers [])]).turns l).engine? 0).isSome = true := by
    intro l hl
    rw [← List.mem_inits] at hl
    revert l
    decide +kernel
  refine ⟨halive, ?_⟩
  obtain ⟨e, he, -, harmed, hpasses, -⟩ :=
    passes_accounted true [] .standard refusingObservers [] busyTurns halive
  refine ⟨e, he, harmed.2 ⟨busyTurns.take 2, ⟨_, rfl⟩, _, rfl, rfl⟩, hpasses.trans ?_⟩
  decide +kernel

end Session

end MarkedMath
