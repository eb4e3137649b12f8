import MarkedMath.Proofs.Conversion
import MarkedMath.Proofs.Patterns
import MarkedMath.Proofs.Runs
import MarkedMath.Proofs.Tree.Written

/-!
# What the change monitor finds

An engine that watches for changes is told of the nodes that were inserted below the body, and makes a pass
when one of them mentions a watch pattern. A text node is looked at as it is; an element is looked at as
markup, where some characters are escaped. So markers in elements are missed when neither their beginning
nor their end keeps a watch pattern, and this is the only way to miss one (`Session.watch_iff`).
-/

namespace MarkedMath

/-! ## Inserted nodes with markers -/

namespace Document

variable {d : Document} {g : Grammar} {hidden : NodeId → NodeData → Bool} {id x : NodeId}
  {data : NodeData} {c : Forest} {t : Text}

/-- Skipped elements, and the elements that a pass on this document makes for equations. -/
def covers (d : Document) (id : NodeId) (data : NodeData) : Bool :=
  Forest.isSkipped id data || decide (d.fresh ≤ id) && (data.attribute? "data-equation-id").isSome

lemma shows_covers (d : Document) (l : Layout) : l.Shows d.covers d.fresh false where
  text id t := by simp [covers, Forest.isSkipped, NodeData.tag?, NodeData.attribute?, NodeData.attributes]
  old id data h := by
    have hold : decide (d.fresh ≤ id) = false := decide_eq_false (Nat.not_le_of_lt h)
    rw [covers, hold, Bool.false_and, Bool.or_false]
  skipped id data h := by rw [covers, h, Bool.true_or]
  equation id e h := by
    have hattribute : ((l.equationData e).attribute? "data-equation-id").isSome = true := rfl
    rw [covers, hattribute, decide_eq_true h]
    exact Bool.or_true _

/-- A text node qualifies when its text mentions a watch pattern. -/
lemma qualifies_text (h : d.WellFormed) (hid : (id, .text t) ∈ d.forest.entries)
    {patterns : List Text} (ht : mentionsAny patterns t = true) :
    (d.snapshot id).qualifies patterns = true := by
  have hdata : d.data? id = some (.text t) := (Forest.data?_eq_some_iff h.nodup).2 hid
  rw [snapshot, hdata]
  exact ht

/-- A node with a text below it that is spotted qualifies, unless texts in it are skipped. -/
lemma qualifies_of_spots (h : d.WellFormed) (hhas : Forest.Has id data c d.forest)
    (hskipped : ∀ id data, Forest.isSkipped id data = true → hidden id data = true)
    (hshown : hidden id data = false) (hx : (x, t) ∈ c.textsOutside hidden) (ht : g.spots t = true) :
    (d.snapshot id).qualifies g.watchPatterns = true := by
  -- the elements whose text is written as it is are among those that are skipped
  have hraw : ∀ id tag attributes, markupStyle.rawTags.contains tag = true →
      hidden id (.element tag attributes) = true := by
    intro id tag attributes htag
    refine hskipped _ _ ?_
    simp only [markupStyle, List.contains_iff_mem, List.mem_cons, List.not_mem_nil, or_false] at htag
    rcases htag with rfl | rfl <;> rfl
  have hproper := hhas.proper h.proper
  have hnil : c ≠ .nil := by
    rintro rfl
    simp [Forest.textsOutside] at hx
  have helement := hproper.1.resolve_right hnil
  have hdata := hhas.data? h.nodup
  have hfind := hhas.find? h.nodup
  cases data with
  | text t => simp [NodeData.isElement, NodeData.tag?] at helement
  | comment t => simp [NodeData.isElement, NodeData.tag?] at helement
  | element tag attributes =>
    have htag : markupStyle.rawTags.contains tag = false := by
      by_contra htag
      rw [hraw id tag attributes (by simpa using htag)] at hshown
      exact absurd hshown (by decide)
    have hinner : d.innerMarkup id = c.write markupStyle false := by
      rw [innerMarkup, Forest.innerMarkup, hfind, ← htag]
      rfl
    have hin : escapeText t <:+: d.innerMarkup id :=
      hinner ▸ Forest.infix_write rfl hraw hproper.2 hx
    have hsnapshot : d.snapshot id = ⟨.element, d.innerMarkup id⟩ := by
      rw [snapshot, data?, hdata]
    rw [hsnapshot]
    exact mentionsAny_mono hin ht

end Document

namespace Session

variable {s : Session} {index observer : Nat} {e : Engine}

/-! ## Telling observers -/

/-- One engine of the session watches for changes, and it is refused nothing. -/
structure WatchedBy (s : Session) (index : Nat) (e : Engine) (observer : Nat) : Prop where
  /-- The engine still has handles. -/
  engine : s.engine? index = some e
  /-- Nothing is refused. -/
  refusals : e.refusals = {}
  /-- The observer of the engine. -/
  monitor : e.monitor = some observer
  /-- No other engine has an observer. -/
  alone : ∀ i e', s.engines[i]? = some e' → i ≠ index → e'.monitor = none

/-- Of all observers only the engine's tells an engine. -/
lemma WatchedBy.script (h : s.WatchedBy index e observer) (hs : s.Sound) {i : Nat} {o : Observer}
    (ho : s.document.observers[i]? = some o) (hi : i ≠ observer) :
    ∃ name, o.listener = .script name := by
  cases hlistener : o.listener with
  | script name => exact ⟨name, rfl⟩
  | engine j =>
    -- an observer that tells an engine is the monitor of that engine, and there is only one monitor
    exfalso
    have hmonitor : (s.engines.map Engine.monitor)[j]? = some (some i) := by
      rw [← hs.monitors, Document.listeners, List.getElem?_map, ho, Option.map_some, hlistener]
    rw [List.getElem?_map, Option.map_eq_some_iff] at hmonitor
    obtain ⟨e', he', hmonitor⟩ := hmonitor
    by_cases hj : j = index
    · subst hj
      obtain rfl : e = e' := Option.some_inj.1 ((engines_of_engine? h.engine).symm.trans he')
      rw [h.monitor, Option.some_inj] at hmonitor
      exact hi hmonitor.symm
    · rw [h.alone j e' he' hj] at hmonitor
      exact absurd hmonitor (by simp)

lemma WatchedBy.listener (h : s.WatchedBy index e observer) (hs : s.Sound) {o : Observer}
    (ho : s.document.observers[observer]? = some o) : o.listener = .engine index := by
  have hlistener : s.document.listeners[observer]? = some (.engine index) := by
    rw [hs.monitors, List.getElem?_map, engines_of_engine? h.engine, Option.map_some, h.monitor]
  rw [Document.listeners, List.getElem?_map, ho] at hlistener
  exact Option.some_inj.1 hlistener

/-- What observers are to be told of, and who is to be told. -/
def batchesOf (observers : List Observer) : List (Listener × List NodeId) :=
  (observers.filter fun o => !o.pending.isEmpty).map fun o => (o.listener, o.pending)

lemma exists_of_mem_batchesOf {observers : List Observer} {b : Listener × List NodeId}
    (h : b ∈ batchesOf observers) : ∃ o ∈ observers, b.1 = o.listener := by
  obtain ⟨o, ho, rfl⟩ := List.mem_map.1 h
  exact ⟨o, (List.mem_filter.1 ho).1, rfl⟩

/-- The batch of an observer, between the batches of other observers. -/
lemma batchesOf_eq {observers : List Observer} {o : Observer} (ho : observers[observer]? = some o)
    (hpending : o.pending ≠ []) :
    ∃ before after, batchesOf observers = before ++ (o.listener, o.pending) :: after ∧
      ∀ b ∈ before ++ after, ∃ i o', i ≠ observer ∧ observers[i]? = some o' ∧ b.1 = o'.listener := by
  obtain ⟨hlt, hget⟩ := List.getElem?_eq_some_iff.1 ho
  have hsplit : observers = observers.take observer ++ o :: observers.drop (observer + 1) := by
    rw [← hget, List.getElem_cons_drop, List.take_append_drop]
  have hkeep : (!o.pending.isEmpty) = true := by simpa using hpending
  refine ⟨batchesOf (observers.take observer), batchesOf (observers.drop (observer + 1)), ?_, ?_⟩
  · calc batchesOf observers
        = batchesOf (observers.take observer ++ o :: observers.drop (observer + 1)) := by
          rw [← hsplit]
      _ = _ := by
          rw [batchesOf, List.filter_append, List.filter_cons, if_pos hkeep, List.map_append,
            List.map_cons]
          rfl
  · intro b hb
    rcases List.mem_append.1 hb with hb | hb
    · obtain ⟨o', ho', hlistener⟩ := exists_of_mem_batchesOf hb
      obtain ⟨i, hi, hget'⟩ := List.mem_take_iff_getElem.1 ho'
      have hi' := Nat.lt_min.1 hi
      exact ⟨i, o', Nat.ne_of_lt hi'.1, hget' ▸ List.getElem?_eq_getElem _, hlistener⟩
    · obtain ⟨o', ho', hlistener⟩ := exists_of_mem_batchesOf hb
      obtain ⟨i, hi⟩ := List.mem_iff_getElem?.1 ho'
      rw [List.getElem?_drop] at hi
      exact ⟨observer + 1 + i, o', by omega, hi, hlistener⟩

/-- Telling those who only note what they are told changes neither the document nor the engines. -/
lemma foldl_notify_scripts {batches : List (Listener × List NodeId)}
    (h : ∀ b ∈ batches, ∃ name, b.1 = .script name) (s : Session) :
    (batches.foldl notify s).document = s.document ∧
      (batches.foldl notify s).engines = s.engines := by
  induction batches generalizing s with
  | nil => exact ⟨rfl, rfl⟩
  | cons b batches ih =>
    obtain ⟨⟨name, hname⟩, hrest⟩ := List.forall_mem_cons.1 h
    obtain ⟨hdocument, hengines⟩ := ih hrest (s.notify b)
    have hnotify : s.notify b = s.note (.batch name (b.2.map s.document.snapshot)) := by
      rw [notify, hname]
    rw [List.foldl_cons, hdocument, hengines, hnotify]
    exact ⟨rfl, rfl⟩

/-- Delivering comes down to telling the engine, on a session with the same nodes and engines. -/
lemma WatchedBy.deliver (h : s.WatchedBy index e observer) (hs : s.Sound) {o : Observer}
    (ho : s.document.observers[observer]? = some o) (hpending : o.pending ≠ []) :
    ∃ told : Session, told.document = s.document.takeBatches.2 ∧ told.engine? index = some e ∧
      s.deliver.2.document = (told.notify (.engine index, o.pending)).document := by
  obtain ⟨before, after, hbatches, hothers⟩ := batchesOf_eq ho hpending
  have hscripts : ∀ b ∈ before ++ after, ∃ name, b.1 = Listener.script name := by
    intro b hb
    obtain ⟨i, o', hi, ho', hlistener⟩ := hothers b hb
    obtain ⟨name, hname⟩ := h.script hs ho' hi
    exact ⟨name, hlistener.trans hname⟩
  obtain ⟨hdocument, hengines⟩ := foldl_notify_scripts
    (fun b hb => hscripts b (List.mem_append_left _ hb)) { s with document := s.document.takeBatches.2 }
  refine ⟨before.foldl notify { s with document := s.document.takeBatches.2 }, hdocument, ?_, ?_⟩
  · rw [engine?, hengines]
    exact h.engine
  · have hdeliver : s.deliver.2 =
        (batchesOf s.document.observers).foldl notify
          { s with document := s.document.takeBatches.2 } := rfl
    rw [hdeliver, hbatches, h.listener hs ho, List.foldl_append, List.foldl_cons,
      (foldl_notify_scripts (fun b hb => hscripts b (List.mem_append_right _ hb)) _).1]

/-! ## Markers left behind -/

/-- When observers are told, the nodes that one of them is told of and that stand below the body
afterwards show no marker, but for skipped elements and the equations of the pass. -/
def MissesNothing (s : Session) (g : Grammar) (observer : Nat) : Prop :=
  ∀ o, s.document.observers[observer]? = some o → ∀ node ∈ o.pending,
    let told := s.deliver.2.document
    told.forest.isWithin node Document.body = true →
      ∀ p ∈ (told.forest.childrenOf Document.body).textsOutside s.document.covers,
        told.forest.isWithin p.1 node = true → ∀ kind, ¬ (g.rule kind).Holds p.2

/-- After a pass no text of the body holds a marker, but for the payloads. -/
lemma not_holds_after_pass (index : Nat) (hr : e.refusals = {}) (h : s.document.WellFormed)
    {p : NodeId × Text} (hp : p ∈ ((s.pass index e).2.document.forest.childrenOf
      Document.body).textsOutside s.document.covers) (kind : Kind) :
    ¬ (e.settings.grammar.rule kind).Holds p.2 := by
  obtain ⟨attributes, children, hbody⟩ := h.exists_has_body
  obtain ⟨children', hbody', -, htexts⟩ :=
    pass_spec index hr (Document.shows_covers s.document e.settings.layout) h hbody
  rw [hbody'.childrenOf (follows_pass h index e).document.wellFormed.nodup] at hp
  have hshown := List.mem_map_of_mem (f := Prod.snd) hp
  rw [htexts, List.mem_flatMap] at hshown
  obtain ⟨t, -, hshown⟩ := hshown
  obtain ⟨piece, hpiece, hshown⟩ := List.mem_flatMap.1 hshown
  cases piece with
  | text u =>
    -- a piece of text holds no marker of either kind
    obtain rfl := List.mem_singleton.1 hshown
    exact (e.settings.grammar.text_of_mem_pieces hpiece).2 kind
  | marker => exact absurd hshown List.not_mem_nil

/-- A node of the body with a marker in it qualifies, where markers are spotted. -/
lemma qualifies_of_holds {d : Document} {g : Grammar} (h : d.WellFormed)
    (hspots : ∀ kind, g.spotsMarkers kind = true) {node : NodeId}
    (hnode : d.forest.isWithin node Document.body = true) {p : NodeId × Text}
    (hp : p ∈ (d.forest.childrenOf Document.body).textsOutside d.covers)
    (hin : d.forest.isWithin p.1 node = true) {kind : Kind} (hholds : (g.rule kind).Holds p.2) :
    (d.snapshot node).qualifies g.watchPatterns = true := by
  obtain ⟨x, t⟩ := p
  obtain ⟨attributes, children, hbody⟩ := h.exists_has_body
  have hspotted := Grammar.spots_of_holds (hspots kind) hholds
  have hskipped : ∀ id data, Forest.isSkipped id data = true → d.covers id data = true := by
    intro id data hdata
    rw [Document.covers, hdata, Bool.true_or]
  rw [hbody.childrenOf h.nodup] at hp
  rcases (hbody.isWithin_iff h.nodup).1 hnode with rfl | hnode
  · have hshown : d.covers Document.body (.element "body" attributes) = false := by
      have hold := Nat.not_le_of_lt (h.lt_fresh _ hbody.mem_ids)
      rw [Document.covers, decide_eq_false hold]
      rfl
    exact Document.qualifies_of_spots h hbody hskipped hshown hp hspotted
  · obtain ⟨data, below, hhas⟩ := Forest.exists_has_of_mem_ids hnode
    have hhas' := hbody.trans hhas
    rcases (hhas'.isWithin_iff h.nodup).1 hin with rfl | hin
    · have hentry := hbody.entries_subset (Forest.mem_entries_of_mem_textsOutside hp)
      exact Document.qualifies_text h hentry (Grammar.mentionsAny_of_holds hholds)
    · obtain ⟨hshown, hbelow⟩ := hhas.mem_textsOutside (hbody.nodup h.nodup).2 hp hin
      exact Document.qualifies_of_spots h hhas' hskipped hshown hbelow hspotted

/-- Where markers of both kinds are spotted, an engine that watches misses none. -/
lemma WatchedBy.missesNothing (h : s.WatchedBy index e observer) (hs : s.Sound)
    (hspots : ∀ kind, e.settings.grammar.spotsMarkers kind = true) :
    s.MissesNothing e.settings.grammar observer := by
  intro o ho node hnode told hbelow p hp hin kind hholds
  obtain ⟨s', hdocument, hengine, htold⟩ := h.deliver hs ho (List.ne_nil_of_mem hnode)
  have hforest : s'.document.forest = s.document.forest := by rw [hdocument]; rfl
  have hfresh : s'.document.fresh = s.document.fresh := by rw [hdocument]; rfl
  have hcovers : s.document.covers = s'.document.covers := by
    funext id data
    rw [Document.covers, Document.covers, hfresh]
  have hwell : s'.document.WellFormed := hs.wellFormed.of_forest hforest hfresh
  have hnotify : told = (if batchQualifies e.settings.grammar.watchPatterns
      (o.pending.map s'.document.snapshot) then ((s'.log .contentDetected).pass index e).2
      else s').document := by
    rw [show told = s.deliver.2.document from rfl, htold, notify]
    simp only [hengine]
  rw [hcovers] at hp
  split at hnotify
  · rw [hnotify] at hp
    exact not_holds_after_pass index h.refusals (s := s'.log .contentDetected) hwell hp kind hholds
  · -- the forest is the one that the engine was shown, so the node would have qualified
    next hquiet =>
    rw [hnotify] at hbelow hp hin
    have hqualifies := qualifies_of_holds hwell hspots hbelow hp hin hholds
    exact hquiet (List.any_eq_true.2 ⟨_, List.mem_map_of_mem hnode, hqualifies⟩)

/-! ## A marker that is missed -/

/-- An engine watches a document, and a paragraph with a text in it is put into the body. -/
def insertParagraph (settings : CheckedSettings) (t : Text) : List Command :=
  [.build settings {} [], .watch 0, .createElement "p", .createText t, .append 3 4,
    .append Document.body 3]

/-- The engine before it is told of the paragraph. -/
def watching (settings : CheckedSettings) : Engine :=
  { settings, refusals := {}, typesetters := [], monitor := some 0 }

/-- The document when the engine is about to be told. -/
def paragraph (t : Text) : Document where
  forest :=
    .node Document.html (.element "html" [])
      (.node Document.head (.element "head" []) .nil
        (.node Document.body (.element "body" [])
          (.node 3 (.element "p" []) (.leaf 4 (.text t)) .nil) .nil)) .nil
  fresh := 5
  loading := false
  observers := [⟨.engine 0, [3]⟩]

lemma run_insertParagraph (settings : CheckedSettings) (t : Text) :
    run false (insertParagraph settings t) =
      { document := paragraph t, engines := [watching settings], records := [.watching] } := by
  rfl

lemma watchedBy_insertParagraph (settings : CheckedSettings) (t : Text) :
    (run false (insertParagraph settings t)).WatchedBy 0 (watching settings) 0 := by
  rw [run_insertParagraph]
  refine ⟨rfl, rfl, rfl, fun i e' he' hi => ?_⟩
  have hlt := (List.getElem?_eq_some_iff.1 he').1
  exact absurd (Nat.lt_one_iff.1 hlt) hi

/-- The paragraph is shown as its markup. -/
lemma snapshot_paragraph (t : Text) : (paragraph t).snapshot 3 = ⟨.element, escapeText t⟩ := by
  have hinner : (paragraph t).innerMarkup 3 = escapeText t ++ [] := rfl
  rw [List.append_nil] at hinner
  rw [← hinner]
  rfl

/-- A marker in the paragraph is missed when its markup mentions no watch pattern. -/
lemma not_missesNothing_insertParagraph {settings : CheckedSettings} {t : Text} {kind : Kind}
    (hquiet : settings.grammar.spots t = false) (hholds : (settings.grammar.rule kind).Holds t) :
    ¬ (run false (insertParagraph settings t)).MissesNothing settings.grammar 0 := by
  intro hmisses
  have hdocument : (run false (insertParagraph settings t)).document = paragraph t := by
    rw [run_insertParagraph]
  have hobserver : (run false (insertParagraph settings t)).document.observers[0]? =
      some ⟨.engine 0, [3]⟩ := by
    rw [hdocument]
    rfl
  obtain ⟨s', hs', hengine, htold⟩ := (watchedBy_insertParagraph settings t).deliver
    (sound_run false _) hobserver (by simp)
  have hsnapshot : s'.document.snapshot 3 = ⟨.element, escapeText t⟩ := by
    rw [hs', hdocument]
    exact snapshot_paragraph t
  have hnotify : s'.notify (.engine 0, [3]) = s' := by
    have hbatch : batchQualifies settings.grammar.watchPatterns [⟨.element, escapeText t⟩] = false := by
      have hmentions : mentionsAny settings.grammar.watchPatterns (escapeText t) = false := hquiet
      simp [batchQualifies, Inserted.qualifies, hmentions]
    simp only [notify, hengine, List.map_cons, List.map_nil, hsnapshot]
    exact if_neg (by rw [Bool.not_eq_true]; exact hbatch)
  rw [hnotify, hs', hdocument] at htold
  have hmiss := hmisses _ hobserver 3 (List.mem_singleton.2 rfl)
  simp only [htold, hdocument] at hmiss
  exact hmiss rfl (4, t) (List.mem_singleton.2 rfl) rfl kind hholds

/-- **What the change monitor finds.** After any run, an engine that alone watches for changes and is
refused nothing misses no marker in what was inserted exactly when markup shows a watch pattern in every
marker, however it begins or however it ends. -/
theorem watch_iff (settings : CheckedSettings) :
    (∀ loading commands index e observer,
        (run loading commands).WatchedBy index e observer → e.settings = settings →
          (run loading commands).MissesNothing settings.grammar observer) ↔
      ∀ kind, settings.grammar.spotsMarkers kind = true := by
  constructor
  · intro hmisses kind
    by_contra hspots
    obtain ⟨m, hm, hquiet⟩ := Grammar.exists_marker_not_spotted (Bool.not_eq_true _ ▸ hspots)
    exact not_missesNothing_insertParagraph hquiet ⟨m, hm, List.infix_rfl⟩
      (hmisses _ _ _ _ _ (watchedBy_insertParagraph settings m) rfl)
  · rintro hspots loading commands index e observer hwatched rfl
    exact hwatched.missesNothing (sound_run loading commands) hspots

example (kind : Kind) : Grammar.standard.spotsMarkers kind = true := by
  cases kind <;> decide

/-- Settings with tokens that are escaped in markup. -/
def angledSettings : CheckedSettings :=
  ⟨{ tokens := ⟨"<<", ">>", "[[", "]]"⟩ }, by decide⟩

/-- A paragraph with the marker `<<(x)>>` in it is shown to the engine as `&lt;&lt;(x)&gt;&gt;`, in which
no token is found. -/
theorem escaped_marker_missed :
    let s := run false (insertParagraph angledSettings "<<(x)>>".toList)
    s.WatchedBy 0 (watching angledSettings) 0 ∧ ¬ s.MissesNothing angledSettings.grammar 0 := by
  refine ⟨watchedBy_insertParagraph _ _, ?_⟩
  have hquiet : angledSettings.grammar.spots "<<(x)>>".toList = false := by decide
  have hholds : (angledSettings.grammar.rule .inline).Holds "<<(x)>>".toList :=
    ⟨_, ⟨[], ['x'], [], Or.inl rfl, Or.inl rfl, by decide, rfl⟩, List.infix_rfl⟩
  exact not_missesNothing_insertParagraph hquiet hholds

end Session

end MarkedMath
