import MarkedMath.Session
import MarkedMath.Proofs.Documents
import MarkedMath.Proofs.Pieces

/-!
# What a pass does

A property that no operation of a host and no call of a typesetter breaks is kept by a whole pass
(`runPass_keeps`). A session keeps a well-formed document, its observers and its engines that way.
-/

namespace MarkedMath

/-! ## What a pass keeps -/

section Keeps

variable {σ ν : Type} {P : σ → Prop}

/-- No operation of the host breaks the property. -/
structure Host.Keeps (host : Host σ ν) (P : σ → Prop) : Prop where
  normalize : ∀ s, P s → P (host.normalize s)
  textNodes : ∀ s, P s → P (host.textNodes s).2
  replaceText : ∀ n specs s, P s → P (host.replaceText n specs s).2
  insertStyle : ∀ id css s, P s → P (host.insertStyle id css s).2
  log : ∀ record s, P s → P (host.log record s)

/-- No call of the typesetter breaks the property. -/
structure Typesetter.Keeps (t : Typesetter σ) (P : σ → Prop) : Prop where
  available : ∀ s, P s → P (t.available s).2
  render : ∀ delimiters s, P s → P (t.render delimiters s).2

variable {host : Host σ ν}

/-- The texts of which segments are made are replaced by these, and nothing else is done to the document. -/
lemma convertNodes_keeps_of {g : Grammar} {layout : Layout}
    (hreplace : ∀ n counts segments after s, P s →
      g.segment? counts (host.textOf s n) = some (segments, after) →
        P (host.replaceText n (segments.map layout.nodeSpec) s).2)
    (hlog : ∀ record s, P s → P (host.log record s)) (counts : Counts) (nodes : List ν) {s : σ} (h : P s) :
    P (convertNodes host g layout counts nodes s).2 := by
  induction nodes generalizing counts s with
  | nil => exact h
  | cons n nodes ih =>
    rw [convertNodes]
    split
    · exact ih counts h
    · next segments after hsegments =>
      have hreplaced := hreplace n counts segments after s h hsegments
      split
      · next s' heq => exact ih after (by rwa [heq] at hreplaced)
      · next e s' heq => exact ih counts (hlog _ s' (by rwa [heq] at hreplaced))

lemma convertNodes_keeps (hkeeps : host.Keeps P) (g : Grammar) (layout : Layout) (counts : Counts)
    (nodes : List ν) {s : σ} (h : P s) : P (convertNodes host g layout counts nodes s).2 :=
  convertNodes_keeps_of (fun n _ _ _ s hs _ => hkeeps.replaceText n _ s hs) hkeeps.log counts nodes h

lemma convertDocument_keeps (hkeeps : host.Keeps P) (g : Grammar) (layout : Layout) {s : σ}
    (h : P s) : P (convertDocument host g layout s).2 :=
  convertNodes_keeps hkeeps g layout {} _ (hkeeps.textNodes _ (hkeeps.normalize s h))

lemma ensure_keeps (hkeeps : host.Keeps P) (sheet : Sheet) {s : σ} (h : P s) :
    P (sheet.ensure host s).2 := by
  rw [Sheet.ensure]
  split
  · exact h
  · have hinserted := hkeeps.insertStyle sheet.id sheet.css s h
    split
    · next s' heq => exact hkeeps.log _ s' (by rwa [heq] at hinserted)
    · next e s' heq => exact hkeeps.log _ s' (by rwa [heq] at hinserted)

variable {log : Record → σ → σ}

lemma Typesetter.call_keeps {t : Typesetter σ} (ht : t.Keeps P)
    (hlog : ∀ record s, P s → P (log record s)) (delimiters : List Delimiter) {s : σ} (h : P s) :
    P (t.call log delimiters s).2 := by
  have havailable := ht.available s h
  rw [Typesetter.call]
  split
  · next s' heq => rwa [heq] at havailable
  · next s' heq =>
    rw [heq] at havailable
    split
    · exact hlog _ s' havailable
    · have hrendered := ht.render delimiters _
        (hlog ⟨.debug, "triggering " ++ t.name ++ " rendering"⟩ s' havailable)
      split
      · next s'' heq => rwa [heq] at hrendered
      · next e s'' heq => exact hlog _ s'' (by rwa [heq] at hrendered)

lemma callAll_keeps {typesetters : List (Typesetter σ)} (ht : ∀ t ∈ typesetters, t.Keeps P)
    (hlog : ∀ record s, P s → P (log record s)) (delimiters : List Delimiter) {s : σ} (h : P s) :
    P (callAll log delimiters typesetters s).2 := by
  induction typesetters generalizing s with
  | nil => exact h
  | cons t typesetters ih =>
    rw [List.forall_mem_cons] at ht
    exact ih ht.2 (Typesetter.call_keeps ht.1 hlog delimiters h)

lemma trigger_keeps {typesetters : List (Typesetter σ)} (ht : ∀ t ∈ typesetters, t.Keeps P)
    (hlog : ∀ record s, P s → P (log record s)) (delimiters : List Delimiter) {s : σ} (h : P s) :
    P (trigger log delimiters typesetters s).2 := by
  have hcalled := callAll_keeps ht hlog delimiters h
  rw [trigger]
  split
  next report s' heq =>
    rw [heq] at hcalled
    split
    · exact hcalled
    · exact hlog _ s' hcalled

/-- What no step of a pass breaks holds after the pass. -/
lemma runPass_keeps (hkeeps : host.Keeps P) {settings : CheckedSettings}
    {typesetters : List (Typesetter σ)} (ht : ∀ t ∈ typesetters, t.Keeps P) {settle : σ → σ}
    (hsettle : ∀ s, P s → P (settle s)) {s : σ} (h : P s) :
    P (runPass host settings typesetters settle s).2 := by
  have hconverted := convertDocument_keeps hkeeps settings.grammar settings.layout h
  have hstyled := ensure_keeps hkeeps settings.sheet hconverted
  have hrendered := trigger_keeps ht hkeeps.log settings.delimiters hstyled
  exact hkeeps.log _ _ (hsettle _ hrendered)

end Keeps

/-! ## What a session keeps -/

namespace Session

/-- A session may follow another one: its document does, and its engines have the same observers. -/
structure Follows (s s' : Session) : Prop where
  /-- The document is well-formed and has the same observers. -/
  document : s.document.Follows s'.document
  /-- The engines have the same observers. -/
  monitors : s'.engines.map Engine.monitor = s.engines.map Engine.monitor

variable {s s' s'' : Session}

lemma Follows.refl (h : s.document.WellFormed) : s.Follows s :=
  ⟨⟨h, rfl⟩, rfl⟩

lemma Follows.trans (h : s.Follows s') (h' : s'.Follows s'') : s.Follows s'' :=
  ⟨h.document.trans h'.document, h'.monitors.trans h.monitors⟩

lemma Follows.perform (h : s.Follows s') {outcome : Except HostError Document}
    (hok : ∀ d, outcome = .ok d → s'.document.Follows d) : s.Follows (s'.perform outcome).2 := by
  cases outcome with
  | error e => exact h
  | ok d => exact ⟨h.document.trans (hok d rfl), h.monitors⟩

lemma map_monitor_modify (engines : List Engine) (index : Nat) {change : Engine → Engine}
    (hchange : ∀ e, (change e).monitor = e.monitor) :
    (engines.modify index change).map Engine.monitor = engines.map Engine.monitor := by
  refine List.ext_getElem? fun i => ?_
  rw [List.getElem?_map, List.getElem?_modify, List.getElem?_map]
  cases engines[i]? with
  | none => rfl
  | some e =>
    simp only [Option.map_eq_map, Option.map_some]
    split
    · rw [hchange e]
    · rfl

lemma Follows.modifyEngine (h : s.Follows s') (index : Nat) {change : Engine → Engine}
    (hchange : ∀ e, (change e).monitor = e.monitor) : s.Follows (s'.modifyEngine index change) :=
  ⟨h.document, (map_monitor_modify s'.engines index hchange).trans h.monitors⟩

lemma host_keeps (refusals : Refusals) (s : Session) : (host refusals).Keeps s.Follows where
  normalize s' h := ⟨h.document.trans (Document.follows_normalize h.document.wellFormed), h.monitors⟩
  textNodes _ h := h
  replaceText id specs s' h := by
    simp only [host]
    split
    · exact h
    · exact h.perform fun d hok => Document.follows_replaceText h.document.wellFormed hok
  insertStyle id css s' h := by
    simp only [host]
    split
    · exact h
    · exact h.perform fun d hok => Document.follows_insertStyle h.document.wellFormed hok
  log _ _ h := ⟨h.document, h.monitors⟩

lemma Follows.settle (h : s.Follows s') (index : Nat) : s.Follows (settle index s') := by
  rw [Session.settle]
  refine Follows.modifyEngine ?_ index fun _ => rfl
  split
  · next observer _ =>
    exact ⟨h.document.trans (Document.follows_takeRecords h.document.wellFormed observer),
      h.monitors⟩
  · exact h

lemma follows_pass (h : s.document.WellFormed) (index : Nat) (e : Engine) :
    s.Follows (s.pass index e).2 := by
  refine runPass_keeps (host_keeps e.refusals s) (fun t ht => ?_) (fun s' h => h.settle index)
    (Follows.refl h)
  obtain ⟨scripted, -, rfl⟩ := List.mem_map.1 ht
  exact ⟨fun _ h => h, fun _ _ h => ⟨h.document, h.monitors⟩⟩

end Session

end MarkedMath
