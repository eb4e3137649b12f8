import MarkedMath.Proofs.Passes

/-!
# Worlds with more state

A host may have more state than another one and do on a part of its state what the other host does, and so may
a typesetter. What is then run in the larger world does on that part what it does in the smaller one: asking
typesetters to render (`trigger_projects`) and whole passes (`runPass_projects`). So a run can be watched, and
what is noted on the way changes nothing in it.
-/

namespace MarkedMath

variable {σ τ ν : Type}

/-- The operations of a host do on a part of its state what those of another host do. -/
structure Host.Projects (π : σ → τ) (h : Host σ ν) (h' : Host τ ν) : Prop where
  normalize : ∀ s, π (h.normalize s) = h'.normalize (π s)
  textNodes : ∀ s, Prod.map id π (h.textNodes s) = h'.textNodes (π s)
  textOf : ∀ s n, h.textOf s n = h'.textOf (π s) n
  replaceText : ∀ n specs s, Prod.map id π (h.replaceText n specs s) = h'.replaceText n specs (π s)
  hasStyle : ∀ id s, h.hasStyle id s = h'.hasStyle id (π s)
  insertStyle : ∀ style css s, Prod.map id π (h.insertStyle style css s) = h'.insertStyle style css (π s)
  log : ∀ record s, π (h.log record s) = h'.log record (π s)

/-- The typesetter does on a part of the state what another one does. -/
structure Typesetter.Projects (π : σ → τ) (t : Typesetter σ) (t' : Typesetter τ) : Prop where
  kind : t.kind = t'.kind
  name : t.name = t'.name
  available : ∀ s, Prod.map id π (t.available s) = t'.available (π s)
  render : ∀ delimiters s, Prod.map id π (t.render delimiters s) = t'.render delimiters (π s)

variable {π : σ → τ} {h : Host σ ν} {h' : Host τ ν}

lemma convertNodes_projects (hp : h.Projects π h') (g : Grammar) (l : Layout) (counts : Counts)
    (nodes : List ν) (s : σ) :
    Prod.map id π (convertNodes h g l counts nodes s) = convertNodes h' g l counts nodes (π s) := by
  induction nodes generalizing counts s with
  | nil => rfl
  | cons n nodes ih =>
    rw [convertNodes, convertNodes, ← hp.textOf]
    cases g.segment? counts (h.textOf s n) with
    | none => exact ih counts s
    | some found =>
      have hreplaced := hp.replaceText n (found.1.map l.nodeSpec) s
      simp only [← hreplaced]
      obtain ⟨outcome, s'⟩ := h.replaceText n (found.1.map l.nodeSpec) s
      cases outcome with
      | ok => exact ih found.2 s'
      | error e =>
        simp only [Prod.map_apply, id, ← hp.log]
        exact ih counts _

lemma convertDocument_projects (hp : h.Projects π h') (g : Grammar) (l : Layout) (s : σ) :
    Prod.map id π (convertDocument h g l s) = convertDocument h' g l (π s) := by
  have htexts := hp.textNodes (h.normalize s)
  rw [hp.normalize] at htexts
  rw [convertDocument, convertDocument, ← htexts]
  exact convertNodes_projects hp g l {} _ _

lemma ensure_projects (hp : h.Projects π h') (sheet : Sheet) (s : σ) :
    Prod.map id π (sheet.ensure h s) = sheet.ensure h' (π s) := by
  rw [Sheet.ensure, Sheet.ensure, ← hp.hasStyle]
  split
  · rfl
  · have hinserted := hp.insertStyle sheet.id sheet.css s
    simp only [← hinserted]
    obtain ⟨outcome, s'⟩ := h.insertStyle sheet.id sheet.css s
    cases outcome with
    | ok => simp only [Prod.map_apply, id, ← hp.log]
    | error e => simp only [Prod.map_apply, id, ← hp.log]

variable {log : Record → σ → σ} {log' : Record → τ → τ}

lemma Typesetter.call_projects {t : Typesetter σ} {t' : Typesetter τ} (ht : t.Projects π t')
    (hlog : ∀ record s, π (log record s) = log' record (π s)) (delimiters : List Delimiter) (s : σ) :
    Prod.map id π (t.call log delimiters s) = t'.call log' delimiters (π s) := by
  have havailable := ht.available s
  rw [call, call, ← havailable, ← ht.kind, ← ht.name]
  obtain ⟨available, s'⟩ := t.available s
  cases available with
  | false => rfl
  | true =>
    simp only [Prod.map_apply, id]
    split
    · simp only [Prod.map_apply, id, hlog]
    · have hrendered := ht.render delimiters (log ⟨.debug, "triggering " ++ t.name ++ " rendering"⟩ s')
      rw [hlog] at hrendered
      simp only [← hrendered]
      obtain ⟨outcome, s''⟩ := t.render delimiters (log ⟨.debug, "triggering " ++ t.name ++ " rendering"⟩ s')
      cases outcome with
      | ok => rfl
      | error e => simp only [Prod.map_apply, id, hlog]

lemma callAll_projects {ts : List (Typesetter σ)} {ts' : List (Typesetter τ)}
    (ht : List.Forall₂ (Typesetter.Projects π) ts ts')
    (hlog : ∀ record s, π (log record s) = log' record (π s)) (delimiters : List Delimiter) (s : σ) :
    Prod.map id π (callAll log delimiters ts s) = callAll log' delimiters ts' (π s) := by
  induction ht generalizing s with
  | nil => rfl
  | @cons t t' ts ts' ht _ ih =>
    rw [callAll, callAll, ← Typesetter.call_projects ht hlog delimiters s]
    obtain ⟨first, s'⟩ := t.call log delimiters s
    simp only [Prod.map_apply, id, ← ih]
    rfl

lemma trigger_projects {ts : List (Typesetter σ)} {ts' : List (Typesetter τ)}
    (ht : List.Forall₂ (Typesetter.Projects π) ts ts')
    (hlog : ∀ record s, π (log record s) = log' record (π s)) (delimiters : List Delimiter) (s : σ) :
    Prod.map id π (trigger log delimiters ts s) = trigger log' delimiters ts' (π s) := by
  rw [trigger, trigger, ← callAll_projects ht hlog delimiters s]
  obtain ⟨report, s'⟩ := callAll log delimiters ts s
  simp only [Prod.map_apply, id]
  split
  · rfl
  · simp only [Prod.map_apply, id, hlog]

/-- A property of the part of the state is kept when the other host keeps it. -/
lemma Host.Projects.keeps {P : τ → Prop} (hp : h.Projects π h') (hkeeps : h'.Keeps P) :
    h.Keeps fun s => P (π s) where
  normalize s hs := by
    rw [hp.normalize]
    exact hkeeps.normalize _ hs
  textNodes s hs := by
    have htexts := hkeeps.textNodes _ hs
    rwa [← hp.textNodes] at htexts
  replaceText n specs s hs := by
    have hreplaced := hkeeps.replaceText n specs _ hs
    rwa [← hp.replaceText] at hreplaced
  insertStyle id css s hs := by
    have hinserted := hkeeps.insertStyle id css _ hs
    rwa [← hp.insertStyle] at hinserted
  log record s hs := by
    rw [hp.log]
    exact hkeeps.log record _ hs

/-- A pass does on the part of the state what a pass of the other host does. -/
lemma runPass_projects (hp : h.Projects π h') {settings : CheckedSettings} {ts : List (Typesetter σ)}
    {ts' : List (Typesetter τ)} (ht : List.Forall₂ (Typesetter.Projects π) ts ts') {settle : σ → σ}
    {g : τ → τ} (hsettle : ∀ s, π (settle s) = g (π s)) (s : σ) :
    Prod.map id π (runPass h settings ts settle s) = runPass h' settings ts' g (π s) := by
  rw [runPass, runPass, ← convertDocument_projects hp]
  simp only [Prod.map_fst, Prod.map_snd, id, ← ensure_projects hp, ← trigger_projects ht hp.log]
  simp only [Prod.map_apply, id, hp.log, hsettle]

end MarkedMath
