import MarkedMath.Proofs.Projections

/-!
# Turns of typesetters

Typesetters are asked to render one after the other, and each of them may do to the world whatever it likes. A turn
is a typesetter with the world that those before it leave behind (`renderTurns`), and what the report says of it
hangs on its turn alone (`RenderTurn.verdict`): whether it is there, whether it lacks delimiters, and what it
answers.

To see who is called, a run is attended (`attend`): every typesetter notes its place in the list when it is asked to
render. Otherwise the run is as it is when nobody attends (`trigger_eq_attend`). `trigger_accounts` says which places
are noted, that the report accounts for every turn, and that another answer of one typesetter changes no call and no
other turn.
-/

namespace MarkedMath

/-! ## Turns -/

/-- A typesetter with the world in which its turn comes. -/
structure RenderTurn (σ : Type) where
  /-- The typesetter. -/
  typesetter : Typesetter σ
  /-- The world. -/
  world : σ

/-- What a report says of a turn. -/
inductive Verdict where
  /-- The typesetter accepted the call. -/
  | dispatched
  /-- It was not called. -/
  | skipped
  /-- The call failed. -/
  | failed (e : RenderError)
  deriving DecidableEq

/-- The failure of a turn, if it failed. -/
def Verdict.error? : Verdict → Option RenderError
  | failed e => some e
  | _ => none

@[simp] lemma Verdict.error?_dispatched : dispatched.error? = none := rfl

@[simp] lemma Verdict.error?_skipped : skipped.error? = none := rfl

@[simp] lemma Verdict.error?_failed (e : RenderError) : (failed e).error? = some e := rfl

/-- The report on a single typesetter. -/
def Verdict.report (name : String) : Verdict → RenderReport
  | dispatched => { dispatched := [name] }
  | skipped => { skipped := [name] }
  | failed e => { failed := [e] }

section Turns

variable {σ : Type} (delimiters : List Delimiter)

namespace RenderTurn

/-- Whether the typesetter is asked to render: it is there, and it does not work from delimiters while there are
none. -/
def isReady (turn : RenderTurn σ) : Bool :=
  (turn.typesetter.available turn.world).1 && !(turn.typesetter.kind = .delimiter ∧ delimiters = [])

/-- What the typesetter answers when it is asked to render. -/
def answer (turn : RenderTurn σ) : Except RenderError Unit :=
  (turn.typesetter.render delimiters (turn.typesetter.available turn.world).2).1

/-- What the report says of the turn. -/
def verdict (turn : RenderTurn σ) : Verdict :=
  if turn.isReady delimiters then
    match turn.answer delimiters with
    | .ok _ => .dispatched
    | .error e => .failed e
  else .skipped

end RenderTurn

/-- The turns of typesetters: each of them comes in the world that those before it leave behind when they are asked
to render by themselves. -/
def renderTurns (ts : List (Typesetter σ)) (w : σ) : List (RenderTurn σ) :=
  ts.mapIdx fun i t => ⟨t, (trigger (fun _ w => w) delimiters (ts.take i) w).2⟩

/-! ## Attended runs -/

/-- A world in which calls and log records are noted. Typesetters see the world only. -/
structure Attended (σ : Type) where
  /-- The world of the typesetters. -/
  world : σ
  /-- The calls so far: the place of the typesetter in the list, and the delimiters that it was given. -/
  calls : List (Nat × List Delimiter) := []
  /-- The records so far. -/
  records : List Record := []

/-- Notes a log record. -/
def Attended.note (record : Record) (s : Attended σ) : Attended σ :=
  { s with records := s.records ++ [record] }

/-- The typesetter in an attended world, at a place in the list. -/
def Typesetter.numbered (t : Typesetter σ) (place : Nat) : Typesetter (Attended σ) where
  kind := t.kind
  name := t.name
  available s := ((t.available s.world).1, { s with world := (t.available s.world).2 })
  render delimiters s :=
    ((t.render delimiters s.world).1,
      { s with world := (t.render delimiters s.world).2, calls := s.calls ++ [(place, delimiters)] })

/-- The typesetter with other answers. What it does to the world stays the same. -/
def Typesetter.answering (answer : List Delimiter → σ → Except RenderError Unit) (t : Typesetter σ) : Typesetter σ :=
  { t with render := fun delimiters w => (answer delimiters w, (t.render delimiters w).2) }

/-- Asks typesetters to render and attends. -/
def attend (ts : List (Typesetter σ)) (w : σ) : RenderReport × Attended σ :=
  trigger Attended.note delimiters (ts.mapIdx fun i t => t.numbered i) { world := w }

/-- The typesetter in an attended world does to the world what it does by itself. -/
lemma Typesetter.numbered_projects (t : Typesetter σ) (place : Nat) :
    (t.numbered place).Projects Attended.world t :=
  ⟨rfl, rfl, fun _ => rfl, fun _ _ => rfl⟩

lemma forall₂_mapIdx_projects {τ : Type} {π : τ → σ} {f : Nat → Typesetter σ → Typesetter τ}
    (hf : ∀ i t, (f i t).Projects π t) (ts : List (Typesetter σ)) :
    List.Forall₂ (Typesetter.Projects π) (ts.mapIdx f) ts := by
  induction ts generalizing f with
  | nil => exact .nil
  | cons t ts ih =>
    rw [List.mapIdx_cons]
    exact .cons (hf 0 t) (ih fun i t => hf (i + 1) t)

/-- Attending changes nothing: the report is the one that typesetters give rise to by themselves, and so is the world
that they leave behind. -/
lemma trigger_eq_attend (ts : List (Typesetter σ)) (w : σ) :
    trigger (fun _ w => w) delimiters ts w = Prod.map id Attended.world (attend delimiters ts w) := by
  have hprojects := forall₂_mapIdx_projects (fun i (t : Typesetter σ) => t.numbered_projects i) ts
  exact (trigger_projects hprojects (fun _ _ => rfl) delimiters { world := w }).symm

/-! ## One turn -/

/-- What is noted and reported of one turn, and the world behind it. -/
lemma Typesetter.call_numbered (t : Typesetter σ) (place : Nat) (s : Attended σ) :
    ((t.numbered place).call Attended.note delimiters s).1 =
        (RenderTurn.verdict delimiters ⟨t, s.world⟩).report t.name ∧
      ((t.numbered place).call Attended.note delimiters s).2.world = (t.call (fun _ w => w) delimiters s.world).2 ∧
      ((t.numbered place).call Attended.note delimiters s).2.calls =
        s.calls ++ if RenderTurn.isReady delimiters ⟨t, s.world⟩ then [(place, delimiters)] else [] := by
  cases havailable : t.available s.world with
  | mk available w =>
  cases available with
  | false => simp [call, numbered, RenderTurn.verdict, RenderTurn.isReady, Verdict.report, havailable]
  | true =>
    by_cases hidle : t.kind = .delimiter ∧ delimiters = []
    · simp [call, numbered, RenderTurn.verdict, RenderTurn.isReady, Verdict.report, Attended.note, havailable, hidle]
    · have hready : RenderTurn.isReady delimiters ⟨t, s.world⟩ = true := by
        simp [RenderTurn.isReady, havailable, hidle]
      cases hanswer : t.render delimiters w with
      | mk answer w' =>
      cases answer with
      | ok => simp [call, numbered, RenderTurn.verdict, RenderTurn.answer, Verdict.report, Attended.note, havailable,
          hidle, hready, hanswer]
      | error e => simp [call, numbered, RenderTurn.verdict, RenderTurn.answer, Verdict.report, Attended.note,
          havailable, hidle, hready, hanswer]

/-! ## Turn after turn -/

lemma trigger_fst (log : Record → σ → σ) (ts : List (Typesetter σ)) (s : σ) :
    (trigger log delimiters ts s).1 = (callAll log delimiters ts s).1 := by
  simp only [trigger]
  split <;> rfl

lemma trigger_silent (ts : List (Typesetter σ)) (w : σ) :
    (trigger (fun _ w => w) delimiters ts w).2 = (callAll (fun _ w => w) delimiters ts w).2 := by
  simp only [trigger]
  split <;> rfl

lemma calls_trigger (ts : List (Typesetter (Attended σ))) (s : Attended σ) :
    (trigger Attended.note delimiters ts s).2.calls = (callAll Attended.note delimiters ts s).2.calls := by
  simp only [trigger]
  split <;> rfl

lemma renderTurns_cons (t : Typesetter σ) (ts : List (Typesetter σ)) (w : σ) :
    renderTurns delimiters (t :: ts) w =
      ⟨t, w⟩ :: renderTurns delimiters ts (t.call (fun _ w => w) delimiters w).2 := by
  simp [renderTurns, trigger_silent, callAll, List.mapIdx_cons]

/-- The calls and the report of an attended run, turn after turn. -/
lemma callAll_numbered (ts : List (Typesetter σ)) (first : Nat) (s : Attended σ) :
    let turns := renderTurns delimiters ts s.world
    let run := callAll Attended.note delimiters (ts.mapIdx fun i t => t.numbered (first + i)) s
    run.2.calls = s.calls ++ ((turns.zipIdx first).filter fun turn => turn.1.isReady delimiters).map
        (fun turn => (turn.2, delimiters)) ∧
      run.1 = ⟨(turns.filter fun turn => turn.verdict delimiters = .dispatched).map (·.typesetter.name),
        (turns.filter fun turn => turn.verdict delimiters = .skipped).map (·.typesetter.name),
        turns.filterMap fun turn => (turn.verdict delimiters).error?⟩ := by
  induction ts generalizing first s with
  | nil => exact ⟨by simp [renderTurns, callAll], rfl⟩
  | cons t ts ih =>
    obtain ⟨hreport, hworld, hcalls⟩ := t.call_numbered delimiters first s
    obtain ⟨hlater, hothers⟩ := ih (first + 1) ((t.numbered first).call Attended.note delimiters s).2
    have hshift : (fun (i : Nat) (t : Typesetter σ) => t.numbered (first + (i + 1))) =
        fun i t => t.numbered (first + 1 + i) := by
      funext i t
      rw [Nat.add_assoc, Nat.add_comm 1]
    rw [hworld] at hlater hothers
    simp only [renderTurns_cons, List.mapIdx_cons, Nat.add_zero, callAll, hshift, List.zipIdx_cons]
    constructor
    · rw [hlater, hcalls]
      by_cases hready : RenderTurn.isReady delimiters ⟨t, s.world⟩ = true
      · simp [hready]
      · simp [hready]
    · rw [hreport, hothers]
      cases hverdict : RenderTurn.verdict delimiters ⟨t, s.world⟩ with
      | dispatched => simp [Verdict.report, RenderReport.after, hverdict]
      | skipped => simp [Verdict.report, RenderReport.after, hverdict]
      | failed e => simp [Verdict.report, RenderReport.after, hverdict]

lemma calls_attend (ts : List (Typesetter σ)) (w : σ) :
    (attend delimiters ts w).2.calls = ((renderTurns delimiters ts w).zipIdx.filter fun turn =>
      turn.1.isReady delimiters).map fun turn => (turn.2, delimiters) := by
  have hcalls := (callAll_numbered delimiters ts 0 { world := w }).1
  simp only [Nat.zero_add, List.nil_append] at hcalls
  rw [attend, calls_trigger, hcalls]

lemma report_attend (ts : List (Typesetter σ)) (w : σ) :
    (attend delimiters ts w).1 =
      ⟨((renderTurns delimiters ts w).filter fun turn => turn.verdict delimiters = .dispatched).map
          (·.typesetter.name),
        ((renderTurns delimiters ts w).filter fun turn => turn.verdict delimiters = .skipped).map
          (·.typesetter.name),
        (renderTurns delimiters ts w).filterMap fun turn => (turn.verdict delimiters).error?⟩ := by
  have hreport := (callAll_numbered delimiters ts 0 { world := w }).2
  simp only [Nat.zero_add] at hreport
  rw [attend, trigger_fst, hreport]

/-- Every turn has one verdict. -/
lemma length_verdicts (turns : List (RenderTurn σ)) :
    (turns.filter fun turn => turn.verdict delimiters = .dispatched).length +
        (turns.filter fun turn => turn.verdict delimiters = .skipped).length +
      (turns.filterMap fun turn => (turn.verdict delimiters).error?).length = turns.length := by
  induction turns with
  | nil => rfl
  | cons turn turns ih =>
    cases hverdict : turn.verdict delimiters with
    | dispatched =>
      simp [hverdict]
      omega
    | skipped =>
      simp [hverdict]
      omega
    | failed e =>
      simp [hverdict]
      omega

/-! ## Other answers -/

/-- The world that a typesetter leaves behind. -/
lemma Typesetter.call_silent (t : Typesetter σ) (w : σ) :
    (t.call (fun _ w => w) delimiters w).2 =
      if RenderTurn.isReady delimiters ⟨t, w⟩ then (t.render delimiters (t.available w).2).2
      else (t.available w).2 := by
  cases havailable : t.available w with
  | mk available w' =>
  cases available with
  | false => simp [call, RenderTurn.isReady, havailable]
  | true =>
    by_cases hidle : t.kind = .delimiter ∧ delimiters = []
    · simp [call, RenderTurn.isReady, havailable, hidle]
    · cases hanswer : t.render delimiters w' with
      | mk answer w'' => cases answer <;> simp [call, RenderTurn.isReady, havailable, hidle, hanswer]

/-- Another answer leaves the same world behind. -/
lemma Typesetter.call_answering (answer : List Delimiter → σ → Except RenderError Unit) (t : Typesetter σ) (w : σ) :
    ((t.answering answer).call (fun _ w => w) delimiters w).2 = (t.call (fun _ w => w) delimiters w).2 := by
  rw [call_silent, call_silent]
  rfl

/-- With other answers of one typesetter the turns stay the same, but for that typesetter. -/
lemma renderTurns_modify (ts : List (Typesetter σ)) (i : Nat) (answer : List Delimiter → σ → Except RenderError Unit)
    (w : σ) :
    renderTurns delimiters (ts.modify i (·.answering answer)) w =
      (renderTurns delimiters ts w).modify i fun turn => { turn with typesetter := turn.typesetter.answering answer } := by
  induction ts generalizing i w with
  | nil => cases i <;> rfl
  | cons t ts ih =>
    cases i with
    | zero => simp [renderTurns_cons, Typesetter.call_answering]
    | succ i => simp [renderTurns_cons, ih]

/-- Who is called does not hang on what is answered. -/
lemma calls_attend_modify (ts : List (Typesetter σ)) (i : Nat)
    (answer : List Delimiter → σ → Except RenderError Unit) (w : σ) :
    (attend delimiters (ts.modify i (·.answering answer)) w).2.calls = (attend delimiters ts w).2.calls := by
  -- the calls are a function of which turns are ready
  have hready : ∀ turns : List (RenderTurn σ),
      (turns.zipIdx.filter fun turn => turn.1.isReady delimiters).map (fun turn => (turn.2, delimiters)) =
        ((turns.map (·.isReady delimiters)).zipIdx.filter Prod.fst).map fun ready => (ready.2, delimiters) := by
    intro turns
    rw [List.zipIdx_map, List.filter_map, List.map_map]
    rfl
  have hsame : ((renderTurns delimiters ts w).modify i fun turn =>
      { turn with typesetter := turn.typesetter.answering answer }).map (·.isReady delimiters) =
        (renderTurns delimiters ts w).map (·.isReady delimiters) := by
    refine List.ext_getElem? fun j => ?_
    rw [List.getElem?_map, List.getElem?_map, List.getElem?_modify, Option.map_eq_map, Option.map_map]
    congr 1
    funext turn
    by_cases hij : i = j <;> simp [hij, RenderTurn.isReady, Typesetter.answering]
  rw [calls_attend, calls_attend, renderTurns_modify, hready, hready, hsame]

end Turns

/-- **The report accounts for every typesetter.** Whatever typesetters do to the world and whatever they answer, those
are called that are there and do not lack delimiters, each of them once and with all delimiters, in the order of the
list. The report names, in the same order, those that accepted the call and those that were not called, and holds the
failures of all others. Another answer of one typesetter changes no call and no other turn. -/
theorem trigger_accounts {σ : Type} (delimiters : List Delimiter) (ts : List (Typesetter σ)) (w : σ) :
    let turns := renderTurns delimiters ts w
    let run := attend delimiters ts w
    run.2.calls = (turns.zipIdx.filter fun turn => turn.1.isReady delimiters).map (fun turn => (turn.2, delimiters)) ∧
      run.1.dispatched =
        (turns.filter fun turn => turn.verdict delimiters = .dispatched).map (·.typesetter.name) ∧
      run.1.skipped = (turns.filter fun turn => turn.verdict delimiters = .skipped).map (·.typesetter.name) ∧
      run.1.failed = (turns.filterMap fun turn => (turn.verdict delimiters).error?) ∧
      run.1.dispatched.length + run.1.skipped.length + run.1.failed.length = ts.length ∧
      ∀ i answer, (attend delimiters (ts.modify i (·.answering answer)) w).2.calls = run.2.calls ∧
        ∀ j, j ≠ i → ((renderTurns delimiters (ts.modify i (·.answering answer)) w)[j]?).map (·.verdict delimiters) =
          (turns[j]?).map (·.verdict delimiters) := by
  intro turns run
  have hlength : turns.length = ts.length := by simp [turns, renderTurns]
  have hreport := report_attend delimiters ts w
  refine ⟨calls_attend delimiters ts w, by rw [hreport], by rw [hreport], by rw [hreport], ?_,
    fun i answer => ⟨calls_attend_modify delimiters ts i answer w, fun j hj => ?_⟩⟩
  · rw [hreport, List.length_map, List.length_map, length_verdicts, hlength]
  · rw [renderTurns_modify, List.getElem?_modify_ne _ _ (Ne.symm hj)]

end MarkedMath
