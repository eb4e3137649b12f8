import MarkedMath.Log
import MarkedMath.Settings

/-!
# Typesetters

After a pass every typesetter that the document offers is asked to render the new equations. A
typesetter that is not there is skipped, and one that fails does not keep the others from rendering.
-/

namespace MarkedMath

/-- What a typesetter works from. -/
inductive TypesetterKind where
  /-- Nothing: it renders nothing. -/
  | none
  /-- The whole document. -/
  | tex
  /-- Pairs of delimiters. -/
  | delimiter
  deriving DecidableEq, Repr

/-- The name of the kind. -/
def TypesetterKind.name : TypesetterKind → String
  | none => "none"
  | tex => "tex"
  | delimiter => "delimiter"

/-- A typesetter could not render. -/
structure RenderError where
  /-- The typesetter. -/
  engine : String
  /-- What went wrong. -/
  reason : String
  deriving DecidableEq, Repr

/-- The failure in words. -/
def RenderError.message (e : RenderError) : String :=
  e.engine ++ " render failed: " ++ e.reason

/-- A typesetter in a world with states `σ`. -/
structure Typesetter (σ : Type) where
  /-- What it works from. -/
  kind : TypesetterKind
  /-- Its name in messages. -/
  name : String
  /-- Whether it is there. -/
  available : σ → Bool × σ
  /-- Asks it to render. -/
  render : List Delimiter → σ → Except RenderError Unit × σ

/-- The typesetter of a document that has none. -/
def Typesetter.absent {σ : Type} : Typesetter σ where
  kind := .none
  name := "none"
  available s := (false, s)
  render _ s := (.ok (), s)

/-- What became of each typesetter. -/
structure RenderReport where
  /-- Those that accepted the call. -/
  dispatched : List String := []
  /-- Those that were not called. -/
  skipped : List String := []
  /-- Those that failed. -/
  failed : List RenderError := []
  deriving DecidableEq, Repr, Inhabited

namespace RenderReport

/-- Whether any typesetter rendered. -/
def rendered (r : RenderReport) : Bool :=
  !r.dispatched.isEmpty

/-- The report of what came first, followed by this one. -/
def after (r first : RenderReport) : RenderReport :=
  ⟨first.dispatched ++ r.dispatched, first.skipped ++ r.skipped, first.failed ++ r.failed⟩

end RenderReport

section Trigger

variable {σ : Type} (log : Record → σ → σ) (delimiters : List Delimiter)

/-- Asks one typesetter to render, unless it is not there or works from delimiters and gets none. -/
def Typesetter.call (t : Typesetter σ) (s : σ) : RenderReport × σ :=
  match t.available s with
  | (false, s) => ({ skipped := [t.name] }, s)
  | (true, s) =>
    if t.kind = .delimiter ∧ delimiters = [] then
      ({ skipped := [t.name] }, log ⟨.debug, t.name ++ " skipped: no delimiters configured"⟩ s)
    else
      match t.render delimiters (log ⟨.debug, "triggering " ++ t.name ++ " rendering"⟩ s) with
      | (.ok _, s) => ({ dispatched := [t.name] }, s)
      | (.error e, s) => ({ failed := [e] }, log ⟨.error, e.message⟩ s)

/-- Asks typesetters to render, one after the other. -/
def callAll : List (Typesetter σ) → σ → RenderReport × σ
  | [], s => ({}, s)
  | t :: rest, s =>
    let (first, s) := t.call log delimiters s
    let (others, s) := callAll rest s
    (others.after first, s)

/-- Asks all typesetters of a document to render and reports what became of each. -/
def trigger (typesetters : List (Typesetter σ)) (s : σ) : RenderReport × σ :=
  let (report, s) := callAll log delimiters typesetters s
  if report.rendered then (report, s)
  else
    (report, log ⟨.debug, "no typesetting engine rendered; equations stay as styled containers"⟩ s)

end Trigger

/-! ## Typesetters given by their behaviour -/

/-- A typesetter by what it will do when it is called. -/
structure ScriptedTypesetter where
  /-- What it works from. -/
  kind : TypesetterKind
  /-- Its name. -/
  name : String
  /-- Whether it is there. -/
  available : Bool := true
  /-- The reason of its failure, if it fails. -/
  fail : Option String := .none
  deriving DecidableEq, Repr

/-- A call that a typesetter received. -/
structure RenderCall where
  /-- The typesetter. -/
  name : String
  /-- What it works from. -/
  kind : TypesetterKind
  /-- The delimiters that it was given. -/
  delimiters : List Delimiter
  deriving DecidableEq, Repr

/-- The typesetter in a world that records the calls it receives, failing ones included. -/
def ScriptedTypesetter.typesetter {σ : Type} (record : RenderCall → σ → σ)
    (t : ScriptedTypesetter) : Typesetter σ where
  kind := t.kind
  name := t.name
  available s := (t.available, s)
  render delimiters s :=
    (match t.fail with
      | .none => .ok ()
      | some reason => .error ⟨t.name, reason⟩,
     record ⟨t.name, t.kind, delimiters⟩ s)

end MarkedMath
