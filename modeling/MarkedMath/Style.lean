import MarkedMath.Host

/-!
# Style rules

The rules that give equations their looks, and the step that makes sure that a document holds them
once.
-/

namespace MarkedMath

/-- A rule: what it applies to and its declarations. -/
structure StyleRule where
  /-- The selectors, as they are written. -/
  selectors : String
  /-- Properties with their values. -/
  declarations : List (String × String)
  deriving DecidableEq, Repr

namespace StyleRule

/-- Text between braces, with a line break behind each brace. -/
def braced (indent inner : String) : String :=
  " \x7b\n" ++ inner ++ indent ++ "\x7d\n"

/-- The rule as it is written with every line indented. -/
def written (indent : String) (r : StyleRule) : String :=
  let line (d : String × String) : String := indent ++ "    " ++ d.1 ++ ": " ++ d.2 ++ ";\n"
  indent ++ r.selectors ++ braced indent (String.join (r.declarations.map line))

end StyleRule

namespace Settings

/-- The selector of equations of a kind. -/
def equationSelector (s : Settings) (kind : Kind) : String :=
  "." ++ s.equationClass kind

/-- The selector of the mark before equations of a kind while identifiers are shown. -/
def debugSelector (s : Settings) (kind : Kind) : String :=
  "." ++ s.debugClass ++ " " ++ s.equationSelector kind ++ "::before"

/-- Inline equations. -/
def inlineRule (s : Settings) : StyleRule :=
  ⟨s.equationSelector .inline, [("display", "inline"), ("margin", "0 0.2em")]⟩

/-- Display equations. -/
def displayRule (s : Settings) : StyleRule :=
  ⟨s.equationSelector .display,
    [("display", "block"), ("text-align", "center"), ("margin", "1em auto"),
      ("overflow-x", "auto"), ("padding", "0.5em"), ("max-width", "100%")]⟩

/-- Equations under the pointer. -/
def hoverRule (s : Settings) : StyleRule :=
  ⟨s.equationSelector .inline ++ ":hover, " ++ s.equationSelector .display ++ ":hover",
    [("background-color", "rgba(255, 255, 0, 0.05)"),
      ("transition", "background-color 0.3s ease")]⟩

/-- Display equations on narrow screens. -/
def narrowRule (s : Settings) : StyleRule :=
  ⟨s.equationSelector .display, [("font-size", "0.9em"), ("padding", "0.3em")]⟩

/-- The identifiers shown before equations. -/
def debugRule (s : Settings) : StyleRule :=
  ⟨s.debugSelector .inline ++ ",\n" ++ s.debugSelector .display,
    [("content", "\"[\" attr(data-equation-id) \"] \""), ("color", "#ff6b6b"),
      ("font-size", "0.7em"), ("font-family", "monospace")]⟩

/-- All style rules as they are written. -/
def css (s : Settings) : String :=
  "\n" ++ s.inlineRule.written "" ++ s.displayRule.written "" ++ s.hoverRule.written "" ++
    "@media (max-width: " ++ toString s.mobileBreakpoint.toNat ++ "px)" ++
    StyleRule.braced "" (s.narrowRule.written "    ") ++ s.debugRule.written ""

end Settings

/-- A block of style rules under an identifier. -/
structure Sheet where
  /-- The identifier of the style element. -/
  id : String
  /-- The rules. -/
  css : String
  deriving DecidableEq, Repr

/-- The style rules that settings ask for. -/
def Settings.sheet (s : Settings) : Sheet :=
  ⟨s.styleId, s.css⟩

/-- The block as a style element. -/
def Sheet.toHtml (sheet : Sheet) : String :=
  "<style id=\"" ++ sheet.id ++ "\">" ++ sheet.css ++ "</style>"

/-- What became of the style rules. -/
inductive StyleOutcome where
  /-- They were added. -/
  | inserted
  /-- An element with their identifier was there already. -/
  | alreadyPresent
  /-- The document refused them. -/
  | refused
  deriving DecidableEq, Repr

/-- The name of the outcome. -/
def StyleOutcome.name : StyleOutcome → String
  | inserted => "Inserted"
  | alreadyPresent => "AlreadyPresent"
  | refused => "Refused"

/-- Adds the block to a document unless an element carries its identifier. -/
def Sheet.ensure {σ ν : Type} (sheet : Sheet) (host : Host σ ν) (s : σ) : StyleOutcome × σ :=
  if host.hasStyle sheet.id s then (.alreadyPresent, s)
  else
    match host.insertStyle sheet.id sheet.css s with
    | (.ok _, s) =>
      (.inserted, host.log ⟨.debug, "inserted equation styles `" ++ sheet.id ++ "`"⟩ s)
    | (.error e, s) =>
      (.refused, host.log ⟨.warn, "could not insert equation styles: " ++ e.message⟩ s)

end MarkedMath
