import MarkedMath.Marker

/-!
# The grammar of a document

Checked tokens give one rule for each kind of marker, and the patterns whose presence in new content
is a reason to look for markers again.
-/

namespace MarkedMath

/-- The markers of a document: tokens without a fault. -/
structure Grammar where
  /-- The tokens around payloads. -/
  tokens : Tokens
  /-- No fault is found in the tokens. -/
  valid : tokens.fault? = none

namespace Grammar

/-- Checks tokens. -/
def ofTokens (tokens : Tokens) : Except SettingsFault Grammar :=
  match h : tokens.fault? with
  | some fault => .error fault
  | none => .ok ⟨tokens, h⟩

/-- The grammar of the tokens that are set when nothing else is. -/
def standard : Grammar :=
  ⟨{}, by decide⟩

/-- The rule of one kind of marker. -/
def rule (g : Grammar) (kind : Kind) : Rule :=
  ⟨kind, (g.tokens.start kind).toList, (g.tokens.stop kind).toList⟩

/-- A shared start of two tokens that is shorter than this occurs in too much ordinary markup to be
a pattern of its own. -/
def minSharedStart : Nat := 4

/-- The patterns for a pair of tokens: what they both start with, or the two tokens when that is too
short. -/
def pairPatterns (a b : Text) : List Text :=
  let shared := Text.commonStart a b
  if shared.length < minSharedStart then [a, b] else [shared]

/-- The list with each run of equal neighbours reduced to one. -/
def collapse : List Text → List Text
  | a :: b :: rest => if a = b then collapse (b :: rest) else a :: collapse (b :: rest)
  | rest => rest

/-- The patterns whose presence in new content is a reason to look for markers again: those of the
two start tokens, then those of the two end tokens. -/
def watchPatterns (g : Grammar) : List Text :=
  collapse
    (pairPatterns (g.rule .inline).start (g.rule .display).start ++
      pairPatterns (g.rule .inline).stop (g.rule .display).stop)

end Grammar

/-- The grammar of checked settings. -/
def CheckedSettings.grammar (s : CheckedSettings) : Grammar :=
  ⟨s.tokens, s.tokens_valid⟩

end MarkedMath
