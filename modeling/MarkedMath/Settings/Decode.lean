import MarkedMath.Json.Source
import MarkedMath.Settings

/-!
# Decoding settings

Settings are records in which every field has a default, so the empty record gives the settings of
an engine for which nothing was set. Most fields go by several names.
-/

namespace MarkedMath

variable {V : Type} (source : Source V)

/-- A field that holds a string and has a default. -/
def Field.string {R : Type} (name : String) (keys : List String) (put : String → R → R) :
    Field V R where
  name := name
  keys := keys
  required := false
  read v := (fun s => put (String.ofList s)) <$> source.text v

/-- The fields of the tokens. -/
def Tokens.fields : List (Field V Tokens) :=
  [ Field.string source "inline_start" ["inlineStart", "inline_prefix", "inline_start"]
      fun s t => { t with inlineStart := s },
    Field.string source "inline_end" ["inlineEnd", "inline_end", "inline_suffix"]
      fun s t => { t with inlineEnd := s },
    Field.string source "display_start" ["displayStart", "display_prefix", "display_start"]
      fun s t => { t with displayStart := s },
    Field.string source "display_end" ["displayEnd", "display_end", "display_suffix"]
      fun s t => { t with displayEnd := s } ]

/-- Decodes tokens. -/
def Tokens.decode (v : V) : Decoded Tokens :=
  source.recordOf "MarkerTokens" (Tokens.fields source) {} v

/-- The fields of a pair of delimiters. None has a default. -/
def Delimiter.fields : List (Field V Delimiter) :=
  [ { Field.string source "left" ["left"] fun s d => { d with left := s } with required := true },
    { Field.string source "right" ["right"] fun s d => { d with right := s } with required := true },
    { name := "display"
      keys := ["display"]
      required := true
      read := fun v => (fun b d => { d with display := b }) <$> source.bool v } ]

/-- Decodes a pair of delimiters. -/
def Delimiter.decode (v : V) : Decoded Delimiter :=
  source.recordOf "Delimiter" (Delimiter.fields source) ⟨"", "", false⟩ v

/-- Decodes a list of pairs of delimiters. -/
def Delimiter.decodeList (v : V) : Decoded (List Delimiter) := do
  Source.listOf (Delimiter.decode source) (← source.list v)

/-- The fields of settings. -/
def Settings.fields : List (Field V Settings) :=
  [ { name := "markers"
      keys := ["markers"]
      required := false
      read := fun v => (fun t s => { s with tokens := t }) <$> Tokens.decode source v },
    Field.string source "inline_class" ["inlineClass", "inline_class"]
      fun c s => { s with inlineClass := c },
    Field.string source "display_class" ["displayClass", "display_class"]
      fun c s => { s with displayClass := c },
    Field.string source "style_id" ["styleId", "style_id"]
      fun c s => { s with styleId := c },
    Field.string source "debug_class" ["debugClass", "debug_class"]
      fun c s => { s with debugClass := c },
    { name := "mobile_breakpoint_px"
      keys := ["mobileBreakpointPx", "mobile_breakpoint_px"]
      required := false
      read := fun v => (fun w s => { s with mobileBreakpoint := w }) <$> source.word v },
    { name := "delimiters"
      keys := ["delimiters"]
      required := false
      read := fun v => (fun d s => { s with delimiters := d }) <$> Delimiter.decodeList source v } ]

/-- Decodes settings. They are not checked. -/
def Settings.decode (v : V) : Decoded Settings :=
  source.recordOf "EngineConfig" (Settings.fields source) {} v

/-- Why no settings come out of a text. -/
inductive LoadError where
  /-- The text does not decode. -/
  | decode (e : DecodeError)
  /-- The settings have a fault. -/
  | fault (f : SettingsFault)
  deriving DecidableEq, Repr

/-- Decodes and checks the settings in a JSON text. -/
def Settings.ofJson (s : Text) : Except LoadError CheckedSettings :=
  match Json.decode (Settings.decode Json.textSource) s with
  | .error e => .error (.decode e)
  | .ok settings => settings.check.mapError .fault

end MarkedMath
