import MarkedMath.Settings.Decode

/-!
# Options of a page

A page that starts an engine may set everything about it in one record.
-/

namespace MarkedMath

/-- What a page asks for. -/
structure Options where
  /-- The settings of the engine. -/
  settings : Settings := {}
  /-- The least grave level that is reported, by name. -/
  logLevel : Option Text := none
  /-- Whether the engine watches for new content. -/
  watch : Option Bool := none
  deriving DecidableEq, Repr

variable {V : Type} (source : Source V)

/-- The fields of options. -/
def Options.fields : List (Field V Options) :=
  [ { name := "config"
      keys := ["config"]
      required := false
      read := fun v => (fun s o => { o with settings := s }) <$> Settings.decode source v },
    { name := "log_level"
      keys := ["logLevel", "log_level"]
      required := false
      read := fun v => (fun l o => { o with logLevel := l }) <$> source.optional source.text v },
    { name := "watch_for_changes"
      keys := ["watchForChanges", "watch_for_changes"]
      required := false
      read := fun v => (fun w o => { o with watch := w }) <$> source.optional source.bool v } ]

/-- Decodes options. The settings in them are not checked. -/
def Options.decode (v : V) : Decoded Options :=
  source.recordOf "WasmOptions" (Options.fields source) {} v

/-- Decodes the options in a JSON text. -/
def Options.ofJson (s : Text) : Decoded Options :=
  Json.decode (Options.decode Json.textSource) s

end MarkedMath
