import MarkedMath.Settings.Decode

/-!
# Settings by exception

A caller that is content with most settings names only those that it wants to be different.
-/

namespace MarkedMath

/-- The settings that a caller wants to be different from the standard ones. -/
structure Overrides where
  inlineStart : Option Text := none
  inlineEnd : Option Text := none
  displayStart : Option Text := none
  displayEnd : Option Text := none
  inlineClass : Option Text := none
  displayClass : Option Text := none
  styleId : Option Text := none
  debugClass : Option Text := none
  mobileBreakpoint : Option UInt32 := none
  deriving DecidableEq, Repr

namespace Overrides

/-- The settings that come out. -/
def settings (o : Overrides) : Settings :=
  let s : Settings := {}
  let text (o : Option Text) (standard : String) : String := (o.map String.ofList).getD standard
  { s with
    tokens := {
      inlineStart := text o.inlineStart s.tokens.inlineStart
      inlineEnd := text o.inlineEnd s.tokens.inlineEnd
      displayStart := text o.displayStart s.tokens.displayStart
      displayEnd := text o.displayEnd s.tokens.displayEnd }
    inlineClass := text o.inlineClass s.inlineClass
    displayClass := text o.displayClass s.displayClass
    styleId := text o.styleId s.styleId
    debugClass := text o.debugClass s.debugClass
    mobileBreakpoint := o.mobileBreakpoint.getD s.mobileBreakpoint }

variable {V : Type} (source : Source V)

/-- A field that may be given. -/
def field {α : Type} (decode : V → Decoded α) (name : String)
    (put : Option α → Overrides → Overrides) : Field V Overrides where
  name := name
  keys := [name]
  required := false
  read v := put <$> source.optional decode v

/-- The fields. -/
def fields : List (Field V Overrides) :=
  [ field source source.text "inlineStart" fun s o => { o with inlineStart := s },
    field source source.text "inlineEnd" fun s o => { o with inlineEnd := s },
    field source source.text "displayStart" fun s o => { o with displayStart := s },
    field source source.text "displayEnd" fun s o => { o with displayEnd := s },
    field source source.text "inlineClass" fun s o => { o with inlineClass := s },
    field source source.text "displayClass" fun s o => { o with displayClass := s },
    field source source.text "styleId" fun s o => { o with styleId := s },
    field source source.text "debugClass" fun s o => { o with debugClass := s },
    field source source.word "mobileBreakpointPx" fun w o => { o with mobileBreakpoint := w } ]

/-- Decodes overrides, of which there need be none. -/
def decode (v : V) : Decoded Overrides :=
  if source.isNull v then .ok {} else source.recordOf "EquationConfig" (fields source) {} v

end Overrides

end MarkedMath
