import MarkedMath.Json.Writer
import MarkedMath.Settings

/-!
# Encoding settings

Settings as JSON values, with every field under its own name. Decoding gives them back.
-/

namespace MarkedMath

/-- Tokens as a record. -/
def Tokens.encode (t : Tokens) : Json.Value :=
  .ofMembers (TokenField.all.map fun field => (field.key, .ofString (t.get field)))

/-- A pair of delimiters as a record. -/
def Delimiter.encode (d : Delimiter) : Json.Value :=
  .ofMembers [("left", .ofString d.left), ("right", .ofString d.right), ("display", .bool d.display)]

/-- Pairs of delimiters as a list. -/
def Delimiter.encodeList (ds : List Delimiter) : Json.Value :=
  .ofList (ds.map Delimiter.encode)

/-- Settings as a record. -/
def Settings.encode (s : Settings) : Json.Value :=
  .ofMembers <|
    [("markers", s.tokens.encode)] ++
    NameField.all.map (fun field => (field.key, .ofString (s.get field))) ++
    [("mobile_breakpoint_px", .ofNat s.mobileBreakpoint.toNat),
      ("delimiters", Delimiter.encodeList s.delimiters)]

/-- Settings as a JSON text. -/
def Settings.toJson (s : Settings) : Text :=
  s.encode.write

end MarkedMath
