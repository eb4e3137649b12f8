import MarkedMath.Json.Value
import MarkedMath.Text.Quoted

/-!
# Decoding records

Settings come from JSON texts, from JSON values inside other texts and from values of a script. All
three are decoded in the same way, in terms of the questions that a `Source` answers about a value.
A record is decoded from its members, in any order and under any name of a field, or from a list of
its fields. What a source does not mention keeps the value that it has by default.
-/

namespace MarkedMath

/-- Why a value is not what is expected. -/
inductive Mismatch where
  /-- It is something else. -/
  | wrongType (found expected : String)
  /-- It is a whole number out of range. -/
  | outOfRange (n : Int) (expected : String)
  /-- A field is given twice, by the same name or by two names. -/
  | duplicateField (name : String)
  /-- A field without a default is not given. -/
  | missingField (name : String)
  /-- A list has too few or too many items. -/
  | wrongLength (length : Nat) (expected : String)
  deriving DecidableEq, Repr

/-- The mismatch in words. -/
def Mismatch.message : Mismatch → String
  | wrongType found expected => "invalid type: " ++ found ++ ", expected " ++ expected
  | outOfRange n expected =>
    "invalid value: integer `" ++ toString n ++ "`, expected " ++ expected
  | duplicateField name => "duplicate field `" ++ name ++ "`"
  | missingField name => "missing field `" ++ name ++ "`"
  | wrongLength length expected =>
    "invalid length " ++ toString length ++ ", expected " ++ expected

/-- Why decoding ends without a result. -/
inductive DecodeError where
  /-- The text is no JSON. -/
  | fault (f : Json.Fault)
  /-- A value is not what is expected. -/
  | mismatch (m : Mismatch)
  deriving DecidableEq, Repr

/-- The error in words. -/
def DecodeError.message : DecodeError → String
  | fault .malformed => "malformed text"
  | fault .unfinished => "unfinished text"
  | mismatch m => m.message

/-- The outcome of decoding. -/
abbrev Decoded (α : Type) := Except DecodeError α

/-- A list of values of which the first fault, if any, comes behind the last one. -/
structure Listing (V : Type) where
  /-- The values. -/
  items : List V
  /-- What ends the list where it should have been closed. -/
  cut : Option DecodeError

/-- The content of a record. -/
inductive Fields (V : Type) where
  /-- Members with their names. -/
  | named (members : Listing (Decoded Text × V))
  /-- A value for each field, in the order of the fields, and what is wrong when that are more than
  there are fields. -/
  | positional (items : Listing V) (surplus : DecodeError)

/-- What decoding asks of a value. -/
structure Source (V : Type) where
  /-- Whether it stands for the absence of a value. -/
  isNull : V → Bool
  /-- A text. -/
  text : V → Decoded Text
  /-- A truth value. -/
  bool : V → Decoded Bool
  /-- A natural number below `2 ^ 32`. -/
  word : V → Decoded UInt32
  /-- A list. -/
  list : V → Decoded (Listing V)
  /-- A record. Gets the name of the record and all names of its fields. -/
  record : (name : String) → (keys : List String) → V → Decoded (Fields V)

/-- A field of a record `R`, decoded from values `V`. -/
structure Field (V R : Type) where
  /-- Its name. -/
  name : String
  /-- All names that it goes by, in ascending order. -/
  keys : List String
  /-- Whether it has to be given. -/
  required : Bool
  /-- Decodes the field and puts it into the record. -/
  read : V → Decoded (R → R)

namespace Source

variable {V R : Type}

/-- Decodes the values of a list, then looks at how the list ends. -/
def listOf {α : Type} (decode : V → Decoded α) (l : Listing V) : Decoded (List α) := do
  let values ← l.items.mapM decode
  match l.cut with
  | some e => .error e
  | none => .ok values

/-- Decodes an optional value. -/
def optional {α : Type} (source : Source V) (decode : V → Decoded α) (v : V) : Decoded (Option α) :=
  if source.isNull v then .ok none else some <$> decode v

/-- Decodes the members of a record one by one. `seen` holds the names of the fields given before.
Members with unknown names are passed over. -/
def readMembers (fields : List (Field V R)) (cut : Option DecodeError) :
    (seen : List String) → (r : R) → List (Decoded Text × V) → Decoded (List String × R)
  | seen, r, [] =>
    match cut with
    | some e => .error e
    | none => .ok (seen, r)
  | seen, r, (key, v) :: rest =>
    match key with
    | .error e => .error e
    | .ok key =>
      match fields.find? fun f => f.keys.contains (String.ofList key) with
      | none => readMembers fields cut seen r rest
      | some field =>
        if seen.contains field.name then .error (.mismatch (.duplicateField field.name))
        else
          match field.read v with
          | .error e => .error e
          | .ok set => readMembers fields cut (field.name :: seen) (set r) rest

/-- Decodes the fields of a record in their order. `index` fields came before, of `arity` in all. -/
def readItems (name : String) (arity : Nat) (cut : Option DecodeError) :
    (index : Nat) → (r : R) → List (Field V R) → List V → Decoded (R × List V)
  | _, r, [], rest => .ok (r, rest)
  | index, r, field :: fields, v :: rest =>
    match field.read v with
    | .error e => .error e
    | .ok set => readItems name arity cut (index + 1) (set r) fields rest
  | index, r, field :: fields, [] =>
    match cut with
    | some e => .error e
    | none =>
      if field.required then
        .error (.mismatch
          (.wrongLength index ("struct " ++ name ++ " with " ++ toString arity ++ " elements")))
      else readItems name arity cut (index + 1) r fields []

/-- Decodes a record. `default` holds the fields that are not given. -/
def recordOf (source : Source V) (name : String) (fields : List (Field V R)) (default : R) (v : V) :
    Decoded R := do
  match ← source.record name (fields.flatMap Field.keys) v with
  | .named members =>
    let (seen, r) ← readMembers fields members.cut [] default members.items
    match fields.find? fun f => f.required && !seen.contains f.name with
    | some f => .error (.mismatch (.missingField f.name))
    | none => .ok r
  | .positional list surplus =>
    let (r, rest) ← readItems name fields.length list.cut 0 default fields list.items
    match rest, list.cut with
    | _ :: _, _ => .error surplus
    | [], some e => .error e
    | [], none => .ok r

end Source

end MarkedMath
