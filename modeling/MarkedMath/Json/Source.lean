import MarkedMath.Decode
import MarkedMath.Json.Reader

/-!
# Records in JSON

Two sources for decoding: a text that is read from left to right, and a value that stands in a text
read before. They differ in the order in which members are met and in what is wrong with a list that
is too long.
-/

namespace MarkedMath.Json

/-- What a number is called in messages. -/
def Number.describe : Number → String
  | integer n => "integer `" ++ toString n ++ "`"
  | real x => "floating point `" ++ messageFormat.write x ++ "`"

namespace Value

/-- What is wrong with a value where something else is expected. A leaf is read before it is
refused, a container is not. -/
def refuse (expected : String) (v : Value) : DecodeError :=
  let wrong (found : String) : DecodeError := .mismatch (.wrongType found expected)
  match v with
  | null => wrong "null"
  | bool b => wrong ("boolean `" ++ (if b then "true" else "false") ++ "`")
  | number (.ok n) => wrong n.describe
  | number (.error f) => .fault f
  | string (.ok s) => wrong ("string " ++ String.ofList (Text.quoted s))
  | string (.error f) => .fault f
  | array _ _ => wrong "sequence"
  | object _ _ => wrong "map"
  | junk f => .fault f

/-- A text. -/
def text : Value → Decoded Text
  | string (.ok s) => .ok s
  | v => .error (v.refuse "a string")

/-- A truth value. -/
def truth : Value → Decoded Bool
  | bool b => .ok b
  | v => .error (v.refuse "a boolean")

/-- A natural number below `2 ^ 32`. -/
def word : Value → Decoded UInt32
  | number (.ok (.integer n)) =>
    if 0 ≤ n ∧ n < UInt32.size then .ok n.toNat.toUInt32
    else .error (.mismatch (.outOfRange n "u32"))
  | v => .error (v.refuse "u32")

/-- Whether the value is `null`. -/
def isNull : Value → Bool
  | null => true
  | _ => false

/-- A list. -/
def list : Value → Decoded (Listing Value)
  | array items cut => .ok ⟨items, cut.map .fault⟩
  | v => .error (v.refuse "a sequence")

/-- The content of a record. `order` puts its members into the order in which they are met, and
`surplus` says what is wrong with a list of too many values. -/
def record (order : List (Key × Value) → List (Key × Value)) (surplus : Nat → DecodeError)
    (name : String) (v : Value) : Decoded (Fields Value) :=
  match v with
  | object members cut =>
    .ok (.named ⟨(order members).map fun (key, v) => (key.mapError .fault, v), cut.map .fault⟩)
  | array items cut => .ok (.positional ⟨items, cut.map .fault⟩ (surplus items.length))
  | v => .error (v.refuse ("struct " ++ name))

end Value

/-- Puts a member among members that are ordered by key, in the place of one with the same key. -/
def insertMember (key : Text) (v : Value) : List (Text × Value) → List (Text × Value)
  | [] => [(key, v)]
  | (k, w) :: rest =>
    if key = k then (key, v) :: rest
    else if key < k then (key, v) :: (k, w) :: rest
    else (k, w) :: insertMember key v rest

/-- The members of an object ordered by key. Of members with the same key the last one counts. -/
def orderedMembers (members : List (Key × Value)) : List (Text × Value) :=
  members.foldl (fun ordered (key, v) =>
    match key with
    | .ok key => insertMember key v ordered
    | .error _ => ordered) []

/-- Records in a text that is read from left to right. -/
def textSource : Source Value where
  isNull := Value.isNull
  text := Value.text
  bool := Value.truth
  word := Value.word
  list := Value.list
  record name _ := Value.record id (fun _ => .fault .malformed) name

/-- Records in a value that was read before. -/
def valueSource : Source Value where
  isNull := Value.isNull
  text := Value.text
  bool := Value.truth
  word := Value.word
  list := Value.list
  record name _ :=
    Value.record (fun members => (orderedMembers members).map fun (key, v) => (.ok key, v))
      (fun length => .mismatch (.wrongLength length "fewer elements in array")) name

/-- Decodes a text: its value, then that nothing but blanks follows it. -/
def decode {α : Type} (value : Value → Decoded α) (s : Text) : Decoded α := do
  let document := read s
  let result ← value document.value
  match document.trailing with
  | some f => .error (.fault f)
  | none => .ok result

end MarkedMath.Json
