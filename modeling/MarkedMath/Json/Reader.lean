import MarkedMath.Json.Token

/-!
# Reading JSON texts

The tokens are put together to one value. The containers that are open are kept in a stack; where
the text breaks off or goes wrong they are all cut with the same fault.
-/

namespace MarkedMath.Json

/-- A key, or why its characters give no text. -/
abbrev Key := Except Fault Text

/-- A container that is still open, with its content read so far, the last part first. -/
inductive Frame where
  /-- An array. -/
  | array (before : List Value)
  /-- An object between two members. -/
  | object (before : List (Key × Value))
  /-- An object within a member. -/
  | member (before : List (Key × Value)) (key : Key)

/-- What may come next. -/
inductive Expected where
  /-- A value. -/
  | value
  /-- The first item of an array, or its end. -/
  | item
  /-- The first key of an object, or its end. -/
  | firstKey
  /-- A key. -/
  | key
  /-- The colon behind a key. -/
  | colon
  /-- A comma, or the end of the container. -/
  | separator
  deriving DecidableEq

/-- A text that was read. -/
structure Document where
  /-- Its value, as far as it was read. -/
  value : Value
  /-- The fault behind the value, if more than blanks follows it. -/
  trailing : Option Fault

/-- Cuts all open containers. `inner` is what was read in the innermost one last. -/
def abandon (fault : Fault) (inner : Option Value) : List Frame → Value
  | [] => inner.getD (.junk fault)
  | .array before :: stack =>
    abandon fault (some (.array (inner.toList ++ before).reverse (some fault))) stack
  | .object before :: stack => abandon fault (some (.object before.reverse (some fault))) stack
  | .member before key :: stack =>
    let value := inner.getD (.junk fault)
    abandon fault (some (.object ((key, value) :: before).reverse (some fault))) stack

/-- Gives a value to the container that it stands in, or to the document. -/
def deliver (v : Value) : List Frame → Value ⊕ List Frame
  | [] => .inl v
  | .array before :: stack => .inr (.array (v :: before) :: stack)
  | .object before :: stack => .inr (.object before :: stack)
  | .member before key :: stack => .inr (.object ((key, v) :: before) :: stack)

/-- Puts tokens together. -/
def build (expected : Expected) (stack : List Frame) : List Token → Document
  | [] =>
    let inner : Option Value :=
      match expected with
      | .value | .colon => some (.junk .unfinished)
      | _ => none
    ⟨abandon .unfinished inner stack, none⟩
  | token :: rest =>
    let goOn (v : Value) (stack : List Frame) : Document :=
      match deliver v stack with
      | .inl v => ⟨v, if rest.isEmpty then none else some .malformed⟩
      | .inr stack => build .separator stack rest
    let stop (inner : Option Value) : Document := ⟨abandon .malformed inner stack, none⟩
    match expected with
    | .value | .item =>
      match token, stack with
      | .leaf v none, _ => goOn v stack
      | .leaf v (some cut), _ => ⟨abandon cut (some v) stack, none⟩
      | .string content none, _ => goOn (.string content) stack
      | .string content (some cut), _ => ⟨abandon cut (some (.string content)) stack, none⟩
      | .arrayOpen, _ => build .item (.array [] :: stack) rest
      | .objectOpen, _ => build .firstKey (.object [] :: stack) rest
      | .arrayClose, .array before :: outer =>
        if expected = .item then goOn (.array before.reverse none) outer
        else stop (some (.junk .malformed))
      | _, _ => stop (some (.junk .malformed))
    | .firstKey | .key =>
      match token, stack with
      | .string key cut, .object before :: outer =>
        match cut with
        | none => build .colon (.member before key :: outer) rest
        | some cut => ⟨abandon cut none (.member before key :: outer), none⟩
      | .objectClose, .object before :: outer =>
        if expected = .firstKey then goOn (.object before.reverse none) outer else stop none
      | _, _ => stop none
    | .colon =>
      match token with
      | .colon => build .value stack rest
      | _ => stop none
    | .separator =>
      match token, stack with
      | .comma, .array _ :: _ => build .value stack rest
      | .comma, .object _ :: _ => build .key stack rest
      | .arrayClose, .array before :: outer => goOn (.array before.reverse none) outer
      | .objectClose, .object before :: outer => goOn (.object before.reverse none) outer
      | _, _ => stop none

/-- Reads a text. -/
def read (s : Text) : Document :=
  build .value [] (tokens s)

end MarkedMath.Json
