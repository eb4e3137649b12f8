import MarkedMath.Decode
import MarkedMath.Json.Writer
import MarkedMath.Tree.Forest

/-!
# Values of a page

The scripts of a page hand over values, and throw them. This module says how a value is written in
messages, in the way of a debugger or as JSON, and how records are read from values.
-/

namespace MarkedMath

/-- A value. -/
inductive Value where
  | undefined
  | null
  | bool (b : Bool)
  | number (x : Float)
  | string (s : Text)
  | array (items : List Value)
  /-- An object with its members in ascending order of their names. -/
  | object (members : List (Text × Value))
  /-- A function that returns or throws a fixed value. -/
  | function (name : Text) (throws : Bool) (result : Value)
  /-- A promise, by its number. -/
  | promise (index : Nat)
  /-- A handle to an engine. -/
  | processor (engine : Nat)
  /-- A node of the document. -/
  | node (id : NodeId)

namespace Value

instance : Inhabited Value := ⟨undefined⟩

/-! ## JSON -/

mutual

/-- The value as JSON. What JSON cannot say is left out of objects, and `null` in arrays. -/
def json? : Value → Option Text
  | undefined | function _ _ _ => none
  | null => some "null".toList
  | bool b => some (Json.writeBool b)
  | number x => some (Json.writeDouble x)
  | string s => some (Json.writeString s)
  | array items => some (Json.writeItems (jsonItems items))
  | object members => some (Json.writeMembers (jsonMembers members))
  | promise _ | processor _ | node _ => some (Json.writeMembers [])

/-- The items of an array as JSON. -/
def jsonItems : List Value → List Text
  | [] => []
  | v :: rest => v.json?.getD "null".toList :: jsonItems rest

/-- The members of an object as JSON. -/
def jsonMembers : List (Text × Value) → List (Text × Text)
  | [] => []
  | (name, v) :: rest =>
    match v.json? with
    | some text => (name, text) :: jsonMembers rest
    | none => jsonMembers rest

end

/-! ## Messages -/

mutual

/-- The value as a debugger shows it. -/
def debug : Value → Text
  | undefined => "undefined".toList
  | null => "null".toList
  | bool b => Json.writeBool b
  | number x => Json.writeDouble x
  | string s => ['\x22'] ++ s ++ ['\x22']
  | array items => ['['] ++ ", ".toList.intercalate (debugItems items) ++ [']']
  | object members => "Object(".toList ++ (json? (object members)).getD [] ++ [')']
  | function name _ _ =>
    if name.isEmpty then "Function".toList else "Function(".toList ++ name ++ [')']
  | promise _ => "Promise".toList
  | processor _ | node _ => "Object".toList

/-- The items of an array as a debugger shows them. -/
def debugItems : List Value → List Text
  | [] => []
  | v :: rest => v.debug :: debugItems rest

end

/-- The value between the marks that tell it from a text. -/
def shown (v : Value) : Text :=
  "JsValue(".toList ++ v.debug ++ [')']

/-- A thrown value in a message: a string stands for itself. -/
def describe (v : Value) : String :=
  match v with
  | string s => String.ofList s
  | v => String.ofList v.shown

/-! ## Reading records -/

/-- Whether the value stands for the absence of a value. -/
def isNull : Value → Bool
  | undefined | null => true
  | _ => false

/-- A property of a value. A value without properties has none, and neither has an object without a
member of that name. -/
def property? (v : Value) (name : String) : Option Value :=
  match v with
  | object members => members.lookup name.toList
  | _ => none

/-- The value as a function: its name, whether it throws and the value that it returns or throws. -/
def function? : Value → Option (Text × Bool × Value)
  | function name throws result => some (name, throws, result)
  | _ => none

/-- Numbers of pages in messages: with a point and never with an exponent. -/
def messageFormat : FloatFormat where
  widest := 400
  deepest := 400
  pointZero := true
  plus := ""
  negativeZero := "-0.0"

/-- What is wrong with a value where something else is expected. -/
def refuse {α : Type} (expected : String) (v : Value) : Decoded α :=
  let found : String :=
    match v with
    | undefined | null => "unit value"
    | bool b => "boolean `" ++ (if b then "true" else "false") ++ "`"
    | number x => "floating point `" ++ messageFormat.write x ++ "`"
    | string s => "string " ++ String.ofList (Text.quoted s)
    | v => String.ofList v.shown
  .error (.mismatch (.wrongType found expected))

/-- A natural number that doubles of its size can tell from its neighbours. -/
def natural? (x : Float) : Option Nat :=
  if 0.0 ≤ x && x ≤ 9007199254740991.0 && x.floor == x then some x.toUInt64.toNat else none

/-- Records in values of a page. Only the members with known names are looked at, in the order of these
names; members of other values than objects have no names. -/
def source : Source Value where
  isNull := isNull
  text v := match v with
    | string s => .ok s
    | v => v.refuse "a string"
  bool v := match v with
    | bool b => .ok b
    | v => v.refuse "a boolean"
  word v :=
    match v with
    | number x =>
      match natural? x with
      | some n =>
        if n < UInt32.size then .ok n.toUInt32 else .error (.mismatch (.outOfRange n "u32"))
      | none => v.refuse "u32"
    | v => v.refuse "u32"
  list v := match v with
    | array items => .ok ⟨items, none⟩
    | v => v.refuse "a sequence"
  record name keys v :=
    match v with
    | object _ | array _ | promise _ | processor _ | node _ =>
      .ok (.named ⟨keys.filterMap fun key => (v.property? key).map fun w => (.ok key.toList, w), none⟩)
    | v => v.refuse ("struct " ++ name)

end Value

end MarkedMath
