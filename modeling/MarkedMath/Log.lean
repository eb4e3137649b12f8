import MarkedMath.Text

/-!
# Log records

What the library reports while it works, in the order in which it happens.
-/

namespace MarkedMath

/-- How grave a record is, the gravest first. -/
inductive Level where
  | error
  | warn
  | info
  | debug
  | trace
  deriving DecidableEq, Repr

/-- The name of the level. -/
def Level.name : Level → String
  | error => "error"
  | warn => "warn"
  | info => "info"
  | debug => "debug"
  | trace => "trace"

/-- The place of the level among all levels, from 1. -/
def Level.rank : Level → Nat
  | error => 1
  | warn => 2
  | info => 3
  | debug => 4
  | trace => 5

/-- All levels. -/
def Level.all : List Level :=
  [error, warn, info, debug, trace]

/-- The level down to which records are reported, given by name in any case; `off` is for none at all.
Other names say nothing. -/
def Level.threshold? (name : String) : Option (Option Level) :=
  let name := lowerName name
  if name = "off" then some none else (all.find? fun level => level.name = name).map some

/-- A message with its level. -/
structure Record where
  /-- How grave it is. -/
  level : Level
  /-- The message. -/
  text : String
  deriving DecidableEq, Repr

end MarkedMath
