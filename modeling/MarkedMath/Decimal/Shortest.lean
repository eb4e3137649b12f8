/-!
# Shortest decimals

The fewest decimal digits that read back as a given double. The double is taken apart into an
integer times a power of two; the reals that round to it form an interval around it, and the first
decimal grid with a point in that interval gives the digits.
-/

namespace MarkedMath

/-- A positive decimal number: the integer `digits` with the point `scale` places from its end, that
is `digits * 10 ^ scale`. -/
structure Decimal where
  /-- The digits as a number. -/
  digits : Nat
  /-- The power of ten. -/
  scale : Int
  deriving DecidableEq, Repr

namespace Decimal

/-- The bit that every mantissa has except those of the smallest doubles, and that is not stored. -/
def hiddenBit : Nat := 0x10000000000000

/-- A positive double as `mantissa * 2 ^ exponent`. -/
def parts (bits : UInt64) : Nat × Int :=
  let exponent := ((bits >>> 52) &&& 0x7FF).toNat
  let fraction := (bits &&& 0xFFFFFFFFFFFFF).toNat
  if exponent = 0 then (fraction, -1074)
  else (fraction + hiddenBit, (exponent : Int) - 1075)

/-- The quotient `mantissa * 2 ^ exponent / 10 ^ scale` as a fraction of two naturals. -/
def ratio (mantissa : Nat) (exponent scale : Int) : Nat × Nat :=
  (mantissa * Nat.pow 2 exponent.toNat * Nat.pow 10 (-scale).toNat,
    Nat.pow 2 (-exponent).toNat * Nat.pow 10 scale.toNat)

/-- Whether `digits * 10 ^ scale` rounds to the double `mantissa * 2 ^ exponent`. The interval of
such reals ends half a unit above and below, or a quarter below a power of two; its ends belong to it
when the mantissa is even. -/
def readsBack (mantissa : Nat) (exponent scale : Int) (digits : Nat) : Bool :=
  let (num, den) := ratio (4 * mantissa) exponent scale
  let unit := (ratio 1 exponent scale).1
  let value := 4 * digits * den
  let below := if mantissa = hiddenBit then unit else 2 * unit
  if mantissa % 2 = 0 then num - below ≤ value && value ≤ num + 2 * unit
  else num - below < value && value < num + 2 * unit

/-- The point of a decimal grid that reads back and is nearest to the double, if there is one. -/
def onGrid? (mantissa : Nat) (exponent scale : Int) : Option Nat :=
  let (num, den) := ratio mantissa exponent scale
  let low := num / den
  let high := low + 1
  let hit := readsBack mantissa exponent scale
  match hit low && 0 < low, hit high with
  | true, true => if 2 * num ≤ (low + high) * den then some low else some high
  | true, false => some low
  | false, true => some high
  | false, false => none

/-- The digits from the coarsest of `n + 1` grids on which some point reads back; the grids end at
`10 ^ finest`. -/
def search (mantissa : Nat) (exponent finest : Int) : Nat → Decimal
  | 0 => ⟨(onGrid? mantissa exponent finest).getD 0, finest⟩
  | n + 1 =>
    match onGrid? mantissa exponent (finest + (n + 1 : Nat)) with
    | some digits => ⟨digits, finest + (n + 1 : Nat)⟩
    | none => search mantissa exponent finest n

/-- The number without zeros at the end of its digits. -/
def strip : Nat → Decimal → Decimal
  | 0, d => d
  | fuel + 1, d =>
    if d.digits ≠ 0 ∧ d.digits % 10 = 0 then strip fuel ⟨d.digits / 10, d.scale + 1⟩ else d

/-- The shortest decimal that reads back as a positive finite double. Seventeen digits always
suffice, so the grids from `10 ^ (magnitude - 17)` to `10 ^ (magnitude + 1)` are searched. -/
def shortest (x : Float) : Decimal :=
  let (mantissa, exponent) := parts x.toBits
  let magnitude : Int := ((Nat.log2 mantissa : Int) + exponent) * 30103 / 100000
  strip 400 (search mantissa exponent (magnitude - 17) 19)

end Decimal

/-! ## Writing doubles -/

/-- Where a double is written without an exponent, and how its exponent is written. -/
structure FloatFormat where
  /-- The greatest number of digits before the point without an exponent. -/
  widest : Nat
  /-- The greatest number of zeros between the point and the first digit without an exponent. -/
  deepest : Nat
  /-- Whether a whole number ends in `.0`. -/
  pointZero : Bool
  /-- The sign before a positive exponent. -/
  plus : String
  /-- The text of zero with a sign. -/
  negativeZero : String

namespace FloatFormat

/-- Zeros, one for each count. -/
def zeros (n : Nat) : String :=
  String.ofList (List.replicate n '0')

/-- A positive decimal number. Its first digit stands for `10 ^ (point - 1)`. -/
def decimal (f : FloatFormat) (d : Decimal) : String :=
  let digits := Nat.toDigits 10 d.digits
  let point : Int := digits.length + d.scale
  if 0 < point ∧ point ≤ f.widest then
    let point := point.toNat
    let whole := String.ofList (digits.take point) ++ zeros (point - digits.length)
    let fraction := String.ofList (digits.drop point)
    if fraction.isEmpty then whole ++ (if f.pointZero then ".0" else "")
    else whole ++ "." ++ fraction
  else if point ≤ 0 ∧ -point ≤ f.deepest then
    "0." ++ zeros (-point).toNat ++ String.ofList digits
  else
    let head := String.ofList (digits.take 1)
    let tail := String.ofList (digits.drop 1)
    let exponent := point - 1
    let sign := if exponent < 0 then "-" else f.plus
    head ++ (if tail.isEmpty then "" else "." ++ tail) ++ "e" ++ sign ++ toString exponent.natAbs

/-- A finite double. -/
def write (f : FloatFormat) (x : Float) : String :=
  if x == 0.0 then
    if x.toBits == 0 then (if f.pointZero then "0.0" else "0") else f.negativeZero
  else if x < 0.0 then "-" ++ f.decimal (Decimal.shortest (-x))
  else f.decimal (Decimal.shortest x)

end FloatFormat

end MarkedMath
