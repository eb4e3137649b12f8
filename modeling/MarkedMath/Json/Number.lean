import MarkedMath.Json.Value

/-!
# Numbers in JSON texts

A number is read in two steps. `Lexeme.read` takes the digits off the text, and `Lexeme.value` says
which number they stand for: as many digits as fit into 64 bits are kept, and a number with a point
or an exponent is those digits as a double, scaled by a power of ten.
-/

namespace MarkedMath.Json

/-- A number as it is written. -/
structure Lexeme where
  /-- Whether a minus sign stands in front. -/
  negative : Bool
  /-- The digits before the point. -/
  whole : List Nat
  /-- The digits behind the point, if there is one. -/
  fraction : Option (List Nat)
  /-- The sign and the digits of the exponent, if there is one. -/
  exponent : Option (Bool × List Nat)
  deriving DecidableEq, Repr

/-- The value of a decimal digit. -/
def digit? (c : Char) : Option Nat :=
  if c.isDigit then some (c.toNat - 48) else none

/-- The digits at the head of a text, and the rest. -/
def digits : Text → List Nat × Text
  | [] => ([], [])
  | c :: s =>
    match digit? c with
    | none => ([], c :: s)
    | some d =>
      let (ds, rest) := digits s
      (d :: ds, rest)

theorem length_digits_le (s : Text) : (digits s).2.length ≤ s.length := by
  induction s with
  | nil => simp [digits]
  | cons c s ih =>
    simp only [digits]
    split
    · simp
    · simpa using Nat.le_succ_of_le ih

/-- The fault of a number that lacks a digit at the head of a text: it may still be to come. -/
def lackingDigit : Text → Fault
  | [] => .unfinished
  | _ :: _ => .malformed

namespace Lexeme

/-- Reads the exponent of a number, if one follows. -/
def readExponent (number : Lexeme) (s : Text) : Except Fault (Lexeme × Text) :=
  match s with
  | [] => .ok (number, [])
  | e :: rest =>
    if e = 'e' ∨ e = 'E' then
      let (negative, rest) :=
        match rest with
        | '+' :: rest => (false, rest)
        | '-' :: rest => (true, rest)
        | rest => (false, rest)
      match digits rest with
      | ([], rest) => .error (lackingDigit rest)
      | (ds, rest) => .ok ({ number with exponent := some (negative, ds) }, rest)
    else .ok (number, s)

/-- Reads the digits behind the point, if one follows, and the exponent. -/
def readFraction (number : Lexeme) (s : Text) : Except Fault (Lexeme × Text) :=
  match s with
  | '.' :: rest =>
    match digits rest with
    | ([], rest) => .error (lackingDigit rest)
    | (ds, rest) => readExponent { number with fraction := some ds } rest
  | s => readExponent number s

/-- Reads a number from behind its sign. No digit may follow a leading zero. -/
def read (negative : Bool) (s : Text) : Except Fault (Lexeme × Text) :=
  match digits s with
  | ([], rest) => .error (lackingDigit rest)
  | (0 :: _ :: _, _) => .error .malformed
  | (ds, rest) => readFraction ⟨negative, ds, none, none⟩ rest

theorem length_readExponent_le {number m : Lexeme} {s rest : Text}
    (h : readExponent number s = .ok (m, rest)) : rest.length ≤ s.length := by
  unfold readExponent at h
  split at h
  · grind
  · next e t =>
    split at h
    · have bound : ∀ u : Text, u.length ≤ t.length →
          (digits u).2.length ≤ (e :: t).length := fun u hu => by
        have := length_digits_le u
        simp only [List.length_cons]
        omega
      have := bound t (Nat.le_refl _)
      grind
    · grind

theorem length_readFraction_le {number m : Lexeme} {s rest : Text}
    (h : readFraction number s = .ok (m, rest)) : rest.length ≤ s.length := by
  unfold readFraction at h
  split at h
  · next t =>
    have hd := length_digits_le t
    generalize digits t = pair at h hd
    obtain ⟨ds, r⟩ := pair
    cases ds with
    | nil => simp at h
    | cons d ds =>
      have := length_readExponent_le h
      simp only [List.length_cons] at hd ⊢
      omega
  · exact length_readExponent_le h

theorem length_read_lt {negative : Bool} {m : Lexeme} {s rest : Text}
    (h : read negative s = .ok (m, rest)) : rest.length < s.length := by
  unfold read at h
  have shorter : (digits s).1 ≠ [] → (digits s).2.length < s.length := by
    cases s with
    | nil => simp [digits]
    | cons c s =>
      have := length_digits_le s
      simp only [digits]
      split
      · simp
      · intro _
        simp only [List.length_cons]
        omega
  generalize digits s = pair at h shorter
  obtain ⟨ds, r⟩ := pair
  split at h
  · simp at h
  · simp at h
  · next ds rest hne _ heq =>
    have := length_readFraction_le h
    have := shorter (by grind)
    grind

/-! ## The value of a number -/

/-- The greatest number of 64 bits. -/
def maxSignificand : Nat := UInt64.size - 1

/-- Takes on digits as long as the number fits into 64 bits. Gives the number and the digits left
over. -/
def takeDigits (significand : Nat) : List Nat → Nat × List Nat
  | [] => (significand, [])
  | d :: ds =>
    let next := significand * 10 + d
    if maxSignificand < next then (significand, d :: ds) else takeDigits next ds

/-- A number of 64 bits as a double. -/
def toDouble (n : Nat) : Float :=
  n.toUInt64.toFloat

/-- The power of ten as a double. -/
def tenPow (n : Nat) : Float :=
  Float.ofScientific 1 false n

/-- Scales a double by a power of ten. A large negative power is taken in steps of `10 ^ 308`, at
most `steps` of them; `none` when the outcome is too large. -/
def scale (steps : Nat) (x : Float) (exponent : Int) : Option Float :=
  if exponent.natAbs ≤ 308 then
    if 0 ≤ exponent then
      let y := x * tenPow exponent.natAbs
      if y.isInf then none else some y
    else some (x / tenPow exponent.natAbs)
  else if x == 0.0 then some x
  else if 0 ≤ exponent then none
  else
    match steps with
    | 0 => some 0.0
    | steps + 1 => scale steps (x / tenPow 308) (exponent + 308)

/-- The greatest exponent that is looked at. -/
def maxExponent : Nat := UInt32.size / 2 - 1

/-- The double of a significand and a power of ten, with a sign. -/
def double (negative : Bool) (significand : Nat) (exponent : Int) : Except Fault Number :=
  match scale 4 (toDouble significand) exponent with
  | none => .error .malformed
  | some x => .ok (.real (if negative then -x else x))

/-- The number that is written, or a fault when it is too large for a double. -/
def value (l : Lexeme) : Except Fault Number :=
  let (significand, dropped) := takeDigits 0 l.whole
  match l.fraction, l.exponent, dropped with
  | none, none, [] =>
    if !l.negative then .ok (.integer significand)
    else if significand = 0 ∨ UInt64.size / 2 < significand then
      .ok (.real (-(toDouble significand)))
    else .ok (.integer (-(significand : Int)))
  | _, _, _ =>
    let fraction := l.fraction.getD []
    let (significand, left) := takeDigits significand fraction
    let point : Int := (dropped.length : Int) - ((fraction.length : Int) - left.length)
    match l.exponent with
    | none => double l.negative significand point
    | some (below, ds) =>
      let exponent := ds.foldl (fun n d => n * 10 + d) 0
      if maxExponent < exponent then
        if significand ≠ 0 ∧ !below then .error .malformed
        else .ok (.real (if l.negative then -0.0 else 0.0))
      else double l.negative significand (if below then point - exponent else point + exponent)

end Lexeme

end MarkedMath.Json
