import MarkedMath.Segment

/-!
# Census of markers

How many start tokens a text holds and how many of its markers are well formed, without changing it. The
numbers are words of 32 bits, which begin anew when they are full.
-/

namespace MarkedMath

/-- The inventory of one kind. -/
structure KindCensus where
  /-- Occurrences of the start token. -/
  startTokens : UInt32
  /-- Well-formed markers. -/
  wellFormed : UInt32
  deriving DecidableEq, Repr

/-- Start tokens that open no well-formed marker. None are left when there seem to be more markers than start
tokens. -/
def KindCensus.malformed (c : KindCensus) : UInt32 :=
  if c.wellFormed ≤ c.startTokens then c.startTokens - c.wellFormed else 0

theorem KindCensus.toNat_malformed (c : KindCensus) :
    c.malformed.toNat = c.startTokens.toNat - c.wellFormed.toNat := by
  rw [malformed]
  split
  · next hle => exact UInt32.toNat_sub_of_le _ _ hle
  · next hnot =>
    rw [UInt32.le_iff_toNat_le] at hnot
    exact (Nat.sub_eq_zero_of_le (Nat.le_of_not_le hnot)).symm

/-- The inventory of both kinds. -/
structure Census where
  /-- Inline markers. -/
  inline : KindCensus
  /-- Display markers. -/
  display : KindCensus
  deriving DecidableEq, Repr

/-- Start tokens of either kind that open no well-formed marker. -/
def Census.malformed (c : Census) : UInt32 :=
  c.inline.malformed + c.display.malformed

/-- Counts the start tokens and the well-formed markers of a text. -/
def Grammar.census (g : Grammar) (s : Text) : Census :=
  let counts := ((g.segment? {} s).map Prod.snd).getD {}
  let startTokens (kind : Kind) : UInt32 := (Text.occurrences (g.rule kind).start s).length.toUInt32
  ⟨⟨startTokens .inline, counts.inline.toUInt32⟩, ⟨startTokens .display, counts.display.toUInt32⟩⟩

end MarkedMath
