import MarkedMath.Json.Token
import MarkedMath.Proofs.Json.Texts

/-!
# Reading numbers

A number ends where the text behind it begins, so what follows it matters (`Stops`). Every number of the grammar is
one token (`exists_tokens_isNumber`), and a natural number in plain digits is read as itself as long as it fits into
64 bits (`tokens_toString`).
-/

namespace MarkedMath.Json

/-- What may stand behind a value: nothing, a blank, a comma, a colon or a closing bracket. -/
def Stops (rest : Text) : Prop :=
  ∀ c ∈ rest.head?, c ∈ [' ', '\n', '\t', '\r', ',', ':', ']', '\x7d']

/-- A text that does not begin with a digit. -/
def NoDigit (rest : Text) : Prop :=
  ∀ c ∈ rest.head?, c.isDigit = false

lemma Stops.noDigit {rest : Text} (h : Stops rest) : NoDigit rest := by
  intro c hc
  have hall : ∀ d ∈ [' ', '\n', '\t', '\r', ',', ':', ']', '\x7d'], d.isDigit = false := by simp
  exact hall c (h c hc)

lemma noDigit_cons {c : Char} (h : c.isDigit = false) (rest : Text) : NoDigit (c :: rest) := by
  rintro d ⟨⟩
  exact h

lemma eq_zero_of_isDigit {c : Char} (h : c.isDigit = true) (hzero : c.toNat - 48 = 0) : c = '0' := by
  have hnat : 48 ≤ c.toNat ∧ c.toNat ≤ 57 := Char.isDigit_iff_toNat.1 h
  have hval : c.toNat = '0'.toNat := by
    have hcode : '0'.toNat = 48 := rfl
    omega
  exact Char.toNat_inj.1 hval

/-- The values of decimal digits. -/
def digitValues (t : Text) : List Nat :=
  t.map fun c => c.toNat - 48

lemma digits_append {t rest : Text} (ht : ∀ c ∈ t, c.isDigit = true) (hrest : NoDigit rest) :
    digits (t ++ rest) = (digitValues t, rest) := by
  induction t with
  | nil =>
    cases rest with
    | nil => rfl
    | cons c rest => simp [digits, digit?, hrest c rfl, digitValues]
  | cons c t ih =>
    have hc := ht c (List.mem_cons_self ..)
    simp [digits, digit?, hc, ih fun d hd => ht d (List.mem_cons_of_mem c hd), digitValues]

lemma IsDigits.exists_values {t : Text} (h : IsDigits t) : ∃ d ds, digitValues t = d :: ds := by
  obtain ⟨c, s, rfl⟩ := List.exists_cons_of_ne_nil h.1
  exact ⟨_, _, rfl⟩

namespace Lexeme

variable {whole fraction exponent : Text} (number : Lexeme)

/-! ## The parts of a number -/

lemma readExponent_stops {rest : Text} (h : Stops rest) : readExponent number rest = .ok (number, rest) := by
  cases rest with
  | nil => rfl
  | cons c rest =>
    have hall : ∀ d ∈ [' ', '\n', '\t', '\r', ',', ':', ']', '\x7d'], ¬ (d = 'e' ∨ d = 'E') := by simp
    simp only [readExponent, if_neg (hall c (h c rfl))]

lemma readFraction_stops {rest : Text} (h : Stops rest) : readFraction number rest = .ok (number, rest) := by
  have hne : ∀ s, rest ≠ '.' :: s := by
    rintro s rfl
    exact absurd (h '.' rfl) (by decide)
  rw [readFraction.eq_def]
  split
  · next s => exact absurd rfl (hne s)
  · exact readExponent_stops number h

lemma exists_readExponent (h : IsExponent exponent) :
    ∃ m, ∀ rest, Stops rest → readExponent number (exponent ++ rest) = .ok (m, rest) := by
  cases h with
  | absent => exact ⟨number, fun rest hrest => readExponent_stops number hrest⟩
  | @power e sign ds he hsign h =>
    obtain ⟨c, s, rfl⟩ := List.exists_cons_of_ne_nil h.1
    have hc : c.isDigit = true := h.2 c (List.mem_cons_self ..)
    have hplus : c ≠ '+' := by rintro rfl; exact absurd hc (by decide)
    have hminus : c ≠ '-' := by rintro rfl; exact absurd hc (by decide)
    have hdigits : ∀ rest, Stops rest →
        digits (c :: (s ++ rest)) = ((c.toNat - 48) :: digitValues s, rest) := fun rest hrest =>
      digits_append h.2 hrest.noDigit
    simp only [List.mem_cons, List.not_mem_nil, or_false] at hsign
    let m (negative : Bool) : Lexeme :=
      { number with exponent := some (negative, (c.toNat - 48) :: digitValues s) }
    rcases hsign with rfl | rfl | rfl
    · exact ⟨m false, fun rest hrest => by simp [readExponent, he, hplus, hminus, hdigits rest hrest, m]⟩
    · exact ⟨m false, fun rest hrest => by simp [readExponent, he, hdigits rest hrest, m]⟩
    · exact ⟨m true, fun rest hrest => by simp [readExponent, he, hdigits rest hrest, m]⟩

lemma noDigit_exponent (h : IsExponent exponent) {rest : Text} (hrest : Stops rest) : NoDigit (exponent ++ rest) := by
  cases h with
  | absent => exact hrest.noDigit
  | power he => rcases he with rfl | rfl <;> exact noDigit_cons (by decide) _

lemma exists_readFraction (hfraction : IsFraction fraction) (hexponent : IsExponent exponent) :
    ∃ m, ∀ rest, Stops rest → readFraction number (fraction ++ (exponent ++ rest)) = .ok (m, rest) := by
  cases hfraction with
  | absent =>
    obtain ⟨m, hm⟩ := exists_readExponent number hexponent
    refine ⟨m, fun rest hrest => ?_⟩
    have hne : ∀ s, exponent ++ rest ≠ '.' :: s := by
      cases hexponent with
      | absent =>
        rintro s rfl
        exact absurd (hrest '.' rfl) (by decide)
      | power he => rcases he with rfl | rfl <;> simp
    rw [List.nil_append, readFraction.eq_def]
    split
    · next s heq => exact absurd heq (hne s)
    · exact hm rest hrest
  | @point ds h =>
    obtain ⟨d, values, hvalues⟩ := h.exists_values
    obtain ⟨m, hm⟩ := exists_readExponent { number with fraction := some (d :: values) } hexponent
    refine ⟨m, fun rest hrest => ?_⟩
    have hdigits := digits_append h.2 (noDigit_exponent hexponent hrest)
    simp [readFraction, hdigits, hvalues, hm rest hrest]

lemma noDigit_fraction (hfraction : IsFraction fraction) (hexponent : IsExponent exponent) {rest : Text}
    (hrest : Stops rest) : NoDigit (fraction ++ (exponent ++ rest)) := by
  cases hfraction with
  | absent => exact noDigit_exponent hexponent hrest
  | point h => exact noDigit_cons (by decide) _

/-- The whole part is read first, and what follows it as fraction and exponent. -/
lemma read_whole (negative : Bool) (h : IsWhole whole) {rest : Text} (hrest : NoDigit rest) :
    read negative (whole ++ rest) = readFraction ⟨negative, digitValues whole, none, none⟩ rest := by
  obtain ⟨⟨hne, hdigit⟩, hzero⟩ := h
  obtain ⟨c, s, rfl⟩ := List.exists_cons_of_ne_nil hne
  rw [read, digits_append hdigit hrest]
  split
  · next heq => simp [digitValues] at heq
  · next heq =>
    -- a zero in front is the only digit
    obtain ⟨hc, hs⟩ : c.toNat - 48 = 0 ∧ digitValues s ≠ [] := by
      simp only [digitValues, List.map_cons, Prod.mk.injEq, List.cons.injEq] at heq
      exact ⟨heq.1.1, by simp [digitValues, heq.1.2]⟩
    obtain rfl := eq_zero_of_isDigit (hdigit c (List.mem_cons_self ..)) hc
    exact absurd (by simp [hzero s rfl, digitValues]) hs
  · next heq =>
    obtain ⟨rfl, rfl⟩ := Prod.mk.inj heq
    rfl

lemma exists_read (negative : Bool) (hwhole : IsWhole whole) (hfraction : IsFraction fraction)
    (hexponent : IsExponent exponent) :
    ∃ m, ∀ rest, Stops rest → read negative (whole ++ (fraction ++ (exponent ++ rest))) = .ok (m, rest) := by
  obtain ⟨m, hm⟩ := exists_readFraction ⟨negative, digitValues whole, none, none⟩ hfraction hexponent
  refine ⟨m, fun rest hrest => ?_⟩
  rw [read_whole negative hwhole (noDigit_fraction hfraction hexponent hrest), hm rest hrest]

end Lexeme

/-! ## Tokens -/

lemma readToken_digit {c : Char} (hc : c.isDigit = true) {s rest : Text} {m : Lexeme}
    (h : Lexeme.read false (c :: s) = .ok (m, rest)) :
    readToken c s = (.leaf (.number m.value) none, rest) := by
  rw [readToken.eq_def]
  split
  all_goals try exact absurd hc (by decide)
  have hquote : c ≠ '\x22' := by
    rintro rfl
    exact absurd hc (by decide)
  rw [if_neg hquote, if_pos hc, h]

lemma tokens_whole {t rest after : Text} {m : Lexeme} (ht : IsDigits t)
    (h : Lexeme.read false (t ++ rest) = .ok (m, after)) :
    tokens (t ++ rest) = .leaf (.number m.value) none :: tokens after := by
  obtain ⟨c, s, rfl⟩ := List.exists_cons_of_ne_nil ht.1
  have hc : c.isDigit = true := ht.2 c (List.mem_cons_self ..)
  have hblank : ¬ isBlank c = true := by
    intro hb
    simp only [isBlank, Bool.or_eq_true, decide_eq_true_eq] at hb
    rcases hb with ((rfl | rfl) | rfl) | rfl <;> exact absurd hc (by decide)
  rw [List.cons_append] at h ⊢
  rw [tokens, if_neg hblank, readToken_digit hc h]

/-- Every number is one token. -/
lemma exists_tokens_isNumber {t : Text} (h : IsNumber t) :
    ∃ value, ∀ rest, Stops rest → tokens (t ++ rest) = .leaf (.number value) none :: tokens rest := by
  obtain ⟨sign, whole, fraction, exponent, hsign, hwhole, hfraction, hexponent, rfl⟩ := h
  simp only [List.mem_cons, List.not_mem_nil, or_false] at hsign
  rcases hsign with rfl | rfl
  · obtain ⟨m, hm⟩ := Lexeme.exists_read false hwhole hfraction hexponent
    refine ⟨m.value, fun rest hrest => ?_⟩
    have htokens := tokens_whole hwhole.1 (hm rest hrest)
    simpa using htokens
  · obtain ⟨m, hm⟩ := Lexeme.exists_read true hwhole hfraction hexponent
    refine ⟨m.value, fun rest hrest => ?_⟩
    have htoken : readToken '-' (whole ++ (fraction ++ (exponent ++ rest))) =
        (.leaf (.number m.value) none, rest) := by
      simp [readToken, readNumber, hm rest hrest]
    simp only [List.cons_append, List.nil_append, List.append_assoc]
    rw [tokens, if_neg (by decide), htoken]

/-! ## Natural numbers -/

lemma le_foldl_digits (ds : List Nat) (k : Nat) : k ≤ ds.foldl (fun n d => n * 10 + d) k := by
  induction ds generalizing k with
  | nil => exact Nat.le_refl k
  | cons d ds ih =>
    have := ih (k * 10 + d)
    rw [List.foldl_cons]
    omega

lemma takeDigits_of_le {ds : List Nat} {k : Nat} (h : ds.foldl (fun n d => n * 10 + d) k ≤ Lexeme.maxSignificand) :
    Lexeme.takeDigits k ds = (ds.foldl (fun n d => n * 10 + d) k, []) := by
  induction ds generalizing k with
  | nil => rfl
  | cons d ds ih =>
    rw [List.foldl_cons] at h ⊢
    have hnext : ¬ Lexeme.maxSignificand < k * 10 + d := by
      have := le_foldl_digits ds (k * 10 + d)
      omega
    rw [Lexeme.takeDigits, if_neg hnext, ih h]

lemma foldl_digitValues (n : Nat) : (digitValues (toString n).toList).foldl (fun n d => n * 10 + d) 0 = n := by
  have hread := Nat.ofDigitChars_toDigits (b := 10) (n := n) (by decide) (by decide)
  rw [digitValues, List.foldl_map]
  simpa [Nat.ofDigitChars, Nat.mul_comm] using hread

lemma head?_toDigits {n : Nat} (hn : n ≠ 0) : (Nat.toDigits 10 n).head? ≠ some '0' := by
  induction n using Nat.strongRecOn with
  | ind n ih =>
    by_cases hlt : n < 10
    · have hall : ∀ m < 10, m ≠ 0 → m.digitChar ≠ '0' := by decide
      rw [Nat.toDigits_of_lt_base hlt]
      simpa using hall n hlt hn
    · rw [Nat.toDigits_of_base_le (by decide) (Nat.not_lt.1 hlt),
        List.head?_append_of_ne_nil _ Nat.toDigits_ne_nil]
      exact ih (n / 10) (by omega) (by omega)

/-- A natural number is written without a leading zero. -/
lemma isWhole_toString (n : Nat) : IsWhole (toString n).toList := by
  have hdigits : (toString n).toList = Nat.toDigits 10 n := Nat.toList_repr
  rw [hdigits]
  refine ⟨⟨Nat.toDigits_ne_nil, fun c hc => Nat.isDigit_of_mem_toDigits (by decide) (by decide) hc⟩, ?_⟩
  intro rest hrest
  by_cases hn : n = 0
  · subst hn
    exact (List.cons.inj hrest).2.symm
  · have hhead := head?_toDigits hn
    rw [hrest] at hhead
    exact absurd rfl hhead

/-- A number that fits into 64 bits is read as itself. -/
lemma tokens_toString {n : Nat} (hn : n < UInt64.size) {rest : Text} (hrest : Stops rest) :
    tokens ((toString n).toList ++ rest) = .leaf (.number (.ok (.integer n))) none :: tokens rest := by
  have hread := Lexeme.read_whole false (isWhole_toString n) hrest.noDigit
  rw [Lexeme.readFraction_stops _ hrest] at hread
  have htake : Lexeme.takeDigits 0 (digitValues (toString n).toList) = (n, []) := by
    have hmax : n ≤ Lexeme.maxSignificand := Nat.le_sub_one_of_lt hn
    rw [takeDigits_of_le (by rwa [foldl_digitValues]), foldl_digitValues]
  rw [tokens_whole (isWhole_toString n).1 hread]
  simp only [Lexeme.value, htake]
  rfl

end MarkedMath.Json
