import Mathlib.Data.List.DropRight
import Mathlib.Tactic.Common
import MarkedMath.Text

/-!
# The words of a class attribute

The words of a text are cut at ASCII blanks, so a blank parts the words before it from those behind it, and
words that are joined by spaces are read again as they were (`words_unwords`). Trimming takes away more than
blanks: all white space at the two ends. The words stay the same exactly when no other white space stands at
their ends (`words_trim_iff`). To see this it is enough to count the characters that are no blanks, which are
those of the words (`flatten_words`).
-/

namespace MarkedMath.Text

variable {s t w : Text} {c : Char} {ws : List Text}

/-- What can be a word: it is not empty and holds no blank. -/
def IsWord (w : Text) : Prop :=
  w ≠ [] ∧ ∀ c ∈ w, isBlank c = false

/-! ## Cutting at blanks -/

lemma wordsFrom_of_plain (hs : ∀ c ∈ s, isBlank c = false) (word : Text)
    (hne : word ++ s ≠ []) : wordsFrom word s = [word.reverse ++ s] := by
  induction s generalizing word with
  | nil =>
    have hword : word ≠ [] := by simpa using hne
    simp [wordsFrom, hword]
  | cons c s ih =>
    rw [List.forall_mem_cons] at hs
    rw [wordsFrom, hs.1, ih hs.2 (c :: word) (by simp)]
    simp

lemma IsWord.words_eq (h : IsWord w) : words w = [w] :=
  wordsFrom_of_plain h.2 [] h.1

lemma wordsFrom_append_blank (hc : isBlank c = true) (word s t : Text) :
    wordsFrom word (s ++ c :: t) = wordsFrom word s ++ words t := by
  induction s generalizing word with
  | nil =>
    simp only [List.nil_append, wordsFrom, hc, if_true, words]
    split <;> rfl
  | cons d s ih =>
    simp only [List.cons_append, wordsFrom]
    split
    · split <;> simp [ih]
    · exact ih _

/-- A blank parts the words. -/
lemma words_append_blank (hc : isBlank c = true) (s t : Text) :
    words (s ++ c :: t) = words s ++ words t :=
  wordsFrom_append_blank hc [] s t

lemma words_append_of_blanks (ht : ∀ c ∈ t, isBlank c = true) (s : Text) : words (s ++ t) = words s := by
  induction t using List.reverseRecOn generalizing s with
  | nil => rw [List.append_nil]
  | append_singleton t c ih =>
    rw [List.forall_mem_append, List.forall_mem_singleton] at ht
    rw [← List.append_assoc, words_append_blank ht.2, ih ht.1]
    exact List.append_nil _

lemma words_blanks_append (hs : ∀ c ∈ s, isBlank c = true) (t : Text) : words (s ++ t) = words t := by
  induction s with
  | nil => rfl
  | cons c s ih =>
    rw [List.forall_mem_cons] at hs
    rw [List.cons_append, ← ih hs.2]
    exact words_append_blank hs.1 [] (s ++ t)

lemma isWord_of_mem_wordsFrom {word : Text} (hword : ∀ c ∈ word, isBlank c = false)
    (h : w ∈ wordsFrom word s) : IsWord w := by
  induction s generalizing word with
  | nil =>
    rw [wordsFrom] at h
    split at h
    · cases h
    · next hne =>
      obtain rfl := List.mem_singleton.1 h
      exact ⟨by simpa using hne, by simpa using hword⟩
  | cons c s ih =>
    rw [wordsFrom] at h
    split at h
    · split at h
      · exact ih (by simp) h
      · next hne =>
        rcases List.mem_cons.1 h with rfl | h
        · exact ⟨by simpa using hne, by simpa using hword⟩
        · exact ih (by simp) h
    · next hc =>
      refine ih ?_ h
      rw [List.forall_mem_cons]
      exact ⟨by simpa using hc, hword⟩

lemma isWord_of_mem_words (h : w ∈ words s) : IsWord w :=
  isWord_of_mem_wordsFrom (by simp) h

/-- Words joined by spaces are read again as they were. -/
lemma words_unwords (h : ∀ w ∈ ws, IsWord w) : words (unwords ws) = ws := by
  induction ws with
  | nil => rfl
  | cons w ws ih =>
    rw [List.forall_mem_cons] at h
    cases ws with
    | nil =>
      have hjoined : unwords [w] = w := by simp [unwords]
      rw [hjoined, h.1.words_eq]
    | cons w' ws =>
      have hjoined : unwords (w :: w' :: ws) = w ++ ' ' :: unwords (w' :: ws) := by
        simp [unwords, List.intercalate]
      rw [hjoined, words_append_blank (by decide), ih h.2, h.1.words_eq, List.singleton_append]

/-- The words hold all characters but the blanks. -/
lemma flatten_words (s : Text) : (words s).flatten = s.filter fun c => !isBlank c := by
  have hfrom : ∀ word, (wordsFrom word s).flatten = word.reverse ++ s.filter fun c => !isBlank c := by
    induction s with
    | nil =>
      intro word
      cases word <;> simp [wordsFrom]
    | cons c s ih =>
      intro word
      rw [wordsFrom]
      split
      · next hc =>
        split
        · next hempty =>
          obtain rfl := List.isEmpty_iff.1 hempty
          simp [ih, hc]
        · simp [ih, hc]
      · next hc => simp [ih, hc]
  exact hfrom []

/-! ## Trimming -/

lemma isSpace_of_isBlank (h : isBlank c = true) : isSpace c = true := by
  simp only [isBlank, Bool.or_eq_true, decide_eq_true_eq] at h
  rcases h with (((rfl | rfl) | rfl) | rfl) | rfl <;> decide

/-- No white space stands at the two ends of the words. -/
def Trimmed (ws : List Text) : Prop :=
  (∀ c ∈ ws.flatten.head?, isSpace c = false) ∧ ∀ c ∈ ws.flatten.getLast?, isSpace c = false

/-- A text is what trimming leaves of it, between white space. -/
lemma exists_trim (s : Text) : ∃ a b, s = a ++ trim s ++ b ∧ (∀ c ∈ a, isSpace c = true) ∧
    (∀ c ∈ b, isSpace c = true) ∧ (∀ c ∈ (trim s).head?, isSpace c = false) ∧
    ∀ c ∈ (trim s).getLast?, isSpace c = false := by
  have htrim : trim s = (s.dropWhile isSpace).rdropWhile isSpace := rfl
  refine ⟨s.takeWhile isSpace, (s.dropWhile isSpace).rtakeWhile isSpace, ?_, ?_, ?_, ?_, ?_⟩
  · rw [htrim, List.append_assoc, List.rdropWhile_append_rtakeWhile, List.takeWhile_append_dropWhile]
  · exact fun c hc => List.mem_takeWhile_imp hc
  · exact fun c hc => List.mem_rtakeWhile_imp hc
  · intro c hc
    obtain ⟨m, hm⟩ := List.head?_eq_some_iff.1 hc
    have hprefix := List.rdropWhile_prefix isSpace (s.dropWhile isSpace)
    rw [← htrim, hm] at hprefix
    obtain ⟨rest, hrest⟩ := hprefix
    have hfirst := List.head?_dropWhile_not isSpace s
    rw [← hrest] at hfirst
    exact hfirst
  · intro c hc
    obtain ⟨hne, rfl⟩ := List.mem_getLast?_eq_getLast hc
    have hlast := List.rdropWhile_last_not isSpace (s.dropWhile isSpace) hne
    rwa [Bool.not_eq_true] at hlast

lemma isBlank_eq_false_of_not_isSpace (h : isSpace c = false) : isBlank c = false := by
  by_contra hblank
  rw [isSpace_of_isBlank (by simpa using hblank)] at h
  cases h

lemma words_of_outer {a b : Text} (ha : a.filter (fun c => !isBlank c) = [])
    (hb : b.filter (fun c => !isBlank c) = []) (s : Text) : words (a ++ s ++ b) = words s := by
  rw [List.append_assoc, words_blanks_append (by simpa using ha), words_append_of_blanks (by simpa using hb)]

/-- Where trimming changes the words, characters are lost. -/
lemma words_trim_cases (s : Text) :
    words (trim s) = words s ∨ (words (trim s)).flatten.length < (words s).flatten.length := by
  obtain ⟨a, b, hs, -⟩ := exists_trim s
  obtain ⟨m, hm⟩ : ∃ m, m = trim s := ⟨_, rfl⟩
  rw [← hm] at hs ⊢
  by_cases houter : a.filter (fun c => !isBlank c) = [] ∧ b.filter (fun c => !isBlank c) = []
  · left
    rw [hs, words_of_outer houter.1 houter.2]
  · right
    rw [not_and_or, ← Ne, ← Ne, ← List.length_pos_iff, ← List.length_pos_iff] at houter
    rw [flatten_words, flatten_words, hs, List.filter_append, List.filter_append, List.length_append,
      List.length_append]
    omega

/-- Trimming keeps the words exactly when no white space stands at their ends. -/
lemma words_trim_iff (s : Text) : words (trim s) = words s ↔ Trimmed (words s) := by
  obtain ⟨a, b, hs, ha, hb, hfirst, hlast⟩ := exists_trim s
  obtain ⟨m, hm⟩ : ∃ m, m = trim s := ⟨_, rfl⟩
  rw [← hm] at hs hfirst hlast ⊢
  constructor
  · intro hsame
    rw [← hsame, Trimmed, flatten_words]
    constructor
    · cases m with
      | nil => simp
      | cons c m =>
        have hc := hfirst c rfl
        simpa [isBlank_eq_false_of_not_isSpace hc] using hc
    · rcases List.eq_nil_or_concat m with rfl | ⟨m, c, rfl⟩
      · simp
      · have hc := hlast c (by simp)
        simpa [isBlank_eq_false_of_not_isSpace hc] using hc
  · rintro ⟨hhead, hgetLast⟩
    rw [flatten_words, hs, List.filter_append, List.filter_append] at hhead hgetLast
    -- a character of the outer parts that is no blank would stand at an end of the words
    have hbefore : a.filter (fun c => !isBlank c) = [] := by
      rcases hout : a.filter (fun c => !isBlank c) with _ | ⟨c, rest⟩
      · rfl
      · have hc := hhead c (by simp [hout])
        rw [ha c (List.mem_of_mem_filter (hout ▸ List.mem_cons_self))] at hc
        cases hc
    have hbehind : b.filter (fun c => !isBlank c) = [] := by
      rcases List.eq_nil_or_concat (b.filter fun c => !isBlank c) with hout | ⟨rest, c, hout⟩
      · exact hout
      · have hmem : c ∈ b.filter fun c => !isBlank c := by simp [hout]
        have hc := hgetLast c (by simp [hout])
        rw [hb c (List.mem_of_mem_filter hmem)] at hc
        cases hc
    rw [hs, words_of_outer hbefore hbehind]

end MarkedMath.Text
