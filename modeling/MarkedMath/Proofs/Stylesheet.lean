import MarkedMath.Proofs.Numbering
import MarkedMath.Proofs.Patterns
import MarkedMath.Proofs.Reading
import MarkedMath.Style

/-!
# What stands in style rules

Style rules are made of fixed parts, of names and of a number. A property that is kept when texts are put
together holds of the rules when it holds of these (`Text.Additive.css`). So no bracket of a tag stands in them
(`not_mem_css`), and with the tokens that are set when nothing else is no marker does (`not_holds_css`).
-/

namespace MarkedMath

/-- A property that a text has when it is made of parts that have it. -/
structure Text.Additive (P : Text → Prop) : Prop where
  nil : P []
  append {t u : Text} : P t → P u → P (t ++ u)

/-- The parts of style rules that are the same for all settings, and for all rules. -/
def cssPunctuation : List String :=
  ["\n", "    ", ": ", ";\n", " \x7b\n", "\x7d\n", ".", " ", "::before", ":hover", ":hover, ", ",\n",
    "@media (max-width: ", "px)"]

/-- The declarations of all rules. They are the same for all settings. -/
def cssDeclarations : List (String × String) :=
  let s : Settings := {}
  [s.inlineRule, s.displayRule, s.hoverRule, s.narrowRule, s.debugRule].flatMap StyleRule.declarations

lemma mem_cssDeclarations {s : Settings} {r : StyleRule} {d : String × String}
    (hr : r ∈ [s.inlineRule, s.displayRule, s.hoverRule, s.narrowRule, s.debugRule]) (hd : d ∈ r.declarations) :
    d ∈ cssDeclarations := by
  have hall : ∀ r ∈ [({} : Settings).inlineRule, ({} : Settings).displayRule, ({} : Settings).hoverRule,
      ({} : Settings).narrowRule, ({} : Settings).debugRule], d ∈ r.declarations → d ∈ cssDeclarations :=
    fun r hr hd => List.mem_flatMap.2 ⟨r, hr, hd⟩
  simp only [List.mem_cons, List.not_mem_nil, or_false] at hr
  rcases hr with rfl | rfl | rfl | rfl | rfl
  · exact hall ({} : Settings).inlineRule (by simp) hd
  · exact hall ({} : Settings).displayRule (by simp) hd
  · exact hall ({} : Settings).hoverRule (by simp) hd
  · exact hall ({} : Settings).narrowRule (by simp) hd
  · exact hall ({} : Settings).debugRule (by simp) hd

section Css

variable {P : Text → Prop} (hP : Text.Additive P)
include hP

lemma Text.Additive.toList_append {a b : String} (ha : P a.toList) (hb : P b.toList) : P (a ++ b).toList := by
  rw [String.toList_append]
  exact hP.append ha hb

lemma Text.Additive.join {parts : List String} (h : ∀ t ∈ parts, P t.toList) : P (String.join parts).toList := by
  have hfold : ∀ (parts : List String) (first : String), P first.toList → (∀ t ∈ parts, P t.toList) →
      P (parts.foldl (· ++ ·) first).toList := by
    intro parts
    induction parts with
    | nil => exact fun first hfirst _ => hfirst
    | cons t parts ih =>
      intro first hfirst hparts
      exact ih _ (hP.toList_append hfirst (hparts t (List.mem_cons_self ..)))
        fun u hu => hparts u (List.mem_cons_of_mem t hu)
  rw [String.join]
  exact hfold parts "" hP.nil h

variable (hfixed : ∀ t ∈ cssPunctuation, P t.toList)
include hfixed

lemma Text.Additive.written {indent : String} {r : StyleRule} (hindent : P indent.toList)
    (hselectors : P r.selectors.toList) (hlines : ∀ d ∈ r.declarations, P d.1.toList ∧ P d.2.toList) :
    P (r.written indent).toList := by
  refine hP.toList_append (hP.toList_append hindent hselectors) (hP.toList_append (hP.toList_append (hP.toList_append
    (hfixed _ (by decide)) (hP.join fun line hline => ?_)) hindent) (hfixed _ (by decide)))
  obtain ⟨d, hd, rfl⟩ := List.mem_map.1 hline
  obtain ⟨hproperty, hvalue⟩ := hlines d hd
  exact hP.toList_append (hP.toList_append (hP.toList_append (hP.toList_append (hP.toList_append hindent
    (hfixed _ (by decide))) hproperty) (hfixed _ (by decide))) hvalue) (hfixed _ (by decide))

/-- What names, numbers and the fixed parts have, the style rules have. -/
lemma Text.Additive.css (s : Settings) (hnames : ∀ field, P (s.get field).toList)
    (hwidth : P (toString s.mobileBreakpoint.toNat).toList)
    (hlines : ∀ d ∈ cssDeclarations, P d.1.toList ∧ P d.2.toList) : P s.css.toList := by
  have hclass : ∀ kind, P (s.equationSelector kind).toList := by
    intro kind
    refine hP.toList_append (hfixed _ (by decide)) ?_
    cases kind with
    | inline => exact hnames .inlineClass
    | display => exact hnames .displayClass
  have hdebug : ∀ kind, P (s.debugSelector kind).toList := fun kind =>
    hP.toList_append (hP.toList_append (hP.toList_append (hP.toList_append (hfixed _ (by decide)) (hnames .debugClass))
      (hfixed _ (by decide))) (hclass kind)) (hfixed _ (by decide))
  have hrule : ∀ r ∈ [s.inlineRule, s.displayRule, s.hoverRule, s.narrowRule, s.debugRule], P r.selectors.toList := by
    intro r hr
    simp only [List.mem_cons, List.not_mem_nil, or_false] at hr
    rcases hr with rfl | rfl | rfl | rfl | rfl
    · exact hclass .inline
    · exact hclass .display
    · exact hP.toList_append (hP.toList_append (hP.toList_append (hclass .inline) (hfixed _ (by decide)))
        (hclass .display)) (hfixed _ (by decide))
    · exact hclass .display
    · exact hP.toList_append (hP.toList_append (hdebug .inline) (hfixed _ (by decide))) (hdebug .display)
  have hwritten : ∀ r ∈ [s.inlineRule, s.displayRule, s.hoverRule, s.narrowRule, s.debugRule], ∀ indent : String,
      P indent.toList → P (r.written indent).toList := fun r hr indent hindent =>
    hP.written hfixed hindent (hrule r hr) fun d hd => hlines d (mem_cssDeclarations hr hd)
  refine hP.toList_append (hP.toList_append (hP.toList_append (hP.toList_append (hP.toList_append (hP.toList_append
    (hP.toList_append (hP.toList_append (hfixed _ (by decide)) ?_) ?_) ?_) (hfixed _ (by decide))) hwidth)
    (hfixed _ (by decide))) (hP.toList_append (hP.toList_append (hP.toList_append (hfixed _ (by decide)) ?_) hP.nil)
    (hfixed _ (by decide)))) ?_
  · exact hwritten _ (by simp) "" hP.nil
  · exact hwritten _ (by simp) "" hP.nil
  · exact hwritten _ (by simp) "" hP.nil
  · exact hwritten _ (by simp) "    " (hfixed _ (by decide))
  · exact hwritten _ (by simp) "" hP.nil

end Css

/-! ## Brackets of tags -/

section Rules

variable (s : CheckedSettings)

lemma isNameChar_of_mem_get (field : NameField) : ∀ c ∈ (s.get field).toList, isNameChar c = true :=
  isNameChar_of_isPlainName (s.isPlainName_get field)

/-- No bracket of a tag stands in the style rules. -/
lemma not_mem_css {c : Char} (hc : c = '<' ∨ c = '>') : c ∉ s.sheet.css.toList := by
  have hadditive : Text.Additive fun t => c ∉ t :=
    ⟨by simp, fun ht hu => by simp [ht, hu]⟩
  refine hadditive.css ?_ s.toSettings (fun field hmem => ?_) (fun hmem => ?_) ?_
  · rcases hc with rfl | rfl <;> decide
  · have hname := isNameChar_of_mem_get s field c hmem
    rcases hc with rfl | rfl <;> exact absurd hname (by decide)
  · have hdigit := isDigit_of_mem_toString c hmem
    rcases hc with rfl | rfl <;> exact absurd hdigit (by decide)
  · rcases hc with rfl | rfl <;> decide

/-! ## Markers -/

/-- No opening bracket of a payload stands first in the text or behind a character that one stands behind in a
marker. -/
def BracketsApart (t : Text) : Prop :=
  (t.IsChain fun c d => d = '(' ∨ d = '[' → c ≠ 'E' ∧ c ≠ 'Y' ∧ c ≠ '\\') ∧ ∀ c ∈ t.head?, c ≠ '(' ∧ c ≠ '['

instance (t : Text) : Decidable (BracketsApart t) :=
  @instDecidableAnd _ _ inferInstance (Option.decidableForallMem ..)

lemma additive_bracketsApart : Text.Additive BracketsApart where
  nil := ⟨List.IsChain.nil, by simp⟩
  append := by
    rintro t u ⟨ht, hthead⟩ ⟨hu, huhead⟩
    refine ⟨List.isChain_append.2 ⟨ht, hu, fun c _ d hd hbracket => ?_⟩, ?_⟩
    · have hnot := huhead d hd
      exact absurd hbracket (by simp [hnot])
    · cases t with
      | nil => exact huhead
      | cons c t => exact hthead

lemma bracketsApart_of_not_mem {t : Text} (h : ∀ c ∈ t, c ≠ '(' ∧ c ≠ '[') : BracketsApart t := by
  refine ⟨?_, fun c hc => h c (List.mem_of_mem_head? hc)⟩
  induction t with
  | nil => exact List.IsChain.nil
  | cons c t ih =>
    refine List.IsChain.cons (ih fun d hd => h d (List.mem_cons_of_mem c hd)) fun d hd hbracket => ?_
    have hnot := h d (List.mem_cons_of_mem c (List.mem_of_mem_head? hd))
    exact absurd hbracket (by simp [hnot])

/-- With the standard tokens no marker stands in the style rules. -/
lemma not_holds_css (htokens : s.tokens = {}) (kind : Kind) : ¬ (s.grammar.rule kind).Holds s.sheet.css.toList := by
  have hcss : BracketsApart s.sheet.css.toList := by
    refine additive_bracketsApart.css (by decide) s.toSettings (fun field => ?_) ?_ ?_
    · refine bracketsApart_of_not_mem fun c hc => ?_
      have hname := isNameChar_of_mem_get s field c hc
      constructor <;> rintro rfl <;> exact absurd hname (by decide)
    · refine bracketsApart_of_not_mem fun c hc => ?_
      have hdigit := isDigit_of_mem_toString c hc
      constructor <;> rintro rfl <;> exact absurd hdigit (by decide)
    · decide
  rintro ⟨m, ⟨first, run, last, hfirst, -, -, rfl⟩, hin⟩
  have hchain := List.IsChain.infix hcss.1 hin
  obtain ⟨c, hlast, hc⟩ : ∃ c ∈ ((s.grammar.rule kind).start ++ first).getLast?, c = 'E' ∨ c = 'Y' ∨ c = '\\' := by
    rcases hfirst with rfl | rfl
    · rw [List.append_nil, Grammar.rule]
      show ∃ c ∈ (s.tokens.start kind).toList.getLast?, _
      rw [htokens]
      cases kind
      · exact ⟨'E', by decide, by decide⟩
      · exact ⟨'Y', by decide, by decide⟩
    · exact ⟨'\\', by simp, by decide⟩
  rw [List.append_assoc, List.append_assoc, List.cons_append] at hchain
  have hnot := (List.isChain_append.1 hchain).2.2 c hlast (s.grammar.rule kind).kind.opening (by simp)
    (by cases kind <;> simp [Kind.opening])
  rcases hc with rfl | rfl | rfl
  · exact hnot.1 rfl
  · exact hnot.2.1 rfl
  · exact hnot.2.2 rfl

end Rules

end MarkedMath
