import Mathlib.Tactic.Common
import MarkedMath.Grammar

/-!
# Tokens without a fault

What the check of tokens promises: no token is empty, and none holds a line feed or a carriage return.
-/

namespace MarkedMath

namespace Grammar

variable (g : Grammar) (kind : Kind)

lemma fieldFault?_eq_none (field : TokenField) : g.tokens.fieldFault? field = none := by
  have hvalid := g.valid
  rw [Tokens.fault?, Option.or_eq_none_iff, List.findSome?_eq_none_iff] at hvalid
  refine hvalid.1 field ?_
  cases field <;> simp [TokenField.all]

lemma token_of_field (field : TokenField) :
    (g.tokens.get field).toList ≠ [] ∧
      ∀ c ∈ (g.tokens.get field).toList, c ≠ '\n' ∧ c ≠ '\r' := by
  have hfault := g.fieldFault?_eq_none field
  rw [Tokens.fieldFault?] at hfault
  split at hfault
  · simp at hfault
  · next hne =>
    split at hfault
    · simp at hfault
    · next hline =>
      refine ⟨by simpa using hne, fun c hc => ?_⟩
      simp only [List.any_eq_true, not_exists, not_and] at hline
      have := hline c hc
      simp only [isLineBreak, Bool.or_eq_true, decide_eq_true_eq, not_or] at this
      exact this

lemma start_ne_nil : (g.rule kind).start ≠ [] := by
  cases kind
  · exact (g.token_of_field .inlineStart).1
  · exact (g.token_of_field .displayStart).1

lemma stop_ne_nil : (g.rule kind).stop ≠ [] := by
  cases kind
  · exact (g.token_of_field .inlineEnd).1
  · exact (g.token_of_field .displayEnd).1

lemma ne_lineBreak_of_mem_start {c : Char} (h : c ∈ (g.rule kind).start) : c ≠ '\n' ∧ c ≠ '\r' := by
  cases kind
  · exact (g.token_of_field .inlineStart).2 c h
  · exact (g.token_of_field .displayStart).2 c h

lemma ne_lineBreak_of_mem_stop {c : Char} (h : c ∈ (g.rule kind).stop) : c ≠ '\n' ∧ c ≠ '\r' := by
  cases kind
  · exact (g.token_of_field .inlineEnd).2 c h
  · exact (g.token_of_field .displayEnd).2 c h

end Grammar

end MarkedMath
