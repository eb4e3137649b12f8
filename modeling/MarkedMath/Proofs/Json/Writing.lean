import MarkedMath.Json.Writer
import MarkedMath.Proofs.Json.Records

/-!
# Written texts

What is written is one of the spellings: of strings (`isString_writeString`), of arrays (`isArray_writeItems`) and of
records that are written with each field once and under one of its names (`isRecord_writeMembers`).
-/

namespace MarkedMath.Json

lemma isHexDigit_hexDigit {n : Nat} (hn : n < 16) : IsHexDigit n (hexDigit n) := by
  have hall : ∀ m < 16, "0123456789abcdef".toList[m]? = some (hexDigit m) := by decide
  exact Or.inl (hall n hn)

lemma spellsUnit_control {n : Nat} (hn : n < 32) :
    SpellsUnit n ['0', '0', hexDigit (n / 16), hexDigit (n % 16)] := by
  have hfirst : n / 4096 = 0 := by omega
  have hsecond : n / 256 % 16 = 0 := by omega
  have hthird : n / 16 % 16 = n / 16 := by omega
  rw [SpellsUnit, hfirst, hsecond, hthird]
  exact .cons (Or.inl rfl) (.cons (Or.inl rfl) (.cons (isHexDigit_hexDigit (by omega))
    (.cons (isHexDigit_hexDigit (by omega)) .nil)))

/-- A character is written in one of its spellings: by an escape of two characters, by its unit when it is a control
character without such an escape, and else as it is. -/
lemma isChar_writeChar (c : Char) : IsChar c (writeChar c) := by
  rw [writeChar.eq_def]
  split
  case h_8 hquote hbackslash _ _ _ _ _ =>
    split
    · next hlow =>
      have hlt : c.toNat < 32 := UInt32.lt_iff_toNat_lt.1 hlow
      have hunits : utf16 c = [c.toNat] := if_pos (by omega)
      have hspell : List.Forall₂ SpellsUnit (utf16 c)
          [['0', '0', hexDigit (c.toNat / 16), hexDigit (c.toNat % 16)]] := by
        rw [hunits]
        exact .cons (spellsUnit_control hlt) .nil
      exact IsChar.units hspell
    · next hlow => exact .plain ⟨Char.not_lt.1 hlow, hquote, hbackslash⟩
  all_goals exact .short (by decide)

lemma isString_writeString (s : Text) : IsString s (writeString s) := by
  refine ⟨s.map writeChar, List.forall₂_map_right_iff.2 (List.forall₂_same.2 fun c _ => isChar_writeChar c), ?_⟩
  simp [writeString, quote, List.flatMap_def]

/-! ## Arrays and objects -/

lemma padded_self (t : Text) : Padded t t :=
  ⟨[], [], by simp [IsBlanks], by simp [IsBlanks], by simp⟩

lemma row_intercalate {α : Type} {One : α → Text → Prop} {as : List α} {parts : List Text}
    (h : List.Forall₂ One as parts) : Row One as ([','].intercalate parts) := by
  induction h with
  | nil => exact .none (by simp [IsBlanks])
  | @cons a t as parts ha hrest ih =>
    cases hrest with
    | nil => simpa using Row.one ha
    | @cons b u as parts hb hrest =>
      have hcomma : [','].intercalate (t :: u :: parts) = t ++ ',' :: [','].intercalate (u :: parts) := by simp
      rw [hcomma]
      exact .more ha ih

lemma isArray_writeItems (items : List Text) : IsArray items (writeItems items) := by
  refine ⟨_, row_intercalate (List.forall₂_same.2 fun t _ => padded_self t), ?_⟩
  simp [writeItems]

lemma isObject_writeMembers (members : List (Text × Text)) :
    IsObject (members.map fun m => (writeString m.1, m.2)) (writeMembers members) := by
  refine ⟨[','].intercalate (members.map fun m => writeString m.1 ++ ':' :: m.2), row_intercalate ?_, ?_⟩
  · rw [List.forall₂_map_left_iff, List.forall₂_map_right_iff, List.forall₂_same]
    intro m _
    exact ⟨_, _, padded_self _, padded_self _, rfl⟩
  · simp [writeMembers]

/-- A record that is written with each field once, under one of its names. -/
theorem isRecord_writeMembers {ι : Type} (N : Naming ι) (needed : ι → Prop) {spells : ι → Text → Prop}
    (key : ι → String) (value : ι → Text) (hkey : ∀ i, key i ∈ N.names i) (hvalue : ∀ i, spells i (value i)) :
    IsRecord N needed spells (N.all.map fun i => ⟨key i, writeString (key i).toList, value i⟩)
      (writeMembers (N.all.map fun i => ((key i).toList, value i))) where
  object := by
    have hobject := isObject_writeMembers (N.all.map fun i => ((key i).toList, value i))
    rw [List.map_map] at hobject ⊢
    exact hobject
  key := by
    intro m hm
    obtain ⟨i, -, rfl⟩ := List.mem_map.1 hm
    exact isString_writeString _
  given := fun i _ => ⟨_, List.mem_map_of_mem (N.mem_all i), hkey i⟩
  once := by
    classical
    intro i
    have hcount : N.all.countP (fun j => key j ∈ N.names i) ≤ N.all.count i := by
      refine List.countP_mono_left fun j _ hj => ?_
      simpa using N.eq_of_mem_names (hkey j) (of_decide_eq_true hj)
    rw [List.countP_map]
    exact Nat.le_trans hcount (List.nodup_iff_count_le_one.1 N.nodup_all i)
  spelled := by
    intro m hm i hi
    obtain ⟨j, -, rfl⟩ := List.mem_map.1 hm
    obtain rfl := N.eq_of_mem_names hi (hkey j)
    exact hvalue i
  other := by
    intro m hm hother
    obtain ⟨i, -, rfl⟩ := List.mem_map.1 hm
    exact absurd (hkey i) (hother i)

/-! ## Values -/

namespace Value

lemma write_ofString (s : String) : (ofString s).write = writeString s.toList := by
  rw [ofString, write]

lemma write_ofNat (n : Nat) : (ofNat n).write = (toString n).toList := by
  rw [ofNat, write]
  rfl

lemma write_bool (b : Bool) : (bool b).write = (if b then "true" else "false").toList := by
  rw [write, writeBool]

lemma write_ofMembers (members : List (String × Value)) :
    (ofMembers members).write = writeMembers (members.map fun m => (m.1.toList, m.2.write)) := by
  have hnamed : writeNamed (members.map fun m => (.ok m.1.toList, m.2)) =
      members.map fun m => (m.1.toList, m.2.write) := by
    induction members with
    | nil => simp [writeNamed]
    | cons m members ih => simp [writeNamed, ih]
  rw [ofMembers, write, hnamed]

lemma write_ofList (items : List Value) : (ofList items).write = writeItems (items.map write) := by
  have hall : writeAll items = items.map write := by
    induction items with
    | nil => simp [writeAll]
    | cons v items ih => simp [writeAll, ih]
  rw [ofList, write, hall]

end Value

end MarkedMath.Json
