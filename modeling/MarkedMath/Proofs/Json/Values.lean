import MarkedMath.Json.Reader
import MarkedMath.Proofs.Json.Numbers
import MarkedMath.Proofs.Json.Strings

/-!
# Reading values

A text is read as a value (`ReadAs`) when the tokens found in it are put together to this value, wherever it stands.
What is found in a text does not depend on what follows it, as long as that may follow a value.

Arrays and objects are read alike: what they have in common is a `Container`, and one entry after the other is added
to the open one (`Container.readAs`). So every value of the grammar is read (`exists_readAs`), and a text that holds
nothing else has it for its value (`read_padded`).
-/

namespace MarkedMath.Json

variable {s t w : Text} {v : Value}

/-! ## Tokens of texts -/

/-- These tokens are found in a text, whatever stands behind it. -/
def Cuts (t : Text) (found : List Token) : Prop :=
  ∀ rest, Stops rest → tokens (t ++ rest) = found ++ tokens rest

lemma stops_nil : Stops [] := by
  rintro c ⟨⟩

lemma IsBlanks.stops (hw : IsBlanks w) {rest : Text} (h : Stops rest) : Stops (w ++ rest) := by
  cases w with
  | nil => exact h
  | cons c w =>
    rintro d ⟨⟩
    have hall : ∀ d ∈ [' ', '\n', '\t', '\r'], d ∈ [' ', '\n', '\t', '\r', ',', ':', ']', '\x7d'] := by simp
    exact hall c (hw c (List.mem_cons_self ..))

lemma stops_cons {c : Char} (h : c ∈ [',', ':', ']', '\x7d']) (rest : Text) : Stops (c :: rest) := by
  rintro d ⟨⟩
  have hall : ∀ d ∈ [',', ':', ']', '\x7d'], d ∈ [' ', '\n', '\t', '\r', ',', ':', ']', '\x7d'] := by simp
  exact hall c h

lemma IsBlanks.tokens_append (hw : IsBlanks w) (rest : Text) : tokens (w ++ rest) = tokens rest := by
  induction w with
  | nil => rfl
  | cons c w ih =>
    have hall : ∀ d ∈ [' ', '\n', '\t', '\r'], isBlank d = true := by simp [isBlank]
    rw [List.cons_append, tokens, if_pos (hall c (hw c (List.mem_cons_self ..))),
      ih fun d hd => hw d (List.mem_cons_of_mem c hd)]

lemma IsBlanks.cuts (hw : IsBlanks w) : Cuts w [] :=
  fun rest _ => hw.tokens_append rest

lemma Cuts.padded {found : List Token} (h : Cuts t found) (hs : Padded t s) : Cuts s found := by
  obtain ⟨w, w', hw, hw', rfl⟩ := hs
  intro rest hrest
  rw [List.append_assoc, List.append_assoc, hw.tokens_append, h _ (hw'.stops hrest), hw'.tokens_append]

/-- A text behind which a character stands that is a token by itself. -/
lemma Cuts.append_cons {found found' : List Token} {c : Char} {token : Token} (h : Cuts s found)
    (hc : c ∈ [',', ':', ']', '\x7d']) (htoken : ∀ rest, tokens (c :: rest) = token :: tokens rest)
    (h' : Cuts t found') : Cuts (s ++ c :: t) (found ++ token :: found') := by
  intro rest hrest
  rw [List.append_assoc, List.cons_append, h _ (stops_cons hc _), htoken, h' rest hrest, List.append_assoc,
    List.cons_append]

/-! ## Texts that are read as values -/

/-- Goes on behind a value that is read whole. -/
def resume (v : Value) (stack : List Frame) (more : List Token) : Document :=
  match deliver v stack with
  | .inl v => ⟨v, if more.isEmpty then none else some .malformed⟩
  | .inr stack => build .separator stack more

/-- The text is read as the value wherever a value may stand. -/
def ReadAs (t : Text) (v : Value) : Prop :=
  ∃ found, Cuts t found ∧
    ∀ expected ∈ [Expected.value, .item], ∀ stack more, build expected stack (found ++ more) = resume v stack more

lemma readAs_leaf (h : Cuts t [.leaf v none]) : ReadAs t v := by
  refine ⟨_, h, fun expected he stack more => ?_⟩
  simp only [List.mem_cons, List.not_mem_nil, or_false] at he
  rcases he with rfl | rfl <;> rfl

lemma readAs_string {content : Except Fault Text} (h : Cuts t [.string content none]) :
    ReadAs t (.string content) := by
  refine ⟨_, h, fun expected he stack more => ?_⟩
  simp only [List.mem_cons, List.not_mem_nil, or_false] at he
  rcases he with rfl | rfl <;> rfl

lemma readAs_isString (h : IsString s t) : ReadAs t (.string (.ok s)) :=
  readAs_string fun rest _ => tokens_isString h rest

lemma readAs_bool (b : Bool) : ReadAs (if b then "true" else "false").toList (.bool b) := by
  refine readAs_leaf fun rest _ => ?_
  cases b with
  | true => simp [tokens, isBlank, readToken, readWord]
  | false => simp [tokens, isBlank, readToken, readWord]

lemma readAs_null : ReadAs "null".toList .null :=
  readAs_leaf fun rest _ => by simp [tokens, isBlank, readToken, readWord]

lemma readAs_toString {n : Nat} (hn : n < UInt64.size) : ReadAs (toString n).toList (.number (.ok (.integer n))) :=
  readAs_leaf fun _ hrest => tokens_toString hn hrest

/-- A text with nothing but a value in it has this value. -/
theorem read_padded (h : ReadAs t v) (hs : Padded t s) : read s = ⟨v, none⟩ := by
  obtain ⟨found, hcuts, hbuild⟩ := h
  have htokens := hcuts.padded hs [] stops_nil
  have hread := hbuild .value (by decide) [] []
  have hnil : tokens [] = [] := by rw [tokens]
  rw [List.append_nil, hnil] at htokens
  rw [read, htokens, hread]
  rfl

/-! ## Arrays and objects -/

/-- What arrays and objects have in common. -/
structure Container (β : Type) where
  /-- The container while it is open, the last entry first. -/
  frame : List β → Frame
  /-- The container with all its entries. -/
  value : List β → Value
  /-- The bracket in front. -/
  opening : Char × Token
  /-- The bracket behind. -/
  closing : Char × Token
  /-- What is expected behind the opening bracket. -/
  first : Expected
  /-- What is expected behind a comma. -/
  next : Expected
  closing_mem : closing.1 ∈ [',', ':', ']', '\x7d']
  tokens_opening : ∀ rest, tokens (opening.1 :: rest) = opening.2 :: tokens rest
  tokens_closing : ∀ rest, tokens (closing.1 :: rest) = closing.2 :: tokens rest
  build_opening : ∀ expected ∈ [Expected.value, .item], ∀ stack more,
    build expected stack (opening.2 :: more) = build first (frame [] :: stack) more
  build_empty : ∀ stack more, build first (frame [] :: stack) (closing.2 :: more) = resume (value []) stack more
  build_comma : ∀ before stack more,
    build .separator (frame before :: stack) (.comma :: more) = build next (frame before :: stack) more
  build_closing : ∀ before stack more,
    build .separator (frame before :: stack) (closing.2 :: more) = resume (value before.reverse) stack more

/-- Arrays. -/
def Container.array : Container Value where
  frame := .array
  value items := .array items none
  opening := ('[', .arrayOpen)
  closing := (']', .arrayClose)
  first := .item
  next := .value
  closing_mem := by decide
  tokens_opening rest := by simp [tokens, isBlank, readToken]
  tokens_closing rest := by simp [tokens, isBlank, readToken]
  build_opening expected he stack more := by
    simp only [List.mem_cons, List.not_mem_nil, or_false] at he
    rcases he with rfl | rfl <;> rfl
  build_empty _ _ := rfl
  build_comma _ _ _ := rfl
  build_closing _ _ _ := rfl

/-- Objects. -/
def Container.object : Container (Key × Value) where
  frame := .object
  value members := .object members none
  opening := ('\x7b', .objectOpen)
  closing := ('\x7d', .objectClose)
  first := .firstKey
  next := .key
  closing_mem := by decide
  tokens_opening rest := by simp [tokens, isBlank, readToken]
  tokens_closing rest := by simp [tokens, isBlank, readToken]
  build_opening expected he stack more := by
    simp only [List.mem_cons, List.not_mem_nil, or_false] at he
    rcases he with rfl | rfl <;> rfl
  build_empty _ _ := rfl
  build_comma _ _ _ := rfl
  build_closing _ _ _ := rfl

namespace Container

variable {α β : Type} (C : Container β) {One : α → Text → Prop} {as : List α} {bs : List β}

/-- The text is read as one more entry of the open container. -/
def Adds (t : Text) (b : β) : Prop :=
  ∃ found, Cuts t found ∧ ∀ expected ∈ [C.first, C.next], ∀ before stack more,
    build expected (C.frame before :: stack) (found ++ more) = build .separator (C.frame (b :: before) :: stack) more

/-- The entries of a row are added one by one. -/
lemma exists_row (h : Row One as t) (hadds : List.Forall₂ (fun a b => ∀ t, One a t → C.Adds t b) as bs)
    (hne : as ≠ []) :
    ∃ found, Cuts t found ∧ ∀ expected ∈ [C.first, C.next], ∀ before stack more,
      build expected (C.frame before :: stack) (found ++ more) =
        build .separator (C.frame (bs.reverse ++ before) :: stack) more := by
  induction h generalizing bs with
  | none => exact absurd rfl hne
  | @one a t hone =>
    obtain ⟨b, _, hb, hnil, rfl⟩ := List.forall₂_cons_left_iff.1 hadds
    obtain rfl := List.forall₂_nil_left_iff.1 hnil
    exact hb t hone
  | @more a a' as t u hone _ ih =>
    obtain ⟨b, bs, hb, hrest, rfl⟩ := List.forall₂_cons_left_iff.1 hadds
    obtain ⟨found, hcuts, hbuild⟩ := hb t hone
    obtain ⟨found', hcuts', hbuild'⟩ := ih hrest (List.cons_ne_nil _ _)
    have hcomma : ∀ rest, tokens (',' :: rest) = .comma :: tokens rest := fun rest => by
      simp [tokens, isBlank, readToken]
    refine ⟨_, hcuts.append_cons (by decide) hcomma hcuts', fun expected he before stack more => ?_⟩
    rw [List.append_assoc, List.cons_append, hbuild expected he, C.build_comma,
      hbuild' C.next (by simp)]
    simp

/-- A row between brackets is read as the container of its entries. -/
theorem readAs (h : Row One as t) (hadds : List.Forall₂ (fun a b => ∀ t, One a t → C.Adds t b) as bs) :
    ReadAs (C.opening.1 :: (t ++ [C.closing.1])) (C.value bs) := by
  obtain ⟨found, hcuts, hbuild⟩ : ∃ found, Cuts t found ∧ ∀ stack more,
      build C.first (C.frame [] :: stack) (found ++ C.closing.2 :: more) = resume (C.value bs) stack more := by
    by_cases hne : as = []
    · subst hne
      obtain rfl := List.forall₂_nil_left_iff.1 hadds
      cases h with
      | none hw => exact ⟨[], hw.cuts, C.build_empty⟩
    · obtain ⟨found, hcuts, hbuild⟩ := C.exists_row h hadds hne
      refine ⟨found, hcuts, fun stack more => ?_⟩
      rw [hbuild C.first (by simp), C.build_closing]
      simp
  refine ⟨C.opening.2 :: (found ++ [C.closing.2]), fun rest hrest => ?_, fun expected he stack more => ?_⟩
  · rw [List.cons_append, C.tokens_opening, List.append_assoc, List.singleton_append,
      hcuts _ (stops_cons C.closing_mem rest), C.tokens_closing]
    simp
  · rw [List.cons_append, C.build_opening expected he, List.append_assoc, List.singleton_append, hbuild]

end Container

lemma ReadAs.adds {item : Text} (h : ReadAs item v) (ht : Padded item t) : Container.array.Adds t v := by
  obtain ⟨found, hcuts, hbuild⟩ := h
  refine ⟨found, hcuts.padded ht, fun expected he before stack more => ?_⟩
  have hexpected : expected ∈ [Expected.value, .item] := by
    simpa [Container.array, or_comm] using he
  exact hbuild expected hexpected _ more

lemma ReadAs.adds_member {name value : Text} {key : Key} (hname : Cuts name [.string key none]) (h : ReadAs value v)
    (ht : IsMember (name, value) t) : Container.object.Adds t (key, v) := by
  obtain ⟨n, u, hn, hu, rfl⟩ := ht
  obtain ⟨found, hcuts, hbuild⟩ := h
  have hcolon : ∀ rest, tokens (':' :: rest) = .colon :: tokens rest := fun rest => by
    simp [tokens, isBlank, readToken]
  refine ⟨_, (hname.padded hn).append_cons (by decide) hcolon (hcuts.padded hu), ?_⟩
  intro expected he before stack more
  have hvalue := hbuild .value (by decide) (.member before key :: stack) more
  simp only [Container.object, List.mem_cons, List.not_mem_nil, or_false] at he
  rcases he with rfl | rfl <;> exact hvalue

theorem readAs_isArray {items : List Text} {vs : List Value} (h : IsArray items t)
    (hvs : List.Forall₂ ReadAs items vs) : ReadAs t (.array vs none) := by
  obtain ⟨inner, hrow, rfl⟩ := h
  refine Container.array.readAs hrow (hvs.imp ?_)
  intro item v hv u hu
  exact hv.adds hu

/-- A member of an object is read as a key and a value. -/
def MemberReadAs (m : Text × Text) (kv : Key × Value) : Prop :=
  Cuts m.1 [.string kv.1 none] ∧ ReadAs m.2 kv.2

theorem readAs_isObject {members : List (Text × Text)} {kvs : List (Key × Value)} (h : IsObject members t)
    (hkvs : List.Forall₂ MemberReadAs members kvs) : ReadAs t (.object kvs none) := by
  obtain ⟨inner, hrow, rfl⟩ := h
  refine Container.object.readAs hrow (hkvs.imp ?_)
  intro m kv hm u hu
  exact hm.2.adds_member hm.1 hu

lemma exists_forall₂ {α β : Type} {R : α → β → Prop} {as : List α} (h : ∀ a ∈ as, ∃ b, R a b) :
    ∃ bs, List.Forall₂ R as bs := by
  induction as with
  | nil => exact ⟨[], .nil⟩
  | cons a as ih =>
    obtain ⟨b, hb⟩ := h a (List.mem_cons_self ..)
    obtain ⟨bs, hbs⟩ := ih fun a' ha' => h a' (List.mem_cons_of_mem a ha')
    exact ⟨b :: bs, .cons hb hbs⟩

/-- Every value of the grammar is read. -/
theorem exists_readAs (h : IsValue t) : ∃ v, ReadAs t v := by
  induction h with
  | null => exact ⟨_, readAs_null⟩
  | bool b => exact ⟨_, readAs_bool b⟩
  | number h =>
    obtain ⟨value, hvalue⟩ := exists_tokens_isNumber h
    exact ⟨_, readAs_leaf hvalue⟩
  | string h =>
    obtain ⟨content, hcontent⟩ := exists_tokens_isAnyString h
    exact ⟨_, readAs_string fun rest _ => hcontent rest⟩
  | array _ h ih =>
    obtain ⟨vs, hvs⟩ := exists_forall₂ ih
    exact ⟨_, readAs_isArray h hvs⟩
  | @object members _ hnames _ h ih =>
    have hmembers : ∀ m ∈ members, ∃ kv, MemberReadAs m kv := by
      intro m hm
      obtain ⟨content, hcontent⟩ := exists_tokens_isAnyString (hnames m hm)
      obtain ⟨v, hv⟩ := ih m hm
      exact ⟨(content, v), fun rest _ => hcontent rest, hv⟩
    obtain ⟨kvs, hkvs⟩ := exists_forall₂ hmembers
    exact ⟨_, readAs_isObject h hkvs⟩

end MarkedMath.Json
