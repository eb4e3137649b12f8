import MarkedMath.Proofs.Json.Writing
import MarkedMath.Settings.Decode
import MarkedMath.Settings.Encode

/-!
# Texts of settings

Settings may be written in many ways: a field that has its default may be left out, the others stand in any order and
under any of their names, and members of other names may stand between them. The tokens are a record of their own, and
so is each pair of delimiters. Whatever way is taken, the settings come back when the text is decoded
(`ofJson_isWritten`).
-/

namespace MarkedMath

/-! ## Names of fields -/

/-- The names that the tokens go by. -/
def TokenField.names : TokenField → List String
  | inlineStart => ["inline_start", "inlineStart", "inline_prefix"]
  | inlineEnd => ["inline_end", "inlineEnd", "inline_suffix"]
  | displayStart => ["display_start", "displayStart", "display_prefix"]
  | displayEnd => ["display_end", "displayEnd", "display_suffix"]

/-- The tokens with their names. -/
def TokenField.naming : Json.Naming TokenField where
  all := all
  names := names
  mem_all i := by cases i <;> decide
  nodup_all := by decide
  nodup_names := by decide

/-- The fields of a pair of delimiters. -/
inductive DelimiterField where
  | left
  | right
  | display
  deriving DecidableEq

/-- The fields of a pair of delimiters, each with one name. -/
def DelimiterField.naming : Json.Naming DelimiterField where
  all := [left, right, display]
  names
    | left => ["left"]
    | right => ["right"]
    | display => ["display"]
  mem_all i := by cases i <;> decide
  nodup_all := by decide
  nodup_names := by decide

/-- The fields of settings. -/
inductive SettingsField where
  | tokens
  | name (field : NameField)
  | breakpoint
  | delimiters
  deriving DecidableEq

/-- The names that the fields of settings go by. -/
def SettingsField.names : SettingsField → List String
  | tokens => ["markers"]
  | name .inlineClass => ["inline_class", "inlineClass"]
  | name .displayClass => ["display_class", "displayClass"]
  | name .styleId => ["style_id", "styleId"]
  | name .debugClass => ["debug_class", "debugClass"]
  | breakpoint => ["mobile_breakpoint_px", "mobileBreakpointPx"]
  | delimiters => ["delimiters"]

/-- The fields of settings with their names. -/
def SettingsField.naming : Json.Naming SettingsField where
  all := [tokens] ++ NameField.all.map name ++ [breakpoint, delimiters]
  names := names
  mem_all i := by
    rcases i with _ | (_ | _ | _ | _) | _ | _ <;> decide
  nodup_all := by decide
  nodup_names := by decide

/-! ## Spellings -/

open Json

/-- The text writes the tokens. Those that are not as set by default are given. -/
def Tokens.IsWritten (t : Tokens) (text : Text) : Prop :=
  ∃ members, IsRecord TokenField.naming (fun i => Tokens.get {} i ≠ t.get i)
    (fun i value => IsString (t.get i).toList value) members text

/-- The spellings of the fields of a pair of delimiters. -/
def Delimiter.Spells (d : Delimiter) : DelimiterField → Text → Prop
  | .left => IsString d.left.toList
  | .right => IsString d.right.toList
  | .display => fun value => value = (if d.display then "true" else "false").toList

/-- The text writes the pair of delimiters. All fields are given. -/
def Delimiter.IsWritten (d : Delimiter) (text : Text) : Prop :=
  ∃ members, IsRecord DelimiterField.naming (fun _ => True) d.Spells members text

/-- The text writes the list of pairs of delimiters. -/
def Delimiter.AreWritten (ds : List Delimiter) (text : Text) : Prop :=
  ∃ items, List.Forall₂ Delimiter.IsWritten ds items ∧ IsArray items text

/-- The settings have the same value in the field. -/
def Settings.Agree (s : Settings) : SettingsField → Settings → Prop
  | .tokens, r => r.tokens = s.tokens
  | .name field, r => r.get field = s.get field
  | .breakpoint, r => r.mobileBreakpoint = s.mobileBreakpoint
  | .delimiters, r => r.delimiters = s.delimiters

/-- The spellings of the fields of settings. -/
def Settings.Spells (s : Settings) : SettingsField → Text → Prop
  | .tokens => s.tokens.IsWritten
  | .name field => IsString (s.get field).toList
  | .breakpoint => fun value => value = (toString s.mobileBreakpoint.toNat).toList
  | .delimiters => Delimiter.AreWritten s.delimiters

/-- The text writes the settings, with blanks around them. The fields that are not as set by default are given. -/
def Settings.IsWritten (s : Settings) (text : Text) : Prop :=
  ∃ members record,
    IsRecord SettingsField.naming (fun i => ¬ s.Agree i {}) s.Spells members record ∧ Padded record text

/-! ## Decoding tokens -/

/-- The fields of the decoder of tokens. -/
def TokenField.field : TokenField → Field Value Tokens :=
  naming.field (Tokens.fields textSource) rfl

/-- The tokens with another one in a field. -/
def Tokens.set (t : Tokens) : TokenField → String → Tokens
  | .inlineStart, token => { t with inlineStart := token }
  | .inlineEnd, token => { t with inlineEnd := token }
  | .displayStart, token => { t with displayStart := token }
  | .displayEnd, token => { t with displayEnd := token }

lemma Tokens.get_set (t : Tokens) (i j : TokenField) (token : String) :
    (t.set i token).get j = if j = i then token else t.get j := by
  cases i <;> cases j <;> rfl

lemma TokenField.read_field (i : TokenField) (token : String) :
    i.field.read (.string (.ok token.toList)) = .ok fun t => t.set i token := by
  have hread : ∀ s : Text, i.field.read (.string (.ok s)) = .ok fun t => t.set i (String.ofList s) := by
    intro s
    cases i <;> rfl
  rw [hread, String.ofList_toList]

lemma Tokens.recovers (t : Tokens) : Recovers TokenField.naming TokenField.field
    (fun i value => IsString (t.get i).toList value) (fun i r => r.set i (t.get i))
    (fun i r => r.get i = t.get i) where
  keys i := by cases i <;> decide
  nodup_name := by decide
  read i value h := ⟨_, readAs_isString h, i.read_field (t.get i)⟩
  agrees_fill i r := by rw [get_set, if_pos rfl]
  agrees_keep i j r h := by
    rw [get_set]
    split
    · next hij => rw [hij]
    · exact h

/-- Tokens come back however they are written. -/
lemma Tokens.exists_decode {t : Tokens} {text : Text} (h : t.IsWritten text) :
    ∃ v, ReadAs text v ∧ Tokens.decode textSource v = .ok t := by
  obtain ⟨members, hmembers⟩ := h
  obtain ⟨v, hv, r, hr, hagree⟩ := exists_recordOf t.recovers hmembers "MarkerTokens" {}
    (fun i => ne_or_eq _ _) (fun i hi => by cases i <;> exact absurd hi (by decide))
  have heq : r = t := by
    cases r
    cases t
    rw [Tokens.mk.injEq]
    exact ⟨hagree .inlineStart, hagree .inlineEnd, hagree .displayStart, hagree .displayEnd⟩
  exact ⟨v, hv, heq ▸ hr⟩

/-! ## Decoding delimiters -/

/-- The fields of the decoder of a pair of delimiters. -/
def DelimiterField.field : DelimiterField → Field Value Delimiter :=
  naming.field (Delimiter.fields textSource) rfl

/-- Another pair of delimiters with a field of this one. -/
def Delimiter.fill (d : Delimiter) : DelimiterField → Delimiter → Delimiter
  | .left, r => { r with left := d.left }
  | .right, r => { r with right := d.right }
  | .display, r => { r with display := d.display }

/-- The pairs of delimiters have the same value in the field. -/
def Delimiter.Agree (d : Delimiter) : DelimiterField → Delimiter → Prop
  | .left, r => r.left = d.left
  | .right, r => r.right = d.right
  | .display, r => r.display = d.display

lemma Delimiter.recovers (d : Delimiter) :
    Recovers DelimiterField.naming DelimiterField.field d.Spells d.fill d.Agree where
  keys i := by cases i <;> decide
  nodup_name := by decide
  read i value h := by
    cases i with
    | left =>
      have hread : ∀ s : Text, DelimiterField.left.field.read (.string (.ok s)) =
          .ok fun r => { r with left := String.ofList s } := fun s => rfl
      refine ⟨_, readAs_isString h, ?_⟩
      rw [hread, String.ofList_toList]
      rfl
    | right =>
      have hread : ∀ s : Text, DelimiterField.right.field.read (.string (.ok s)) =
          .ok fun r => { r with right := String.ofList s } := fun s => rfl
      refine ⟨_, readAs_isString h, ?_⟩
      rw [hread, String.ofList_toList]
      rfl
    | display =>
      obtain rfl : value = _ := h
      exact ⟨_, readAs_bool d.display, rfl⟩
  agrees_fill i r := by cases i <;> rfl
  agrees_keep i j r h := by cases i <;> cases j <;> simp_all [fill, Agree]

/-- A pair of delimiters comes back however it is written. -/
lemma Delimiter.exists_decode {d : Delimiter} {text : Text} (h : d.IsWritten text) :
    ∃ v, ReadAs text v ∧ Delimiter.decode textSource v = .ok d := by
  obtain ⟨members, hmembers⟩ := h
  obtain ⟨v, hv, r, hr, hagree⟩ := exists_recordOf d.recovers hmembers "Delimiter" ⟨"", "", false⟩
    (fun i => Or.inl trivial) (fun i _ => trivial)
  have heq : r = d := by
    cases r
    cases d
    rw [Delimiter.mk.injEq]
    exact ⟨hagree .left, hagree .right, hagree .display⟩
  exact ⟨v, hv, heq ▸ hr⟩

lemma Delimiter.exists_decodeItems {ds : List Delimiter} {items : List Text}
    (h : List.Forall₂ Delimiter.IsWritten ds items) :
    ∃ vs, List.Forall₂ ReadAs items vs ∧ vs.mapM (Delimiter.decode textSource) = .ok ds := by
  induction h with
  | nil => exact ⟨[], .nil, rfl⟩
  | cons hd _ ih =>
    obtain ⟨v, hv, hdecode⟩ := Delimiter.exists_decode hd
    obtain ⟨vs, hvs, hrest⟩ := ih
    refine ⟨v :: vs, .cons hv hvs, ?_⟩
    rw [List.mapM_cons, hdecode, hrest]
    rfl

/-- A list of pairs of delimiters comes back however it is written. -/
lemma Delimiter.exists_decodeList {ds : List Delimiter} {text : Text} (h : Delimiter.AreWritten ds text) :
    ∃ v, ReadAs text v ∧ Delimiter.decodeList textSource v = .ok ds := by
  obtain ⟨items, hitems, harray⟩ := h
  obtain ⟨vs, hvs, hdecode⟩ := Delimiter.exists_decodeItems hitems
  refine ⟨.array vs none, readAs_isArray harray hvs, ?_⟩
  have hlist : textSource.list (.array vs none) = .ok ⟨vs, none⟩ := rfl
  rw [Delimiter.decodeList, hlist]
  simp only [bind, Except.bind, Source.listOf, hdecode]

/-! ## Decoding settings -/

/-- The fields of the decoder of settings. -/
def SettingsField.field : SettingsField → Field Value Settings :=
  naming.field (Settings.fields textSource) rfl

/-- The settings with another name in a field. -/
def Settings.setName (s : Settings) : NameField → String → Settings
  | .inlineClass, name => { s with inlineClass := name }
  | .displayClass, name => { s with displayClass := name }
  | .styleId, name => { s with styleId := name }
  | .debugClass, name => { s with debugClass := name }

lemma Settings.get_setName (s : Settings) (i j : NameField) (name : String) :
    (s.setName i name).get j = if j = i then name else s.get j := by
  cases i <;> cases j <;> rfl

lemma SettingsField.read_name (i : NameField) (s : String) :
    (name i).field.read (.string (.ok s.toList)) = .ok fun r => r.setName i s := by
  have hread : ∀ t : Text, (name i).field.read (.string (.ok t)) = .ok fun r => r.setName i (String.ofList t) := by
    intro t
    cases i <;> rfl
  rw [hread, String.ofList_toList]

lemma word_toNat (w : UInt32) : textSource.word (.number (.ok (.integer w.toNat))) = .ok w := by
  have hlt : w.toNat < UInt32.size := w.toNat_lt
  have hrange : (0 : Int) ≤ w.toNat ∧ (w.toNat : Int) < UInt32.size := by omega
  simp only [textSource, Value.word, if_pos hrange, Int.toNat_natCast]
  simp

/-- Other settings with a field of these. -/
def Settings.fill (s : Settings) : SettingsField → Settings → Settings
  | .tokens, r => { r with tokens := s.tokens }
  | .name field, r => r.setName field (s.get field)
  | .breakpoint, r => { r with mobileBreakpoint := s.mobileBreakpoint }
  | .delimiters, r => { r with delimiters := s.delimiters }

lemma Settings.agree_fill (s r : Settings) (i : SettingsField) : s.Agree i (s.fill i r) := by
  cases i with
  | name field => rw [fill, Agree, get_setName, if_pos rfl]
  | _ => rfl

lemma Settings.Agree.fill {s r : Settings} {j : SettingsField} (h : s.Agree j r) (i : SettingsField) :
    s.Agree j (s.fill i r) := by
  rcases i with _ | (_ | _ | _ | _) | _ | _ <;> rcases j with _ | (_ | _ | _ | _) | _ | _ <;>
    simp_all [Settings.fill, Agree, get, setName]

lemma Settings.recovers (s : Settings) :
    Recovers SettingsField.naming SettingsField.field s.Spells s.fill s.Agree where
  keys i := by
    rcases i with _ | (_ | _ | _ | _) | _ | _ <;> decide
  nodup_name := by decide
  read i value h := by
    cases i with
    | tokens =>
      obtain ⟨v, hv, hdecode⟩ := Tokens.exists_decode h
      exact ⟨v, hv, congrArg (Functor.map _) hdecode⟩
    | name field => exact ⟨_, readAs_isString h, SettingsField.read_name field (s.get field)⟩
    | breakpoint =>
      obtain rfl : value = _ := h
      have hlt : s.mobileBreakpoint.toNat < UInt32.size := s.mobileBreakpoint.toNat_lt
      exact ⟨_, readAs_toString (Nat.lt_trans hlt (by decide)), congrArg (Functor.map _) (word_toNat _)⟩
    | delimiters =>
      obtain ⟨v, hv, hdecode⟩ := Delimiter.exists_decodeList h
      exact ⟨v, hv, congrArg (Functor.map _) hdecode⟩
  agrees_fill i r := s.agree_fill r i
  agrees_keep i _ _ h := h.fill i

/-- Settings come back however their record is written. -/
lemma Settings.exists_decode {s : Settings} {members : List Member} {record : Text}
    (h : IsRecord SettingsField.naming (fun i => ¬ s.Agree i {}) s.Spells members record) :
    ∃ v, ReadAs record v ∧ Settings.decode textSource v = .ok s := by
  obtain ⟨v, hv, r, hr, hagree⟩ := exists_recordOf s.recovers h "EngineConfig" {}
    (fun i => (em (s.Agree i {})).symm)
    (fun i hi => by rcases i with _ | (_ | _ | _ | _) | _ | _ <;> exact absurd hi (by decide))
  have heq : r = s := by
    cases r
    cases s
    rw [Settings.mk.injEq]
    exact ⟨hagree .tokens, hagree (.name .inlineClass), hagree (.name .displayClass), hagree (.name .styleId),
      hagree (.name .debugClass), hagree .breakpoint, hagree .delimiters⟩
  exact ⟨v, hv, heq ▸ hr⟩

/-! ## Encoded settings -/

lemma Tokens.isWritten_encode (t : Tokens) : t.IsWritten t.encode.write := by
  have hwrite : t.encode.write =
      writeMembers (TokenField.naming.all.map fun i => (i.key.toList, writeString (t.get i).toList)) := by
    simp only [Tokens.encode, Value.write_ofMembers, List.map_map, Function.comp_def, Value.write_ofString]
    rfl
  rw [hwrite]
  refine ⟨_, isRecord_writeMembers _ _ TokenField.key _ (fun i => ?_) fun i => isString_writeString _⟩
  cases i <;> decide

/-- The name of the field in encoded pairs of delimiters. -/
def DelimiterField.key : DelimiterField → String
  | left => "left"
  | right => "right"
  | display => "display"

/-- The field as it is encoded. -/
def Delimiter.written (d : Delimiter) : DelimiterField → Text
  | .left => writeString d.left.toList
  | .right => writeString d.right.toList
  | .display => (if d.display then "true" else "false").toList

lemma Delimiter.isWritten_encode (d : Delimiter) : d.IsWritten d.encode.write := by
  have hwrite : d.encode.write =
      writeMembers (DelimiterField.naming.all.map fun i => (i.key.toList, d.written i)) := by
    simp only [Delimiter.encode, Value.write_ofMembers, List.map_cons, List.map_nil, Value.write_ofString,
      Value.write_bool]
    rfl
  rw [hwrite]
  refine ⟨_, isRecord_writeMembers _ _ DelimiterField.key d.written (fun i => ?_) fun i => ?_⟩
  · cases i <;> decide
  · cases i with
    | left => exact isString_writeString _
    | right => exact isString_writeString _
    | display => rfl

lemma Delimiter.areWritten_encodeList (ds : List Delimiter) : Delimiter.AreWritten ds (encodeList ds).write := by
  rw [encodeList, Value.write_ofList, List.map_map]
  refine ⟨_, ?_, isArray_writeItems _⟩
  exact List.forall₂_map_right_iff.2 (List.forall₂_same.2 fun d _ => d.isWritten_encode)

/-- The name of the field in encoded settings. -/
def SettingsField.key : SettingsField → String
  | tokens => "markers"
  | name field => field.key
  | breakpoint => "mobile_breakpoint_px"
  | delimiters => "delimiters"

/-- The field as it is encoded. -/
def Settings.written (s : Settings) : SettingsField → Text
  | .tokens => s.tokens.encode.write
  | .name field => writeString (s.get field).toList
  | .breakpoint => (toString s.mobileBreakpoint.toNat).toList
  | .delimiters => (Delimiter.encodeList s.delimiters).write

lemma Settings.isWritten_toJson (s : Settings) : s.IsWritten s.toJson := by
  have hwrite : s.toJson = writeMembers (SettingsField.naming.all.map fun i => (i.key.toList, s.written i)) := by
    simp only [Settings.toJson, Settings.encode, Value.write_ofMembers, NameField.all, List.map_append, List.map_cons,
      List.map_nil, Value.write_ofString, Value.write_ofNat]
    rfl
  rw [hwrite]
  refine ⟨_, _, isRecord_writeMembers _ _ SettingsField.key s.written (fun i => ?_) fun i => ?_, padded_self _⟩
  · rcases i with _ | (_ | _ | _ | _) | _ | _ <;> decide
  · cases i with
    | tokens => exact s.tokens.isWritten_encode
    | name field => exact isString_writeString _
    | breakpoint => rfl
    | delimiters => exact Delimiter.areWritten_encodeList s.delimiters

/-! ## Settings from texts -/

lemma CheckedSettings.check_toSettings (s : CheckedSettings) : s.toSettings.check = .ok s := by
  obtain ⟨s, hs⟩ := s
  rw [Settings.check]
  split
  · next fault hfault =>
    rw [hs] at hfault
    cases hfault
  · rfl

lemma CheckedSettings.ofJson_isWritten (s : CheckedSettings) {text : Text} (h : s.IsWritten text) :
    Settings.ofJson text = .ok s := by
  obtain ⟨members, record, hrecord, hpadded⟩ := h
  obtain ⟨v, hv, hdecode⟩ := Settings.exists_decode hrecord
  have hread : Json.decode (Settings.decode textSource) text = .ok s.toSettings := by
    simp only [Json.decode, read_padded hv hpadded, hdecode, bind, Except.bind]
  rw [Settings.ofJson, hread]
  simp only [s.check_toSettings, Except.mapError]

/-- **Settings come back from every text that writes them.** Whatever fields are left out that have their default, in
whatever order and under whichever names the others stand, however the strings are escaped, and whatever other members
stand between them: usable settings are what the text is decoded to. The text that settings are encoded to is one of
these. -/
theorem CheckedSettings.decoded_from_any_spelling (s : CheckedSettings) :
    (∀ text, s.IsWritten text → Settings.ofJson text = .ok s) ∧ Settings.ofJson s.toJson = .ok s :=
  ⟨fun _ h => s.ofJson_isWritten h, s.ofJson_isWritten s.isWritten_toJson⟩

/-- Settings in which the class and the tokens of inline equations are set. -/
def CheckedSettings.inlineSet : CheckedSettings :=
  ⟨{ tokens := { inlineStart := "EQIN", inlineEnd := "EQOUT" }, inlineClass := "eq-inline" }, by decide⟩

/-- The tokens of these settings, under two of their other names. -/
def inlineSetTokens : Text :=
  "\x7b \"inline_prefix\": \"EQIN\", \"inlineEnd\": \"EQOUT\" \x7d".toList

/-- These settings, with the fields that are as set by default left out. -/
def inlineSetText : Text :=
  "\x7b\"inlineClass\": \"eq-inline\", \"markers\": ".toList ++ inlineSetTokens ++ ['\x7d']

lemma padded_blank (t : Text) : Padded t (' ' :: t) :=
  ⟨[' '], [], by simp [IsBlanks], by simp [IsBlanks], by simp⟩

lemma isWritten_inlineSetTokens : CheckedSettings.inlineSet.tokens.IsWritten inlineSetTokens := by
  have hblanks : ∀ t, Padded t (' ' :: (t ++ [' '])) := fun t =>
    ⟨[' '], [' '], by simp [IsBlanks], by simp [IsBlanks], by simp⟩
  refine ⟨[⟨"inline_prefix", writeString "inline_prefix".toList, writeString "EQIN".toList⟩,
    ⟨"inlineEnd", writeString "inlineEnd".toList, writeString "EQOUT".toList⟩], ?_, ?_, ?_, ?_, ?_, ?_⟩
  · exact ⟨_, .more ⟨_, _, padded_blank _, padded_blank _, rfl⟩ (.one ⟨_, _, padded_blank _, hblanks _, rfl⟩),
      by decide⟩
  · simp [isString_writeString]
  · intro i hi
    cases i with
    | inlineStart => exact ⟨_, List.mem_cons_self .., by decide⟩
    | inlineEnd => exact ⟨_, List.mem_cons_of_mem _ (List.mem_cons_self ..), by decide⟩
    | displayStart => exact absurd rfl hi
    | displayEnd => exact absurd rfl hi
  · intro i
    cases i <;> decide
  · intro m hm i hi
    simp only [List.mem_cons, List.not_mem_nil, or_false] at hm
    rcases hm with rfl | rfl
    · obtain rfl := TokenField.naming.eq_of_mem_names (j := .inlineStart) hi (by decide)
      exact isString_writeString _
    · obtain rfl := TokenField.naming.eq_of_mem_names (j := .inlineEnd) hi (by decide)
      exact isString_writeString _
  · intro m hm hother
    simp only [List.mem_cons, List.not_mem_nil, or_false] at hm
    rcases hm with rfl | rfl
    · exact absurd (by decide) (hother .inlineStart)
    · exact absurd (by decide) (hother .inlineEnd)

lemma isWritten_inlineSetText : CheckedSettings.inlineSet.IsWritten inlineSetText := by
  refine ⟨[⟨"inlineClass", writeString "inlineClass".toList, writeString "eq-inline".toList⟩,
    ⟨"markers", writeString "markers".toList, inlineSetTokens⟩], _, ⟨?_, ?_, ?_, ?_, ?_, ?_⟩, padded_self _⟩
  · exact ⟨_, .more ⟨_, _, padded_self _, padded_blank _, rfl⟩ (.one ⟨_, _, padded_blank _, padded_blank _, rfl⟩),
      by decide⟩
  · simp [isString_writeString]
  · intro i hi
    rcases i with _ | (_ | _ | _ | _) | _ | _
    · exact ⟨_, List.mem_cons_of_mem _ (List.mem_cons_self ..), by decide⟩
    · exact ⟨_, List.mem_cons_self .., by decide⟩
    all_goals exact absurd rfl hi
  · intro i
    rcases i with _ | (_ | _ | _ | _) | _ | _ <;> decide
  · intro m hm i hi
    simp only [List.mem_cons, List.not_mem_nil, or_false] at hm
    rcases hm with rfl | rfl
    · obtain rfl := SettingsField.naming.eq_of_mem_names (j := .name .inlineClass) hi (by decide)
      exact isString_writeString _
    · obtain rfl := SettingsField.naming.eq_of_mem_names (j := .tokens) hi (by decide)
      exact isWritten_inlineSetTokens
  · intro m hm hother
    simp only [List.mem_cons, List.not_mem_nil, or_false] at hm
    rcases hm with rfl | rfl
    · exact absurd (by decide) (hother (.name .inlineClass))
    · exact absurd (by decide) (hother .tokens)

/-- Two fields that are given under other names, one of them a record of its own. -/
theorem decoded_inlineSetText :
    CheckedSettings.inlineSet.IsWritten inlineSetText ∧
      Settings.ofJson inlineSetText = .ok CheckedSettings.inlineSet :=
  ⟨isWritten_inlineSetText, CheckedSettings.inlineSet.decoded_from_any_spelling.1 _ isWritten_inlineSetText⟩

end MarkedMath
