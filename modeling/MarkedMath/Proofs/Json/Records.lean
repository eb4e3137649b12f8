import Mathlib.Data.List.Nodup
import Mathlib.Data.List.Pairwise
import MarkedMath.Json.Source
import MarkedMath.Proofs.Json.Values

/-!
# Records in texts

A record may be written with its members in any order, each field under any of its names, and members between them
that belong to no field (`IsRecord`). Decoding it fills in the fields that are given and keeps the default of the
others (`exists_recordOf`).

The decoder is followed member by member. A field that is filled in agrees with the record sought from then on, and no
other field is touched; so what is left at the end is that the fields that were not given agree by default.
-/

namespace MarkedMath.Json

/-! ## Records as they are written -/

/-- The fields of a record with the names that they go by. -/
structure Naming (ι : Type) where
  /-- All fields. -/
  all : List ι
  /-- The names of a field. -/
  names : ι → List String
  mem_all : ∀ i, i ∈ all
  nodup_all : all.Nodup
  /-- No name belongs to two fields. -/
  nodup_names : (all.flatMap names).Nodup

lemma Naming.eq_of_mem_names {ι : Type} (N : Naming ι) {i j : ι} {name : String} (hi : name ∈ N.names i)
    (hj : name ∈ N.names j) : i = j := by
  by_contra hne
  have hdisjoint := (List.nodup_flatMap.1 N.nodup_names).2
  have : Std.Symm (Function.onFun List.Disjoint N.names) := ⟨fun _ _ h => List.disjoint_symm h⟩
  exact hdisjoint.forall (N.mem_all i) (N.mem_all j) hne hi hj

/-- A member of a record: its name, and the texts that name and value are written with. -/
structure Member where
  /-- The name. -/
  name : String
  /-- The name as it is written. -/
  key : Text
  /-- The value as it is written. -/
  value : Text

/-- The text writes a record with these members. Each field is given at most once, under any of its names, and those
that are needed are given. Members with other names have any values. -/
structure IsRecord {ι : Type} (N : Naming ι) (needed : ι → Prop) (spells : ι → Text → Prop) (members : List Member)
    (t : Text) : Prop where
  object : IsObject (members.map fun m => (m.key, m.value)) t
  key : ∀ m ∈ members, IsString m.name.toList m.key
  given : ∀ i, needed i → ∃ m ∈ members, m.name ∈ N.names i
  once : ∀ i, members.countP (fun m => m.name ∈ N.names i) ≤ 1
  spelled : ∀ m ∈ members, ∀ i, m.name ∈ N.names i → spells i m.value
  other : ∀ m ∈ members, (∀ i, m.name ∉ N.names i) → IsValue m.value

/-! ## Fields -/

section Order

variable {ι R : Type} [DecidableEq ι] (N : Naming ι) (fields : List (Field Value R))

/-- The field of a decoder whose fields stand in the order of the naming. -/
def Naming.field (h : fields.length = N.all.length) (i : ι) : Field Value R :=
  fields.get ⟨N.all.idxOf i, h ▸ List.idxOf_lt_length_of_mem (N.mem_all i)⟩

lemma Naming.map_field (h : fields.length = N.all.length) : N.all.map (N.field fields h) = fields := by
  refine List.ext_getElem (by simp [h]) fun n hn hn' => ?_
  simp [Naming.field, List.getElem_map, N.nodup_all.idxOf_getElem n]

end Order

section Fields

variable {ι R : Type} {N : Naming ι} {field : ι → Field Value R} {spells : ι → Text → Prop} {fill : ι → R → R}
  {agrees : ι → R → Prop}

/-- The fields go by their names, and each of them is filled in from the texts that spell it. A field agrees once it
is filled in, and whatever else is filled in. -/
structure Recovers (N : Naming ι) (field : ι → Field Value R) (spells : ι → Text → Prop) (fill : ι → R → R)
    (agrees : ι → R → Prop) : Prop where
  keys : ∀ i, (field i).keys.Perm (N.names i)
  nodup_name : (N.all.map fun i => (field i).name).Nodup
  read : ∀ i t, spells i t → ∃ v, ReadAs t v ∧ (field i).read v = .ok (fill i)
  agrees_fill : ∀ i r, agrees i (fill i r)
  agrees_keep : ∀ i j r, agrees j r → agrees j (fill i r)

lemma Recovers.mem_keys (h : Recovers N field spells fill agrees) {i : ι} {name : String} :
    name ∈ (field i).keys ↔ name ∈ N.names i :=
  (h.keys i).mem_iff

/-- The member is read with its name, and with a value that fills in the field if there is one of this name. -/
def MemberFills (N : Naming ι) (field : ι → Field Value R) (fill : ι → R → R) (m : Member) (kv : Key × Value) :
    Prop :=
  kv.1 = .ok m.name.toList ∧ MemberReadAs (m.key, m.value) kv ∧
    ∀ i, m.name ∈ N.names i → (field i).read kv.2 = .ok (fill i)

lemma find?_field (h : Recovers N field spells fill agrees) {i : ι} {name : String} (hname : name ∈ N.names i) :
    (N.all.map field).find? (fun f => f.keys.contains name) = some (field i) := by
  have hi : (N.all.find? fun j => (field j).keys.contains name) = some i := by
    cases hfind : N.all.find? fun j => (field j).keys.contains name with
    | none =>
      have hnot := List.find?_eq_none.1 hfind i (N.mem_all i)
      simp [h.mem_keys, hname] at hnot
    | some j =>
      have hj := List.find?_some hfind
      simp only [List.contains_iff_mem, h.mem_keys] at hj
      rw [N.eq_of_mem_names hj hname]
  rw [List.find?_map]
  exact congrArg (Option.map field) hi

lemma find?_other (h : Recovers N field spells fill agrees) {name : String} (hname : ∀ i, name ∉ N.names i) :
    (N.all.map field).find? (fun f => f.keys.contains name) = none := by
  rw [List.find?_eq_none]
  intro f hf
  obtain ⟨i, -, rfl⟩ := List.mem_map.1 hf
  simp [h.mem_keys, hname i]

/-- The members as the decoder is given them. -/
def decodedMembers (kvs : List (Key × Value)) : List (Decoded Text × Value) :=
  kvs.map fun (key, v) => (key.mapError .fault, v)

section Steps

variable {name : String} {v : Value} {kvs : List (Key × Value)} {seen : List String}

/-- A member that belongs to a field is put into the record. -/
lemma readMembers_field (h : Recovers N field spells fill agrees) {i : ι} (hname : name ∈ N.names i)
    (hnew : (field i).name ∉ seen) (hread : (field i).read v = .ok (fill i)) (r : R) :
    Source.readMembers (N.all.map field) none seen r (decodedMembers ((.ok name.toList, v) :: kvs)) =
      Source.readMembers (N.all.map field) none ((field i).name :: seen) (fill i r) (decodedMembers kvs) := by
  have hmember : decodedMembers ((.ok name.toList, v) :: kvs) = (.ok name.toList, v) :: decodedMembers kvs := rfl
  have hcontains : seen.contains (field i).name = false := by simpa using hnew
  rw [hmember]
  simp only [Source.readMembers, String.ofList_toList, find?_field h hname, hcontains, hread]
  rfl

/-- A member of another name is passed over. -/
lemma readMembers_other (h : Recovers N field spells fill agrees) (hname : ∀ i, name ∉ N.names i) (r : R) :
    Source.readMembers (N.all.map field) none seen r (decodedMembers ((.ok name.toList, v) :: kvs)) =
      Source.readMembers (N.all.map field) none seen r (decodedMembers kvs) := by
  have hmember : decodedMembers ((.ok name.toList, v) :: kvs) = (.ok name.toList, v) :: decodedMembers kvs := rfl
  rw [hmember]
  simp only [Source.readMembers, String.ofList_toList, find?_other h hname]

end Steps

/-- A field that is given in front is not given again. -/
lemma not_mem_names_of_once {m : Member} {members : List Member} {i : ι} (hi : m.name ∈ N.names i)
    (honce : (m :: members).countP (fun m => m.name ∈ N.names i) ≤ 1) : ∀ m' ∈ members, m'.name ∉ N.names i := by
  rw [List.countP_cons_of_pos (by simpa using hi)] at honce
  have hzero : members.countP (fun m => m.name ∈ N.names i) = 0 := by omega
  simpa using List.countP_eq_zero.1 hzero

/-- One member after the other is read. A field that agreed before agrees afterwards, and so does each one that is
given. -/
lemma exists_readMembers (h : Recovers N field spells fill agrees) {members : List Member} {kvs : List (Key × Value)}
    (hkvs : List.Forall₂ (MemberFills N field fill) members kvs)
    (honce : ∀ i, members.countP (fun m => m.name ∈ N.names i) ≤ 1) (seen : List String)
    (hseen : ∀ i, (field i).name ∈ seen → ∀ m ∈ members, m.name ∉ N.names i) (r : R) :
    ∃ seen' r', Source.readMembers (N.all.map field) none seen r (decodedMembers kvs) = .ok (seen', r') ∧
      (∀ i, agrees i r → agrees i r') ∧ (∀ name ∈ seen, name ∈ seen') ∧
      ∀ i, (∃ m ∈ members, m.name ∈ N.names i) → agrees i r' ∧ (field i).name ∈ seen' := by
  induction hkvs generalizing seen r with
  | nil => exact ⟨seen, r, rfl, fun _ hi => hi, fun _ hname => hname, fun _ ⟨m, hm, _⟩ => by simp at hm⟩
  | @cons m kv members kvs hm _ ih =>
    obtain ⟨key, v⟩ := kv
    obtain ⟨rfl, -, hfills⟩ := hm
    have honce' : ∀ i, members.countP (fun m => m.name ∈ N.names i) ≤ 1 := fun i =>
      Nat.le_trans (List.Sublist.countP_le (List.sublist_cons_self m members)) (honce i)
    have hseen' : ∀ i, (field i).name ∈ seen → ∀ m' ∈ members, m'.name ∉ N.names i := fun i hi m' hm' =>
      hseen i hi m' (List.mem_cons_of_mem m hm')
    by_cases hknown : ∃ i, m.name ∈ N.names i
    · obtain ⟨i, hi⟩ := hknown
      have hnew : (field i).name ∉ seen := fun hmem => hseen i hmem m (List.mem_cons_self ..) hi
      have hseen'' : ∀ j, (field j).name ∈ (field i).name :: seen → ∀ m' ∈ members, m'.name ∉ N.names j := by
        intro j hj
        rcases List.mem_cons.1 hj with heq | hj
        · rw [List.inj_on_of_nodup_map h.nodup_name (N.mem_all j) (N.mem_all i) heq]
          exact not_mem_names_of_once hi (honce i)
        · exact hseen' j hj
      obtain ⟨seen', r', hrest, hkeeps, hsub, hgiven⟩ := ih honce' _ hseen'' (fill i r)
      refine ⟨seen', r', ?_, fun j hj => hkeeps j (h.agrees_keep i j r hj),
        fun name hname => hsub name (List.mem_cons_of_mem _ hname), ?_⟩
      · rw [readMembers_field h hi hnew (hfills i hi), hrest]
      · rintro j ⟨m', hm', hj⟩
        rcases List.mem_cons.1 hm' with rfl | hm'
        · obtain rfl := N.eq_of_mem_names hi hj
          exact ⟨hkeeps i (h.agrees_fill i r), hsub _ (List.mem_cons_self ..)⟩
        · exact hgiven j ⟨m', hm', hj⟩
    · have hother : ∀ i, m.name ∉ N.names i := fun i hi => hknown ⟨i, hi⟩
      obtain ⟨seen', r', hrest, hkeeps, hsub, hgiven⟩ := ih honce' _ hseen' r
      refine ⟨seen', r', ?_, hkeeps, hsub, ?_⟩
      · rw [readMembers_other h hother, hrest]
      · rintro j ⟨m', hm', hj⟩
        rcases List.mem_cons.1 hm' with rfl | hm'
        · exact absurd hj (hother j)
        · exact hgiven j ⟨m', hm', hj⟩

/-- Every member of a record that is written is read, also those that belong to no field. -/
lemma exists_memberFills (h : Recovers N field spells fill agrees) {needed : ι → Prop} {members : List Member}
    {t : Text} (ht : IsRecord N needed spells members t) :
    ∃ kvs, List.Forall₂ (MemberFills N field fill) members kvs := by
  refine exists_forall₂ ?_
  intro m hm
  have hkey : Cuts m.key [.string (.ok m.name.toList) none] := fun rest _ => tokens_isString (ht.key m hm) rest
  by_cases hknown : ∃ i, m.name ∈ N.names i
  · obtain ⟨i, hi⟩ := hknown
    obtain ⟨v, hv, hread⟩ := h.read i m.value (ht.spelled m hm i hi)
    refine ⟨(.ok m.name.toList, v), rfl, ⟨hkey, hv⟩, ?_⟩
    intro j hj
    rwa [N.eq_of_mem_names hj hi]
  · have hother : ∀ i, m.name ∉ N.names i := fun i hi => hknown ⟨i, hi⟩
    obtain ⟨v, hv⟩ := exists_readAs (ht.other m hm hother)
    exact ⟨(.ok m.name.toList, v), rfl, ⟨hkey, hv⟩, fun i hi => absurd hi (hother i)⟩

lemma exists_recordOf_map (h : Recovers N field spells fill agrees) {needed : ι → Prop} {members : List Member}
    {t : Text} (ht : IsRecord N needed spells members t) (name : String) (default : R)
    (hdefault : ∀ i, needed i ∨ agrees i default) (hrequired : ∀ i, (field i).required = true → needed i) :
    ∃ v, ReadAs t v ∧ ∃ r, textSource.recordOf name (N.all.map field) default v = .ok r ∧ ∀ i, agrees i r := by
  obtain ⟨kvs, hkvs⟩ := exists_memberFills h ht
  obtain ⟨seen, r, hread, hkeeps, -, hgiven⟩ :=
    exists_readMembers h hkvs ht.once [] (by simp) default
  have hneeded : ∀ i, needed i → agrees i r ∧ (field i).name ∈ seen := fun i hi => hgiven i (ht.given i hi)
  refine ⟨.object kvs none, ?_, r, ?_, fun i => (hdefault i).elim (fun hi => (hneeded i hi).1) (hkeeps i)⟩
  · refine readAs_isObject ht.object (List.forall₂_map_left_iff.2 (hkvs.imp ?_))
    intro m kv hm
    exact hm.2.1
  · have hall : (N.all.map field).find? (fun f => f.required && !seen.contains f.name) = none := by
      rw [List.find?_eq_none]
      intro f hf
      obtain ⟨i, -, rfl⟩ := List.mem_map.1 hf
      simp only [Bool.and_eq_true, Bool.not_eq_true', not_and, Bool.not_eq_false, List.contains_iff_mem]
      exact fun hi => (hneeded i (hrequired i hi)).2
    have hrecord : textSource.record name ((N.all.map field).flatMap Field.keys) (.object kvs none) =
        .ok (.named ⟨decodedMembers kvs, none⟩) := rfl
    rw [Source.recordOf, hrecord]
    simp only [bind, Except.bind, hread, hall]

/-- A record that is written in any way is read, and the fields agree that are given or agree by default. -/
theorem exists_recordOf [DecidableEq ι] {fields : List (Field Value R)} {hlength : fields.length = N.all.length}
    (h : Recovers N (N.field fields hlength) spells fill agrees) {needed : ι → Prop} {members : List Member}
    {t : Text} (ht : IsRecord N needed spells members t) (name : String) (default : R)
    (hdefault : ∀ i, needed i ∨ agrees i default)
    (hrequired : ∀ i, (N.field fields hlength i).required = true → needed i) :
    ∃ v, ReadAs t v ∧ ∃ r, textSource.recordOf name fields default v = .ok r ∧ ∀ i, agrees i r := by
  have hrecord := exists_recordOf_map h ht name default hdefault hrequired
  rwa [N.map_field] at hrecord

end Fields

end MarkedMath.Json
