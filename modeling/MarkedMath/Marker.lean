import MarkedMath.Settings
import MarkedMath.Text

/-!
# Markers

A marker is a start token, a payload and an end token. The payload is an optional backslash, the
opening bracket of the kind, any characters but a line feed, an optional backslash and the closing
bracket. This module finds markers in a text.

`Rule.payload?` reads the marker at the head of a text, and `Rule.find?` finds the first one of a
text under the rule of the shortest run: where another start token stands between a start token and
its end token and opens a marker itself, the later one counts and the text before it is left alone.
-/

namespace MarkedMath

/-- The shape of the markers of one kind. -/
structure Rule where
  /-- The kind, which gives the brackets. -/
  kind : Kind
  /-- The token that opens a marker. -/
  start : Text
  /-- The token that closes a marker. -/
  stop : Text
  deriving DecidableEq, Repr

/-- A marker found in a text, with the text on both sides of it. -/
structure Found where
  /-- The text before the start token. -/
  before : Text
  /-- The text between the tokens, brackets included. -/
  payload : Text
  /-- The text after the end token. -/
  after : Text
  deriving DecidableEq, Repr

/-- A marker by its place in a text, in bytes. -/
structure Span where
  /-- The kind of the marker. -/
  kind : Kind
  /-- Where the start token begins. -/
  start : Nat
  /-- Where the end token is over. -/
  stop : Nat
  /-- The text between the tokens, brackets included. -/
  payload : Text
  deriving DecidableEq, Repr

namespace Rule

/-- Reads a payload from behind its opening bracket up to the first closing bracket that the end
token follows. Gives the characters read and the text after the end token; a line feed before that
bracket ends the search. -/
def close? (r : Rule) : Text → Option (Text × Text)
  | [] => none
  | c :: s =>
    match (if c = r.kind.closing then Text.afterToken? r.stop s else none) with
    | some rest => some ([c], rest)
    | none =>
      if c = '\n' then none
      else (r.close? s).map fun (payload, rest) => (c :: payload, rest)

/-- Reads a payload and the end token from behind a start token. -/
def body? (r : Rule) : Text → Option (Text × Text)
  | [] => none
  | c :: s =>
    if c = r.kind.opening then
      (r.close? s).map fun (payload, rest) => (c :: payload, rest)
    else if c = '\\' then
      match s with
      | [] => none
      | d :: s =>
        if d = r.kind.opening then
          (r.close? s).map fun (payload, rest) => (c :: d :: payload, rest)
        else none
    else none

/-- Reads the marker at the head of a text: its payload and the text after it. -/
def payload? (r : Rule) (s : Text) : Option (Text × Text) :=
  (Text.afterToken? r.start s).bind r.body?

/-- The marker that starts first. -/
def leftmost? (r : Rule) : Text → Option Found
  | [] => none
  | c :: s =>
    match r.payload? (c :: s) with
    | some (payload, after) => some ⟨[], payload, after⟩
    | none => (r.leftmost? s).map fun f => { f with before := c :: f.before }

/-- The marker that the last start token inside `outer` opens, and `outer` itself when none does. -/
def tighten (r : Rule) (outer : Found) : Found :=
  let inside := outer.payload ++ r.stop
  let later? (skipped : Nat) : Option Found :=
    (r.payload? (inside.drop skipped ++ outer.after)).map fun (payload, after) =>
      ⟨outer.before ++ r.start ++ inside.take skipped, payload, after⟩
  ((Text.occurrences r.start inside).reverse.findSome? later?).getD outer

/-- The first marker of a text, shortened to its last start token. -/
def find? (r : Rule) (s : Text) : Option Found :=
  (r.leftmost? s).map r.tighten

/-! ## A marker and its surroundings make up the text -/

/-- The marker as it is written: the payload between its two tokens. -/
def written (r : Rule) (payload : Text) : Text :=
  r.start ++ payload ++ r.stop

theorem eq_of_close? {r : Rule} {s payload rest : Text} (h : r.close? s = some (payload, rest)) :
    s = payload ++ r.stop ++ rest ∧ 0 < payload.length := by
  induction s generalizing payload with
  | nil => simp [close?] at h
  | cons c s ih =>
    unfold close? at h
    split at h
    · next found =>
      split at found
      · obtain ⟨rfl, rfl⟩ := by simpa using h
        simp [Text.afterToken?_eq_some_iff.1 found]
      · simp at found
    · split at h
      · simp at h
      · obtain ⟨⟨p, q⟩, hp, heq⟩ := Option.map_eq_some_iff.1 h
        obtain ⟨rfl, rfl⟩ := by simpa using heq
        simp [(ih hp).1]

theorem eq_of_body? {r : Rule} {s payload rest : Text} (h : r.body? s = some (payload, rest)) :
    s = payload ++ r.stop ++ rest ∧ 0 < payload.length := by
  unfold body? at h
  split at h
  · simp at h
  · split at h
    · obtain ⟨⟨p, q⟩, hp, heq⟩ := Option.map_eq_some_iff.1 h
      obtain ⟨rfl, rfl⟩ := by simpa using heq
      simp [(eq_of_close? hp).1]
    · split at h
      · split at h
        · simp at h
        · split at h
          · obtain ⟨⟨p, q⟩, hp, heq⟩ := Option.map_eq_some_iff.1 h
            obtain ⟨rfl, rfl⟩ := by simpa using heq
            simp [(eq_of_close? hp).1]
          · simp at h
      · simp at h

theorem eq_of_payload? {r : Rule} {s payload rest : Text}
    (h : r.payload? s = some (payload, rest)) :
    s = r.written payload ++ rest ∧ 0 < payload.length := by
  obtain ⟨s', hs, hb⟩ := Option.bind_eq_some_iff.1 h
  obtain ⟨rfl, hp⟩ := eq_of_body? hb
  simp [Text.afterToken?_eq_some_iff.1 hs, written, hp]

theorem eq_of_leftmost? {r : Rule} {s : Text} {f : Found} (h : r.leftmost? s = some f) :
    s = f.before ++ r.written f.payload ++ f.after ∧ 0 < f.payload.length := by
  induction s generalizing f with
  | nil => simp [leftmost?] at h
  | cons c s ih =>
    unfold leftmost? at h
    split at h
    · next hp =>
      obtain rfl := by simpa using h
      simpa using eq_of_payload? hp
    · obtain ⟨g, hg, rfl⟩ := Option.map_eq_some_iff.1 h
      simpa using ih hg

theorem eq_of_tighten {r : Rule} {outer : Found} (hp : 0 < outer.payload.length) :
    outer.before ++ r.written outer.payload ++ outer.after
      = (r.tighten outer).before ++ r.written (r.tighten outer).payload ++ (r.tighten outer).after
      ∧ 0 < (r.tighten outer).payload.length := by
  simp only [tighten]
  generalize hfound : List.findSome? _ (Text.occurrences r.start _).reverse = found
  cases found with
  | none => simpa using hp
  | some f =>
    obtain ⟨skipped, _, hs⟩ := List.exists_of_findSome?_eq_some hfound
    obtain ⟨⟨payload, after⟩, hm, rfl⟩ := Option.map_eq_some_iff.1 hs
    obtain ⟨heq, hlen⟩ := eq_of_payload? hm
    refine ⟨?_, hlen⟩
    have : outer.payload ++ (r.stop ++ outer.after)
        = List.take skipped (outer.payload ++ r.stop)
          ++ (List.drop skipped (outer.payload ++ r.stop) ++ outer.after) := by
      rw [← List.append_assoc (List.take _ _), List.take_append_drop, List.append_assoc]
    simp only [written, List.append_assoc, Option.getD_some, List.append_cancel_left_eq] at heq ⊢
    rw [this, heq]

/-- A marker that is found and the text on both sides of it are the text that was searched. -/
theorem eq_of_find? {r : Rule} {s : Text} {f : Found} (h : r.find? s = some f) :
    s = f.before ++ r.written f.payload ++ f.after ∧ 0 < f.payload.length := by
  obtain ⟨outer, ho, rfl⟩ := Option.map_eq_some_iff.1 h
  obtain ⟨rfl, hp⟩ := eq_of_leftmost? ho
  exact eq_of_tighten hp

theorem length_after_lt {r : Rule} {s : Text} {f : Found} (h : r.find? s = some f) :
    f.after.length < s.length := by
  obtain ⟨rfl, hp⟩ := eq_of_find? h
  simp [written]
  omega

/-! ## Markers by place -/

/-- The place of a marker whose text begins `offset` bytes into a larger one. -/
def spanOf (r : Rule) (offset : Nat) (f : Found) : Span :=
  let start := offset + Text.byteLength f.before
  ⟨r.kind, start, start + Text.byteLength (r.written f.payload), f.payload⟩

/-- The first marker that starts `offset` or more bytes into the text. -/
def findFrom? (r : Rule) (s : Text) (offset : Nat) : Option Span :=
  if Text.byteLength s < offset then none
  else
    let (skipped, rest) := Text.splitAtByte offset s
    (r.find? rest).map (r.spanOf (Text.byteLength skipped))

/-- The walk behind `spans`: the text begins `offset` bytes into the one that is searched. -/
def spansFrom (r : Rule) (offset : Nat) (s : Text) : List Span :=
  match h : r.find? s with
  | none => []
  | some f =>
    let span := r.spanOf offset f
    have : f.after.length < s.length := length_after_lt h
    span :: r.spansFrom span.stop f.after
termination_by s.length

/-- All markers of a text from left to right, each searched for after the end of the one before. -/
def spans (r : Rule) (s : Text) : List Span :=
  r.spansFrom 0 s

end Rule

end MarkedMath
