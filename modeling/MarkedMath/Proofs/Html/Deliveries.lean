import MarkedMath.Proofs.Html.Portions

/-!
# Texts that come in one after the other

Texts that count as data come in one after the other, each in any chunks, and chunks of other texts come in
between. What is written for each text is what it becomes as a whole, numbered on from the texts before it, and
nothing is held when it has ended (`Conversion.takeEach_eq`). The step is `Conversion.takeAll_of_cuts`, so all
that is shown here is that what comes in next finds no text open.
-/

namespace MarkedMath.Html

/-- What comes in while no text is open. -/
inductive Delivery where
  /-- A text that counts as data, in its last chunk and any earlier ones. -/
  | text (earlier : List Text) (last : Text)
  /-- A chunk of a text that does not count as data. -/
  | other (c : Chunk) (hmode : c.mode ≠ .data)

namespace Delivery

/-- The chunks that come in. -/
def chunks : Delivery → List Chunk
  | text earlier last => earlier.map (fun content => ⟨.data, content, false⟩) ++ [⟨.data, last, true⟩]
  | other c _ => [c]

/-- All characters that come in. -/
def content : Delivery → Text
  | text earlier last => earlier.flatten ++ last
  | other c _ => c.content

/-- The same characters, where a text that counts as data comes in a single chunk. -/
def whole : Delivery → Delivery
  | text earlier last => text [] (earlier.flatten ++ last)
  | other c hmode => other c hmode

/-- What is to be written and the counts behind it: a text that counts as data has its segments rendered when
it is cut into segments, and stays as it is otherwise. Other chunks stay as they are. -/
def rendered (g : Grammar) (layout : Layout) (counts : Counts) (d : Delivery) : Text × Counts :=
  match d with
  | text .. =>
    match g.segment? counts d.content with
    | some (segments, after) => (layout.render segments, after)
    | none => (d.content, counts)
  | other c _ => (c.content, counts)

end Delivery

section Deliveries

variable (g : Grammar) (layout : Layout)

/-- What is written for each delivery, with what is kept behind it. -/
def Conversion.takeEach (k : Conversion) : List Delivery → List (Text × Conversion)
  | [] => []
  | d :: rest =>
    let (written, after) := k.takeAll g layout d.chunks
    (written, after) :: after.takeEach rest

/-- What is to be written for each delivery, where nothing but the counts is kept behind it: no part of a text
and no number of chunks. -/
def renderEach (counts : Counts) : List Delivery → List (Text × Conversion)
  | [] => []
  | d :: rest =>
    let (written, after) := d.rendered g layout counts
    (written, { counts := after }) :: renderEach after rest

variable {g layout}

lemma Delivery.cuts_text (earlier : List Text) (last : Text) :
    Chunk.Cuts .data (earlier.flatten ++ last) (text earlier last).chunks := by
  induction earlier with
  | nil => exact .last last
  | cons content earlier ih =>
    rw [List.flatten_cons, List.append_assoc]
    exact .part content ih

@[simp] lemma Delivery.rendered_whole (counts : Counts) (d : Delivery) :
    d.whole.rendered g layout counts = d.rendered g layout counts := by
  cases d <;> rfl

/-- Behind each delivery no text is open. -/
lemma Conversion.takeAll_chunks (counts : Counts) (d : Delivery) :
    ({ counts } : Conversion).takeAll g layout d.chunks =
      ((d.rendered g layout counts).1, { counts := (d.rendered g layout counts).2 }) := by
  cases d with
  | text earlier last =>
    rw [takeAll_of_cuts (Delivery.cuts_text earlier last) _ (fun _ => rfl), if_pos rfl]
    rfl
  | other c hmode => simp [Delivery.chunks, takeAll, take, hmode, Delivery.rendered]

lemma Conversion.takeAll_append (k : Conversion) (cs rest : List Chunk) :
    k.takeAll g layout (cs ++ rest) =
      ((k.takeAll g layout cs).1 ++ ((k.takeAll g layout cs).2.takeAll g layout rest).1,
        ((k.takeAll g layout cs).2.takeAll g layout rest).2) := by
  induction cs generalizing k with
  | nil => rfl
  | cons c cs ih => simp only [List.cons_append, takeAll, ih, List.append_assoc]

lemma Conversion.takeEach_eq_renderEach (counts : Counts) (ds : List Delivery) :
    ({ counts } : Conversion).takeEach g layout ds = renderEach g layout counts ds := by
  induction ds generalizing counts with
  | nil => rfl
  | cons d ds ih => simp only [takeEach, renderEach, takeAll_chunks, ih]

lemma renderEach_whole (counts : Counts) (ds : List Delivery) :
    renderEach g layout counts (ds.map Delivery.whole) = renderEach g layout counts ds := by
  induction ds generalizing counts with
  | nil => rfl
  | cons d ds ih => simp only [List.map_cons, renderEach, Delivery.rendered_whole, ih]

/-- What is written for all deliveries, and what is kept behind the last one. -/
lemma Conversion.takeAll_flatMap_chunks (k : Conversion) (ds : List Delivery) :
    k.takeAll g layout (ds.flatMap Delivery.chunks) =
      ((k.takeEach g layout ds).flatMap Prod.fst,
        (((k.takeEach g layout ds).getLast?.map Prod.snd).getD k)) := by
  induction ds generalizing k with
  | nil => rfl
  | cons d ds ih =>
    rw [List.flatMap_cons, takeAll_append, ih, takeEach, List.flatMap_cons, List.getLast?_cons]
    cases (takeEach g layout (k.takeAll g layout d.chunks).2 ds).getLast? <;> rfl

/-- **The chunks make no difference.** However the texts are cut into chunks, and whatever chunks of other texts
come in between: what is written for each text is what it becomes as a whole, other chunks are written as they
are, and behind each of them nothing but the counts is kept. So all is as it is for the texts in single chunks,
for each of them and for the whole stream of chunks. -/
theorem Conversion.takeEach_eq (g : Grammar) (layout : Layout) (counts : Counts) (ds : List Delivery) :
    ({ counts } : Conversion).takeEach g layout ds = renderEach g layout counts ds ∧
      ({ counts } : Conversion).takeEach g layout ds =
        ({ counts } : Conversion).takeEach g layout (ds.map Delivery.whole) ∧
      ({ counts } : Conversion).takeAll g layout (ds.flatMap Delivery.chunks) =
        ({ counts } : Conversion).takeAll g layout ((ds.map Delivery.whole).flatMap Delivery.chunks) ∧
      ({ counts } : Conversion).takeAll g layout (ds.flatMap Delivery.chunks) =
        ((renderEach g layout counts ds).flatMap Prod.fst,
          ((renderEach g layout counts ds).getLast?.map Prod.snd).getD { counts }) := by
  have hwhole : ({ counts } : Conversion).takeEach g layout (ds.map Delivery.whole) =
      ({ counts } : Conversion).takeEach g layout ds := by
    rw [takeEach_eq_renderEach, takeEach_eq_renderEach, renderEach_whole]
  refine ⟨takeEach_eq_renderEach counts ds, hwhole.symm, ?_, ?_⟩
  · rw [takeAll_flatMap_chunks, takeAll_flatMap_chunks, hwhole]
  · rw [takeAll_flatMap_chunks, takeEach_eq_renderEach]

end Deliveries

end MarkedMath.Html
