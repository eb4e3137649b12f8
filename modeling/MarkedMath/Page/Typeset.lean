import MarkedMath.Page.Host

/-!
# Typesetters of a page

A page may have loaded MathJax, which typesets the whole document and promises to be done some time, and
the extension of KaTeX that looks for delimiters, which is done when it returns.
-/

namespace MarkedMath.Page

/-- Looks for a global. -/
def findGlobal {ε : Type} (name : String) : PageStep ε (Option Value) := do
  let (found, p) := (← get).global? name
  set p
  return found

/-- A method of a value. -/
def method? (v : Value) (name : String) : Option (Text × Bool × Value) :=
  (v.property? name).bind Value.function?

/-- Calls a function of the page, which may throw. -/
def invoke (f : Text × Bool × Value) (this : Value) (arguments : List Value) :
    PageStep Value Value := do
  modify fun p => p.note (.call f.1 this arguments)
  if f.2.1 then throw f.2.2 else return f.2.2

/-- Delimiters as a value. -/
def delimitersValue (delimiters : List Delimiter) : Value :=
  .array (delimiters.map fun d =>
    .object [("display".toList, .bool d.display), ("left".toList, .string d.left.toList),
      ("right".toList, .string d.right.toList)])

/-- Asks MathJax to typeset the document and waits for its promise. -/
def renderMathJax : PageStep RenderError Unit := do
  let fail (reason : String) : RenderError := ⟨"MathJax", reason⟩
  let some mathJax ← findGlobal "MathJax" | throw (fail "not loaded")
  let some typeset := method? mathJax "typesetPromise" | throw (fail "typesetPromise is missing")
  match ← (invoke typeset mathJax []).adapt fun v => fail v.describe with
  | .promise index =>
    modify (log ⟨.info, "triggering MathJax rendering"⟩)
    modify fun p => { p with tasks := p.tasks ++ [.await index] }
  | _ => throw (fail "typesetPromise did not return a promise")

/-- MathJax. -/
def mathJax : Typesetter Page where
  kind := .tex
  name := "MathJax"
  available p :=
    let (found, p) := p.global? "MathJax"
    (found.any fun v => (method? v "typesetPromise").isSome, p)
  render _ := renderMathJax.on

/-- Asks KaTeX to typeset the body. -/
def renderKatex (delimiters : List Delimiter) : PageStep RenderError Unit := do
  let fail (reason : String) : RenderError := ⟨"KaTeX", reason⟩
  let some render := (← findGlobal "renderMathInElement").bind Value.function?
    | throw (fail "renderMathInElement is missing")
  let p ← get
  let some body := (if p.hasWindow && p.hasDocument then p.body? else none)
    | throw (fail "document has no body")
  modify (log ⟨.info, "triggering KaTeX rendering"⟩)
  let options := Value.object [("delimiters".toList, delimitersValue delimiters)]
  let _ ← (invoke render .null [.node body, options]).adapt fun v => fail v.describe
  modify (log ⟨.info, "KaTeX rendering complete"⟩)

/-- KaTeX. -/
def katex : Typesetter Page where
  kind := .delimiter
  name := "KaTeX"
  available p :=
    match p.global? "katex" with
    | (none, p) => (false, p)
    | (some _, p) =>
      let (found, p) := p.global? "renderMathInElement"
      (found.isSome, p)
  render delimiters := (renderKatex delimiters).on

/-! ## Promises -/

/-- Makes a promise, which may be settled already. Gives its number. -/
def promise (outcome : Option Settled) (p : Page) : Nat × Page :=
  (p.promises.length, { p with promises := p.promises ++ [{ outcome }] })

/-- Settles a promise that has no outcome yet. -/
def settlePromise (index : Nat) (outcome : Settled) (p : Page) : Page :=
  match p.promises[index]? with
  | some ⟨none, waiting⟩ =>
    { p with
      promises := p.promises.set index { outcome := some outcome }
      tasks := p.tasks ++ List.replicate waiting (.react outcome) }
  | _ => p

/-- A typesetting begins to wait for a promise. -/
def awaitPromise (index : Nat) (p : Page) : Page :=
  match p.promises[index]? with
  | some ⟨some outcome, _⟩ => { p with tasks := p.tasks ++ [.react outcome] }
  | some ⟨none, waiting⟩ => { p with promises := p.promises.set index { waiting := waiting + 1 } }
  | none => p

/-- Reports the end of a typesetting. -/
def reportTypeset (outcome : Settled) (p : Page) : Page :=
  match outcome with
  | .ok _ => p.log ⟨.info, "MathJax rendering complete"⟩
  | .error v => p.log ⟨.error, "MathJax error: " ++ v.describe⟩

end MarkedMath.Page
