import CodeChart.Chart.OfCode
import CodeChart.Proofs.Flow

/-! The outline of code: the flow of each statement with the boxes that a chart shows for it. An
outline is defined by recursion on the code alone. Where a text cannot be given, the outline is the
first fault in the order of the code. -/
namespace CodeChart.Chart

open CodeChart.Graph Code

/-- What a chart shows of a node; a condition has no shape. -/
structure Box where
  shape : Option Shape
  text : String
  params : List (String × String) := []
  deriving DecidableEq, Repr

namespace Flow

variable {V W : Type}

/-- Whether a flow stands for a branch of the code. -/
def isBranch : Flow V → Bool
  | .branch .. => true
  | .merged isBranch _ => isBranch
  | _ => false

def isPlain : Flow V → Bool
  | .step _ | .jump _ => true
  | _ => false

/-- Marks the test of a branch, so that what follows is not drawn in line with it. -/
def align : Flow Box → Flow Box
  | .branch test body orelse =>
    .branch { test with params := [("align-next", "no")] } body orelse
  | t => t

/-- Marks every branch that another branch follows. -/
def alignAll : List (Flow Box) → List (Flow Box)
  | t :: u :: rest => (if t.isBranch && u.isBranch then t.align else t) :: alignAll (u :: rest)
  | ts => ts

@[simp] theorem isBranch_map (f : V → W) (t : Flow V) : (t.map f).isBranch = t.isBranch := by
  cases t <;> rfl

@[simp] theorem alignAll_length (ts : List (Flow Box)) : (alignAll ts).length = ts.length := by
  fun_induction alignAll ts with
  | case1 t u rest ih => simpa using ih
  | case2 ts _ => rfl

end Flow

/-- A list of statements as it is drawn. -/
def arrange (options : Options) (ts : List (Flow Box)) : List (Flow Box) :=
  if options.align then Flow.alignAll ts else ts

/-- The body of a loop: an empty one is drawn as a step that does nothing. -/
def orIdle : List (Flow Box) → List (Flow Box)
  | [] => [.step ⟨some .subroutine, "no-op", []⟩]
  | ts => ts

/-- A loop. With `simplify` a body of one step is drawn together with the test. -/
def loopFlow (options : Options) (test : Box) (body : List (Flow Box)) : Flow Box :=
  match options.simplify, body with
  | true, [.step b] => .merged false ⟨some .operation, loopText b.text test.text, []⟩
  | _, _ => .loop test body

/-- A branch. With `simplify` and without alternative, a body of one step is drawn together with
the test, as is one that begins with a jump. -/
def branchFlow (options : Options) (test : Box) (body orelse : List (Flow Box)) : Flow Box :=
  match options.simplify, body, orelse with
  | true, [.step b], [] => .merged true ⟨some .operation, branchText b.text test.text, []⟩
  | true, .jump b :: _, [] => .merged true ⟨some .operation, branchText b.text test.text, []⟩
  | _, _, _ => .branch test body orelse

def valueBox (code : Piece) : Expr → Except Fault Box
  | .yield _ => (fun text => ⟨some .yielded, outputText text, []⟩) <$> code.text
  | .call .. => (⟨some .call, ·, []⟩) <$> code.text
  | .lacking _ e => valueBox code e
  | _ => (⟨some .statement, ·, []⟩) <$> code.text

theorem valueBox_eq (code : Piece) (e : Expr) : ∃ shape ∈ [Shape.yielded, .call, .statement],
    ∃ wording : String → String, valueBox code e = (⟨some shape, wording ·, []⟩) <$> code.text := by
  fun_induction valueBox code e with
  | case1 => exact ⟨.yielded, by simp, outputText, rfl⟩
  | case2 => exact ⟨.call, by simp, id, rfl⟩
  | case3 part e ih => exact ih
  | case4 => exact ⟨.statement, by simp, id, rfl⟩

def statementBox (code : Piece) : Except Fault Box :=
  (⟨some .statement, ·, []⟩) <$> code.text

mutual

/-- The outline of a statement with the given code; `missing` names parts that were taken away. -/
def outline (options : Options) (code : Piece) (missing : List String) :
    Stmt → Except Fault (Flow Box)
  | .function false _ _ _ body _ _ => do
    let name ← nameOf code
    let input ← paramNames code
    let body ← if missing.contains "body" then throw (.noAttribute code.kind "body")
      else outlines options body
    return .routine ⟨some .functionStart, "start " ++ name, []⟩
      ⟨some .functionInput, "input: " ++ input, []⟩ (arrange options body)
      ⟨some .functionEnd, "end " ++ name, []⟩
  | .forEach false _ _ body _ => do
    let test ← code.header
    let body ← outlines options body
    return loopFlow options ⟨none, test, []⟩ (orIdle (arrange options body))
  | .whileTrue _ body _ => do
    let test ← code.header
    let body ← outlines options body
    return loopFlow options ⟨none, test, []⟩ (orIdle (arrange options body))
  | .branch _ body orelse => do
    let test ← code.header
    let body ← outlines options body
    let orelse ← outlines options orelse
    return branchFlow options ⟨none, test, []⟩ (arrange options body) (arrange options orelse)
  | .giveBack none => pure (.halt none ⟨some .returnEnd, "end function return", []⟩)
  | .giveBack (some _) => do
    let text ← code.text
    return .halt (some ⟨some .returned, outputText (Text.dropLeadingOf "return" text), []⟩)
      ⟨some .returnEnd, "end function return", []⟩
  | .select subject cases => do
    if (code.part? "subject").isNone then throw (.noAttribute code.kind "subject")
    if missing.contains "cases" then throw (.noAttribute code.kind "cases")
    match ← outlineCases (.expr subject) cases with
    | first :: rest => return .select first rest
    | [] => throw (.noAttribute "NoneType" "__dict__")
  | .stop => (fun text => .jump ⟨some .jump, text, []⟩) <$> code.text
  | .next => (fun text => .jump ⟨some .jump, text, []⟩) <$> code.text
  | .expr value =>
    .step <$> if missing.contains "value" then statementBox code else valueBox code value
  | .lacking part s => outline options code (part :: missing) s
  | _ => .step <$> statementBox code

def outlines (options : Options) : List Stmt → Except Fault (List (Flow Box))
  | [] => pure []
  | s :: rest => do
    let t ← outline options (.stmt s) [] s
    let ts ← outlines options rest
    return t :: ts

/-- The outline of a case. Its body is drawn with the usual options. -/
def outlineCase (subject code : Piece) (missing : List String) : Case → Except Fault (Flow Box)
  | .mk _ _ body => do
    let test ← caseText subject code
    let body ← if missing.contains "body" then throw (.noAttribute code.kind "body")
      else outlines {} body
    return .case ⟨none, test, []⟩ body
  | .lacking part c => outlineCase subject code (part :: missing) c

def outlineCases (subject : Piece) : List Case → Except Fault (List (Flow Box))
  | [] => pure []
  | c :: rest => do
    let t ← outlineCase subject (.case c) [] c
    let ts ← outlineCases subject rest
    return t :: ts

end

def outlinePiece (options : Options) : Piece → Except Fault (Flow Box)
  | .stmt s => outline options (.stmt s) [] s
  | .expr e => .step <$> valueBox (.expr e) e
  | code => .step <$> statementBox code

def outlinePieces (options : Options) : List Piece → Except Fault (List (Flow Box))
  | [] => pure []
  | p :: rest => do
    let t ← outlinePiece options p
    let ts ← outlinePieces options rest
    return t :: ts

end CodeChart.Chart
