import CodeChart.Graph.Simplify

/-! Nodes and groups for the constructs of a program. Each construct is given its code and the
actions that build its parts, so that the parts are built where their numbers belong: the body of a
loop is built twice, and the second result is kept. -/
namespace CodeChart.Chart

open CodeChart.Graph Code

structure Options where
  /-- Draw bodies of one line together with their condition. -/
  simplify : Bool := true
  /-- Mark branches that follow each other. -/
  align : Bool := false
  deriving DecidableEq, Repr, Inhabited

/-- Whether a node stands for a branch. -/
def isBranch (i : Nat) : Action Bool := do
  match (← getNode i).form with
  | .group (.branch _) .. => return true
  | _ => return false

def join (options : Options) (last next : Nat) : Action Unit := do
  connect last (.node next)
  if options.align then
    if ← isBranch last then
      if ← isBranch next then alignBranch last

/-- Builds the statements after `last` in turn; the result is the last of all. -/
def chain (options : Options) (last : Nat) : List (Action Nat) → Action Nat
  | [] => return last
  | item :: rest => do
    let next ← item
    join options last next
    chain options next rest

/-- The group of a list of statements. An empty list has no head and an empty place as its tail. -/
def suite (options : Options) (items : List (Action Nat)) : Action Nat := do
  let g ← newGroup .suite .nothing []
  match items with
  | [] => setTails g (· ++ [.nothing])
  | item :: rest =>
    let first ← item
    let last ← chain options first rest
    moveHead g (.node first)
    setTails g (· ++ [.node last])
  return g

def codeBox (shape : Shape) (code : Piece) : Action Nat := newCodeBox shape code code.text

def statement (code : Piece) : Action Nat := codeBox .statement code

def call (code : Piece) : Action Nat := codeBox .call code

def jump (code : Piece) : Action Nat := codeBox .jump code

def outputText (content : String) : String := "output: " ++ content

def yielded (code : Piece) : Action Nat := newCodeBox .yielded code (outputText <$> code.text)

def nameOf (code : Piece) : Except Fault String :=
  match code.part? "name" with
  | some (.word (some name)) => pure name
  | some (.word none) => pure "None"
  | _ => throw (.noAttribute code.kind "name")

def paramNames (code : Piece) : Except Fault String :=
  match code.part? "args" with
  | some (.piece (.params ps)) =>
    if (ps.part? "args").isSome then pure (", ".intercalate (ps.ordinary.map (·.name)))
    else throw (.noAttribute "arguments" "args")
  | some _ => throw (.noAttribute "list" "args")
  | none => throw (if code.kind = "FunctionDef" then .noAttribute code.kind "args" else .unmet)

def functionStart (code : Piece) : Action Nat :=
  newCodeBox .functionStart code (("start " ++ ·) <$> nameOf code)

def functionInput (code : Piece) : Action Nat :=
  newCodeBox .functionInput code (("input: " ++ ·) <$> paramNames code)

def functionEnd (code : Piece) : Action Nat :=
  newCodeBox .functionEnd code (("end " ++ ·) <$> nameOf code)

def function (code : Piece) (body : Action Nat) : Action Nat := do
  let _ ← takeId
  let start ← functionStart code
  let input ← functionInput code
  let (head, tails) ← groupEnds (← body)
  let finish ← functionEnd code
  connect start (.node input)
  connect input head
  tails.forM (connectItem · (.node finish))
  newGroup (.function (.node start) (.node input) head tails (.node finish)) (.node start)
    [.node finish] (some code)

/-- A decision that shows the first line of its code. -/
def test (role : DecisionRole) (code : Piece) : Action Nat := newCodeDecision role code code.header

def loopBack (test : Nat) (tail : Item) : Action Unit := do
  match tail with
  | .node i =>
    setDirection i (some "left")
    connect i (.node test)
  | _ => pure ()

def loopBody (test : Nat) (body : Action Nat) : Action Unit := do
  let (head, _) ← groupEnds (← body)
  if head ≠ .nothing then
    let (head, tails) ← groupEnds (← body)
    let _ ← connectAnswer test .yes head
    tails.forM (loopBack test)
  else
    let idle ← newBox .subroutine "no-op"
    loopBack test (.node idle)
    let _ ← connectAnswer test .yes (.node idle)

/-- A loop: a test that leads to the body and back, and whose answer `no` is the way out. -/
def loop (options : Options) (code : Piece) (body : Action Nat) : Action Nat := do
  let _ ← takeId
  let t ← test .loop code
  let g ← newGroup (.loop (.node t)) (.node t) [] (some code)
  loopBody t body
  let out ← connectAnswer t .no .nothing
  setTails g (· ++ [.node out])
  if options.simplify then simplify g
  return g

/-- Leads an answer of a branch to its suite. The tails of the suite become tails of the branch; an
empty suite leaves the answer itself open. -/
def branchArm (g t : Nat) (answer : Answer) (suite : Action Nat) : Action Unit := do
  let (head, tails) ← groupEnds (← suite)
  if head ≠ .nothing then
    let _ ← connectAnswer t answer head
    setTails g (· ++ tails)
  else
    let out ← connectAnswer t answer .nothing
    setTails g (· ++ [.node out])

/-- Draws the answer `yes` of a branch without alternative to the right. -/
def turnRight (t : Nat) : Action Unit := do
  if ← isWithoutElse (.node t) then
    match ← yesOf (.node t) with
    | .link l => modifyLink l fun k => { k with labels := k.labels ++ [some "right"] }
    | other => lacks other "set_param"

/-- A branch with its two suites. -/
def branch (options : Options) (code : Piece) (body orelse : Action Nat) : Action Nat := do
  let _ ← takeId
  let t ← test .branch code
  let g ← newGroup (.branch (.node t)) (.node t) [] (some code)
  branchArm g t .yes body
  branchArm g t .no orelse
  if options.simplify then simplify g
  if options.align then turnRight t
  return g

def returnEnd (code : Piece) : Action Nat :=
  newCodeBox .returnEnd code (pure "end function return")

def returnOutput (code : Piece) : Action Nat :=
  newCodeBox .returned code ((outputText ∘ Text.dropLeadingOf "return") <$> code.text)

def returning (code : Piece) (hasValue : Except Fault Bool) : Action Nat := do
  let _ ← takeId
  let finish ← returnEnd code
  if ← ofExcept hasValue then
    let output ← returnOutput code
    connect output (.node finish)
    newGroup (.returning (.node output) (.node finish)) (.node output) [.node finish] (some code)
  else
    newGroup (.returning .nothing (.node finish)) (.node finish) [.node finish] (some code)

/-- The condition of a case: the subject, the pattern and the guard, if there is one. -/
def caseText (subject code : Piece) : Except Fault String := do
  let subjectText ← subject.text
  let patternText ←
    match code.part? "pattern" with
    | some (.piece p) => p.text
    | some _ => throw (.noAttribute "NoneType" "_fields")
    | none => throw (.noAttribute code.kind "pattern")
  let guardText ←
    match code.part? "guard" with
    | some (.piece p) => p.text
    | some _ => pure ""
    | none => throw (.noAttribute code.kind "guard")
  let guarded := if guardText.isEmpty then "" else " if " ++ guardText
  return "if " ++ subjectText ++ " match case " ++ patternText ++ guarded

def caseTest (subject code : Piece) : Action Nat := do
  newDecision .case (← ofExcept (caseText subject code))

/-- A case: a test that leads to the body, and a bridge as the way on. -/
def case (subject code : Piece) (body : Action Nat) : Action Nat := do
  let _ ← takeId
  let t ← caseTest subject code
  let g ← newGroup (.case (.node t)) (.node t) [] (some code)
  let (head, tails) ← groupEnds (← body)
  if head ≠ .nothing then
    let _ ← connectAnswer t .yes head
    setTails g (· ++ tails)
  let out ← newBridge false (.node t) .nothing [some "no"]
  let _ ← connectAnswer t .no (.node out)
  setTails g (· ++ [.node out])
  return g

/-- Builds the cases after `last` in turn; the result is the list of all. -/
def caseChain (last : Nat) : List (Action Nat) → Action (List Nat)
  | [] => return []
  | item :: rest => do
    let next ← item
    connect last (.node next)
    return next :: (← caseChain next rest)

/-- A selection: its cases in line, entered over a bridge that is then left out. -/
def selection (code : Piece) (cases : Except Fault (List (Action Nat))) : Action Nat := do
  let id ← takeId
  if (code.part? "subject").isNone then throw (.noAttribute code.kind "subject")
  let g ← addNode { form := .group (.selection []) .nothing [] "" "", id, code := some code }
  let entry ← newBridge false (.node g) .nothing []
  let id ← takeId
  modifyNode g fun n => { n with id }
  setHead g (.node entry)
  let built ← caseChain entry (← ofExcept cases)
  setRole g fun _ => .selection (built.map .node)
  match built.head?, built.getLast? with
  | some first, some last =>
    let (_, tails) ← groupEnds last
    setTails g (· ++ tails)
    setHead g (.node first)
    return g
  | _, _ => throw (.noAttribute "NoneType" "__dict__")

end CodeChart.Chart
