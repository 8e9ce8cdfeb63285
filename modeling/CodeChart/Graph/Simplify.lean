import CodeChart.Graph.Connect
import CodeChart.Text.Blank

/-! Simplification. A loop, a branch without alternative or a case whose body is one plain node is
drawn as one operation, which says the body's text and the condition. The new node takes over the
name of the old head. -/
namespace CodeChart.Graph

/-- The node behind the answer `link`, if the answer leads over a bridge to a plain node. -/
def plainBody (link : Item) : Action (Option Nat) := do
  match link with
  | .link l =>
    match (← getLink l).target with
    | .node b =>
      match (← getNode b).form with
      | .bridge true _ (.node j) _ _ =>
        let form := (← getNode j).form
        return if form.isGroup || form.isDecision then none else some j
      | _ => return none
    | _ => return none
  | _ => return none

def nextOf (item : Item) : Action Item := do
  match item with
  | .link l => return (← getLink l).target
  | other => lacks other "next_node"

def orPrinted (test : Action Bool) : Action Bool :=
  tryCatch test fun f => do
    print (f.message ++ "\n")
    return false

/-- Whether a loop's body is one node that leads back to the loop and nowhere else. -/
def loopIsOneLine (i : Nat) : Action Bool := orPrinted do
  match ← plainBody (← yesOf (.node i)) with
  | none => return false
  | some j =>
    match ← linksOf j with
    | [back] => return (← nextOf back) == .node i
    | _ => return false

def bodyIsOneLine (yes : Item) : Action Bool := do
  match ← plainBody yes with
  | none => return false
  | some j => return (← linksOf j).isEmpty

def branchIsOneLine (i : Nat) : Action Bool := orPrinted do
  bodyIsOneLine (← yesOf (.node i))

def hasNoAlternative (i : Nat) : Action Bool := orPrinted do
  match ← noOf (.node i) with
  | .link l =>
    match (← getLink l).target with
    | .node b =>
      match (← getNode b).form with
      | .bridge true _ child _ _ => return child == .nothing
      | _ => return false
    | _ => return false
  | _ => return false

/-- Whether the test of a group has a body of one line, by the rule for its own role. -/
def isOneLine (test : Item) : Action Bool := do
  match test with
  | .node i =>
    match (← getNode i).form with
    | .decision .loop .. => loopIsOneLine i
    | .decision .branch .. => branchIsOneLine i
    | _ => lacks test "is_one_line_body"
  | _ => lacks test "is_one_line_body"

def isWithoutElse (test : Item) : Action Bool := do
  match test with
  | .node i =>
    match (← getNode i).form with
    | .decision .branch .. => hasNoAlternative i
    | _ => lacks test "is_no_else"
  | _ => lacks test "is_no_else"

/-- The text of a node on the answer `yes` and the text of the test. -/
def bodyAndTest (test : Item) : Action (String × String) := do
  match test with
  | .node i =>
    match ← plainBody (← yesOf test) with
    | some j => return ((← getNode j).text, (← getNode i).text)
    | none => throw .unmet
  | _ => throw .unmet

def replaceBy (g : Nat) (text ending : String) : Action Unit := do
  let op ← newBox .operation text
  let (head, _) ← groupEnds g
  let name ← itemName head
  modifyNode op fun n => { n with name := name ++ ending }
  setHead g (.node op)
  setTails g fun _ => [.node op]

def loopText (body test : String) : String :=
  body ++ " while " ++ Text.dropLeadingOf "while" (Text.dropLeadingOf "for" test)

def branchText (body test : String) : String :=
  body ++ " if " ++ Text.dropLeadingOf "if" test

def printMissing (act : Action Unit) : Action Unit :=
  tryCatch act fun
    | .noAttribute owner part => print ((Fault.noAttribute owner part).message ++ "\n")
    | f => throw f

def simplifyLoop (g : Nat) (test : Item) : Action Unit := printMissing do
  let test ← present g "cond_node" test
  if ← isOneLine test then
    let (body, condition) ← bodyAndTest test
    replaceBy g (loopText body condition) ""

def simplifyBranch (g : Nat) (test : Item) : Action Unit := printMissing do
  let test ← present g "cond_node" test
  if ← isWithoutElse test then
    if ← isOneLine test then
      let (body, condition) ← bodyAndTest test
      replaceBy g (branchText body condition) ""

def caseIsOneLine (g : Nat) (test : Item) : Action Bool := do
  let yes ← yesOf (← present g "cond_node" test)
  tryCatch (bodyIsOneLine yes) fun _ => return false

def simplifyCase (g : Nat) (test : Item) : Action Unit := do
  warn "MatchCase.simplify() is buggy, use it with caution."
  if ← caseIsOneLine g test then
    tryCatch
      (do
        let (body, condition) ← bodyAndTest test
        replaceBy g (body ++ " " ++ condition) "inline")
      fun f => warn ("MatchCase.simplify() failed: " ++ f.message)

/-- Simplifies the cases with a body of one line, up to the first that cannot be asked. -/
def simplifyCases (cases : List Item) : Action Unit :=
  cases.forM fun case => do
    match case with
    | .node g =>
      match (← getNode g).form with
      | .group (.case test) .. => if ← caseIsOneLine g test then simplifyCase g test
      | _ => lacks case "inlineable"
    | _ => lacks case "inlineable"

def simplifySelection (g : Nat) (cases : List Item) : Action Unit := do
  warn "Match.simplify() is buggy, use it with caution."
  tryCatch (do simplifyCases (← present g "cases" cases)) fun f =>
    warn ("Match.simplify() failed: " ++ f.message)

/-- Simplifies a group by the rule for its role. -/
def simplify (g : Nat) : Action Unit := do
  match (← getNode g).form with
  | .group (.loop test) .. => simplifyLoop g test
  | .group (.branch test) .. => simplifyBranch g test
  | .group (.case test) .. => simplifyCase g test
  | .group (.selection cases) .. => simplifySelection g cases
  | .group .. => pure ()
  | _ => lacks (.node g) "simplify"

/-- Keeps the node after a branch from being drawn in line with it. -/
def alignBranch (g : Nat) : Action Unit := do
  match (← getNode g).form with
  | .group (.branch test) .. => breakAlignment (← present g "cond_node" test)
  | _ => lacks (.node g) "align"

end CodeChart.Graph
