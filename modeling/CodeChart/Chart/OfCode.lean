import CodeChart.Chart.Construct
import CodeChart.Code.Parser.Statement

/-! From code to nodes. Functions, loops, branches, jumps, returns and selections have constructs of
their own, as have calls and yields that stand alone; every other statement is one operation. -/
namespace CodeChart.Chart

open CodeChart.Graph Code

def ofValue (code : Piece) : Expr → Action Nat
  | .yield _ => yielded code
  | .call .. => call code
  | .lacking _ e => ofValue code e
  | _ => statement code

def unlessMissing (missing : List String) (code : Piece) (part : String) (act : Action α) :
    Action α :=
  if missing.contains part then throw (.noAttribute code.kind part) else act

mutual

/-- The nodes of a statement with the given code; `missing` names parts that were taken away. -/
def ofStmt (options : Options) (code : Piece) (missing : List String) : Stmt → Action Nat
  | .function false _ _ _ body _ _ =>
    function code (unlessMissing missing code "body" (suite options (ofStmts options body)))
  | .forEach false _ _ body _ => loop options code (suite options (ofStmts options body))
  | .whileTrue _ body _ => loop options code (suite options (ofStmts options body))
  | .branch _ body orelse =>
    branch options code (suite options (ofStmts options body))
      (suite options (ofStmts options orelse))
  | .giveBack value => returning code (pure value.isSome)
  | .select subject cases =>
    selection code
      (if missing.contains "cases" then throw (.noAttribute code.kind "cases")
      else pure (ofCases (.expr subject) cases))
  | .stop => jump code
  | .next => jump code
  | .expr value => if missing.contains "value" then statement code else ofValue code value
  | .lacking part s => ofStmt options code (part :: missing) s
  | _ => statement code

def ofStmts (options : Options) : List Stmt → List (Action Nat)
  | [] => []
  | s :: rest => ofStmt options (.stmt s) [] s :: ofStmts options rest

/-- The nodes of a case with the given code. Its body is built with the usual options. -/
def ofCase (subject code : Piece) (missing : List String) : Case → Action Nat
  | .mk _ _ body =>
    case subject code (unlessMissing missing code "body" (suite {} (ofStmts {} body)))
  | .lacking part c => ofCase subject code (part :: missing) c

def ofCases (subject : Piece) : List Case → List (Action Nat)
  | [] => []
  | c :: rest => ofCase subject (.case c) [] c :: ofCases subject rest

end

def ofPiece (options : Options) : Piece → Action Nat
  | .stmt s => ofStmt options (.stmt s) [] s
  | .expr e => ofValue (.expr e) e
  | code => statement code

/-- The group of a list of pieces. -/
def ofPieces (options : Options) (pieces : List Piece) : Action Nat :=
  suite options (pieces.map (ofPiece options))

def newChart (head : Item) : Action Nat := newGroup .chart head []

end CodeChart.Chart
