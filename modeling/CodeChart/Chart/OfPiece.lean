import CodeChart.Chart.OfCode

/-! Constructs for any piece of code. A construct only looks at the parts that it needs, so it can
be asked of code that usually has another one. -/
namespace CodeChart.Chart

open CodeChart.Graph Code

inductive Construct where
  | fragment
  | test
  | functionStart
  | functionInput
  | functionEnd
  | function
  | loopTest
  | loop
  | branchTest
  | branch
  | statement
  | call
  | jump
  | yielded
  | returned
  | returnEnd
  | returning
  | caseTest
  | case
  | selection
  deriving DecidableEq, Repr

/-- The statements under a name. A piece of another kind than `own` has to have them. -/
def suiteOf (options : Options) (own : List String) (part : String) (code : Piece) :
    Action Nat := do
  match code.part? part with
  | some (.pieces ps) => ofPieces options ps
  | some (.piece p) =>
    let _ ← newGroup .suite .nothing []
    throw (.notIterable p.kind)
  | some _ =>
    let _ ← newGroup .suite .nothing []
    throw (.notIterable "NoneType")
  | none => throw (if own.contains code.kind then .noAttribute code.kind part else .unmet)

def isTruthy : Constant → Bool
  | .none => false
  | .bool b => b
  | .ellipsis => true
  | .int n => n ≠ 0
  | .float (.finite m _) => m ≠ 0
  | .imaginary (.finite m _) => m ≠ 0
  | .float .infinite => true
  | .imaginary .infinite => true
  | .text _ cs => !cs.isEmpty
  | .bytes bs => !bs.isEmpty

def valueOf (code : Piece) : Except Fault Bool :=
  match code.part? "value" with
  | some (.piece _) => pure true
  | some (.pieces ps) => pure (!ps.isEmpty)
  | some (.word w) => pure (w.any fun t => !t.isEmpty)
  | some (.constant c) => pure (isTruthy c)
  | some .nothing => pure false
  | none => throw (.noAttribute code.kind "value")

def bodyOfCase (code : Piece) : Action Nat := suiteOf {} ["match_case"] "body" code

def casesOf (code : Piece) : Except Fault (List (Action Nat)) :=
  match code.part? "subject", code.part? "cases" with
  | some (.piece subject), some (.pieces cs) =>
    pure (cs.map fun c => case subject c (bodyOfCase c))
  | _, _ => throw (.noAttribute code.kind "cases")

/-- A construct for code. Conditions of cases also need a subject. -/
def Construct.build (options : Options) (subject code : Piece) : Construct → Action Nat
  | .fragment => newBox .fragment "" (some code)
  | .test => Chart.test .test code
  | .functionStart => Chart.functionStart code
  | .functionInput => Chart.functionInput code
  | .functionEnd => Chart.functionEnd code
  | .function => Chart.function code (suiteOf options ["FunctionDef"] "body" code)
  | .loopTest => Chart.test .loop code
  | .loop => Chart.loop options code (suiteOf options ["For", "While"] "body" code)
  | .branchTest => Chart.test .branch code
  | .branch =>
    Chart.branch options code (suiteOf options ["If"] "body" code)
      (suiteOf options ["If"] "orelse" code)
  | .statement => Chart.statement code
  | .call => Chart.call code
  | .jump => Chart.jump code
  | .yielded => Chart.yielded code
  | .returned => Chart.returnOutput code
  | .returnEnd => Chart.returnEnd code
  | .returning => Chart.returning code (valueOf code)
  | .caseTest => Chart.caseTest subject code
  | .case => Chart.case subject code (bodyOfCase code)
  | .selection => Chart.selection code (casesOf code)

end CodeChart.Chart
