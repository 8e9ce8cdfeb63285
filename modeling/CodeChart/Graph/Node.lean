import CodeChart.Code.Piece

/-! Nodes and links of a chart. Nodes refer to each other by number, so a graph may be cyclic and
two nodes may share a link. A decision leads to its two answers over bridges, which have no box of
their own and only draw a line from their parent to their child. A group stands for the nodes from
its head to its tails. -/
namespace CodeChart.Graph

/-- A place that may hold nothing, a node or a link. -/
inductive Item where
  | nothing
  | node (index : Nat)
  | link (index : Nat)
  deriving DecidableEq, Repr, Inhabited

/-- What may be written on a line. An empty or missing label leaves no trace. -/
abbrev Label := Option String

structure Link where
  target : Item
  labels : List Label
  deriving DecidableEq, Repr, Inhabited

/-- The sign a walk leaves on the nodes it has visited. -/
inductive Mark where
  | named (id : String)
  | pass (number : Nat)
  deriving DecidableEq, Repr

inductive Shape where
  | blank
  | fragment
  | start
  | finish
  | operation
  | exchange
  | subroutine
  | functionStart
  | functionInput
  | functionEnd
  | statement
  | call
  | jump
  | yielded
  | returned
  | returnEnd
  deriving DecidableEq, Repr

inductive DecisionRole where
  | plain
  | test
  | loop
  | branch
  | case
  deriving DecidableEq, Repr

/-- What a group stands for, with the nodes that it keeps at hand. -/
inductive GroupRole where
  | plain
  | chart
  | suite
  | function (start input bodyHead : Item) (bodyTails : List Item) (finish : Item)
  | loop (test : Item)
  | branch (test : Item)
  | returning (output finish : Item)
  | case (test : Item)
  | selection (cases : List Item)
  deriving DecidableEq, Repr

inductive Form where
  | box (shape : Shape)
  | decision (role : DecisionRole) (yes no : Item)
  /-- `answer` marks the bridges of a decision. -/
  | bridge (answer : Bool) (parent child : Item) (labels : List Label) (link : Item)
  /-- `definitions` and `connections` hold the text of the last drawing. -/
  | group (role : GroupRole) (head : Item) (tails : List Item) (definitions connections : String)
  deriving DecidableEq, Repr

structure Node where
  form : Form
  id : Nat
  name : String := ""
  text : String := ""
  links : List Item := []
  params : List (String × String) := []
  direction : Label := none
  mark : Option Mark := none
  /-- The code that the node stands for. -/
  code : Option Code.Piece := none
  /-- Fields that have been taken away. -/
  absent : List String := []

instance : Inhabited Node := ⟨{ form := .box .blank, id := 0 }⟩

def Shape.kind : Shape → String
  | .blank => "Node"
  | .fragment => "AstNode"
  | .start => "StartNode"
  | .finish => "EndNode"
  | .operation => "OperationNode"
  | .exchange => "InputOutputNode"
  | .subroutine => "SubroutineNode"
  | .functionStart => "FunctionDefStart"
  | .functionInput => "FunctionDefArgsInput"
  | .functionEnd => "FunctionDefEnd"
  | .statement => "CommonOperation"
  | .call => "CallSubroutine"
  | .jump => "BreakContinueSubroutine"
  | .yielded => "YieldOutput"
  | .returned => "ReturnOutput"
  | .returnEnd => "ReturnEnd"

/-- The word for a shape in a chart. -/
def Shape.word : Shape → String
  | .blank | .fragment => "node"
  | .start | .functionStart => "start"
  | .finish | .functionEnd | .returnEnd => "end"
  | .operation | .statement => "operation"
  | .exchange | .functionInput | .yielded | .returned => "inputoutput"
  | .subroutine | .call | .jump => "subroutine"

def Shape.letters : Shape → String
  | .blank | .fragment => ""
  | .start | .functionStart => "st"
  | .finish | .functionEnd | .returnEnd => "e"
  | .operation | .statement => "op"
  | .exchange | .functionInput | .yielded | .returned => "io"
  | .subroutine | .call | .jump => "sub"

def Shape.nameOf (shape : Shape) (id : Nat) : String :=
  if shape.letters.isEmpty then "" else shape.letters ++ toString id

def DecisionRole.kind : DecisionRole → String
  | .plain => "ConditionNode"
  | .test => "AstConditionNode"
  | .loop => "LoopCondition"
  | .branch => "IfCondition"
  | .case => "MatchCaseCondition"

def GroupRole.kind : GroupRole → String
  | .plain => "NodesGroup"
  | .chart => "Flowchart"
  | .suite => "ParseProcessGraph"
  | .function .. => "FunctionDef"
  | .loop _ => "Loop"
  | .branch _ => "If"
  | .returning .. => "Return"
  | .case _ => "MatchCase"
  | .selection _ => "Match"

def Form.kind : Form → String
  | .box shape => shape.kind
  | .decision role .. => role.kind
  | .bridge answer .. => if answer then "CondYN" else "TransparentNode"
  | .group role .. => role.kind

/-- The word for a node in a chart. -/
def Form.word : Form → String
  | .box shape => shape.word
  | .decision .. => "condition"
  | .bridge .. => "node"
  | .group .. => "node"

def Form.isGroup : Form → Bool
  | .group .. => true
  | _ => false

def Form.isDecision : Form → Bool
  | .decision .. => true
  | _ => false

/-- Decisions of code draw no line themselves; their answers do. -/
def DecisionRole.drawsNothing : DecisionRole → Bool
  | .test | .loop | .branch => true
  | .plain | .case => false

def Node.kind (n : Node) : String := n.form.kind

def Node.isGroup (n : Node) : Bool := n.form.isGroup

/-- Sets a parameter, in its old place if it has one. Empty keys and values are passed over. -/
def Node.setParam (n : Node) (key value : String) : Node :=
  if key.isEmpty || value.isEmpty then n
  else if n.params.any (fun p => p.1 = key) then
    { n with params := n.params.map fun p => if p.1 = key then (key, value) else p }
  else { n with params := n.params ++ [(key, value)] }

end CodeChart.Graph
