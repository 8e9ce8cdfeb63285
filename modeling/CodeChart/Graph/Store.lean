import CodeChart.Graph.Node

/-! The store of all nodes and links, and the actions on it. Numbers are given out from a counter of
their own: a node may take several numbers while it is made, and keeps the last. An action that
fails leaves the store as it is at that moment. -/
namespace CodeChart.Graph

structure Store where
  nodes : Array Node := #[]
  links : Array Link := #[]
  nextId : Nat := 0
  /-- The number of walks that have left a mark of their own. -/
  passes : Nat := 0
  /-- Messages, oldest first. -/
  printed : List String := []
  warnings : List String := []
  deriving Inhabited

abbrev Action := EStateM Fault Store

namespace Store

def node (s : Store) (i : Nat) : Node := s.nodes.getD i default

def link (s : Store) (l : Nat) : Link := s.links.getD l default

def kindOf (s : Store) : Item → String
  | .nothing => "NoneType"
  | .link _ => "Connection"
  | .node i => (s.node i).kind

/-- The name of a node: a group has the name of its head. At most `fuel` heads are followed. -/
def nameWithin (s : Store) : Nat → Nat → String
  | 0, _ => ""
  | fuel + 1, i =>
    match (s.node i).form with
    | .group _ (.node h) .. => s.nameWithin fuel h
    | .group .. => ""
    | _ => (s.node i).name

def name (s : Store) (i : Nat) : String := s.nameWithin (s.nodes.size + 1) i

end Store

def getNode (i : Nat) : Action Node := do return (← get).node i

def getLink (l : Nat) : Action Link := do return (← get).link l

def modifyNode (i : Nat) (f : Node → Node) : Action Unit :=
  modify fun s => { s with nodes := s.nodes.modify i f }

def modifyLink (l : Nat) (f : Link → Link) : Action Unit :=
  modify fun s => { s with links := s.links.modify l f }

def lacks (item : Item) (part : String) : Action α := do
  throw (.noAttribute ((← get).kindOf item) part)

def takeId : Action Nat :=
  modifyGet fun s => (s.nextId, { s with nextId := s.nextId + 1 })

def addNode (n : Node) : Action Nat :=
  modifyGet fun s => (s.nodes.size, { s with nodes := s.nodes.push n })

def addLink (target : Item) (labels : List Label) : Action Nat :=
  modifyGet fun s => (s.links.size, { s with links := s.links.push ⟨target, labels⟩ })

def print (message : String) : Action Unit :=
  modify fun s => { s with printed := s.printed ++ [message] }

def warn (message : String) : Action Unit :=
  modify fun s => { s with warnings := s.warnings ++ [message] }

def itemName (item : Item) : Action String := do
  match item with
  | .node i => return (← get).name i
  | other => lacks other "node_name"

def newBox (shape : Shape) (text : String) (code : Option Code.Piece := none) : Action Nat := do
  let id ← takeId
  addNode { form := .box shape, id, name := shape.nameOf id, text, code }

/-- A box for a piece of code, which takes a number before its text is known. -/
def newCodeBox (shape : Shape) (code : Code.Piece) (text : Except Fault String) : Action Nat := do
  let _ ← takeId
  newBox shape (← ofExcept text) (some code)

def newDecision (role : DecisionRole) (text : String) (code : Option Code.Piece := none) :
    Action Nat := do
  let id ← takeId
  addNode { form := .decision role .nothing .nothing, id, name := "cond"
    ++ toString id, text, code }

/-- A decision for a piece of code, which takes a number before its text is known. -/
def newCodeDecision (role : DecisionRole) (code : Code.Piece) (text : Except Fault String) :
    Action Nat := do
  let _ ← takeId
  newDecision role (← ofExcept text) (some code)

def newBridge (answer : Bool) (parent child : Item) (labels : List Label) : Action Nat := do
  let id ← takeId
  let l ← addLink child labels
  addNode { form := .bridge answer parent child labels (.link l), id }

/-- A group around a head, which has to have a name if it is there at all. -/
def newGroup (role : GroupRole) (head : Item) (tails : List Item)
    (code : Option Code.Piece := none) : Action Nat := do
  let id ← takeId
  let g ← addNode { form := .group role head tails "" "", id, code }
  if head ≠ .nothing then
    let _ ← itemName head
  return g

def present (i : Nat) (field : String) (value : α) : Action α := do
  if (← getNode i).absent.contains field then lacks (.node i) field else return value

/-- The links of a node in order; a bridge has the one that it draws. -/
def linksOf (i : Nat) : Action (List Item) := do
  let n ← getNode i
  match n.form with
  | .bridge _ _ _ _ link => present i "connections" [link]
  | _ => present i "connections" n.links

def appendLink (i : Nat) (item : Item) : Action Unit := do
  let _ ← linksOf i
  modifyNode i fun n => { n with links := n.links ++ [item] }

/-- Replaces the links of a node. A bridge takes the first, if there is one. -/
def replaceLinks (i : Nat) (items : List Item) : Action Unit :=
  modifyNode i fun n =>
    match n.form, items with
    | .bridge answer parent child labels _, first :: _ =>
      { n with form := .bridge answer parent child labels first }
    | .bridge .., [] => n
    | _, _ => { n with links := items, absent := n.absent.filter (· ≠ "connections") }

def yesOf (item : Item) : Action Item := do
  match item with
  | .node i =>
    match (← getNode i).form with
    | .decision _ yes _ => present i "connection_yes" yes
    | _ => lacks item "connection_yes"
  | _ => lacks item "connection_yes"

def noOf (item : Item) : Action Item := do
  match item with
  | .node i =>
    match (← getNode i).form with
    | .decision _ _ no => present i "connection_no" no
    | _ => lacks item "connection_no"
  | _ => lacks item "connection_no"

def Node.restore (n : Node) (field : String) : Node :=
  { n with absent := n.absent.filter (· ≠ field) }

def setYes (i : Nat) (item : Item) : Action Unit :=
  modifyNode i fun n =>
    match n.form with
    | .decision role _ no => { n.restore "connection_yes" with form := .decision role item no }
    | _ => n

def setNo (i : Nat) (item : Item) : Action Unit :=
  modifyNode i fun n =>
    match n.form with
    | .decision role yes _ => { n.restore "connection_no" with form := .decision role yes item }
    | _ => n

def setHead (i : Nat) (item : Item) : Action Unit :=
  modifyNode i fun n =>
    match n.form with
    | .group role _ tails d c => { n with form := .group role item tails d c }
    | _ => n

def setTails (i : Nat) (f : List Item → List Item) : Action Unit :=
  modifyNode i fun n =>
    match n.form with
    | .group role head tails d c => { n with form := .group role head (f tails) d c }
    | _ => n

def setRole (i : Nat) (f : GroupRole → GroupRole) : Action Unit :=
  modifyNode i fun n =>
    match n.form with
    | .group role head tails d c => { n with form := .group (f role) head tails d c }
    | _ => n

def setDirection (i : Nat) (direction : Label) : Action Unit :=
  modifyNode i fun n => { n with direction }

def setParam (i : Nat) (key value : String) : Action Unit :=
  modifyNode i fun n => n.setParam key value

/-- Keeps the node after a decision from being drawn in line with it. -/
def breakAlignment (item : Item) : Action Unit := do
  match item with
  | .node i =>
    if (← getNode i).form.isDecision then setParam i "align-next" "no"
    else lacks item "no_align_next"
  | _ => lacks item "no_align_next"

def groupEnds (i : Nat) : Action (Item × List Item) := do
  match (← getNode i).form with
  | .group _ head tails .. => return (head, tails)
  | _ => return (.nothing, [])

/-- Replaces the head of a group by one that has a name. -/
def moveHead (i : Nat) (item : Item) : Action Unit := do
  if item ≠ .nothing then
    setHead i item
    let _ ← itemName item

end CodeChart.Graph
