import CodeChart.Graph.Store

/-! Connecting nodes. A plain node gets a further link. A bridge has one child: connecting it again
moves the child and keeps every label. A group passes the connection on to its tails. Jumps and
returns lead nowhere. -/
namespace CodeChart.Graph

inductive Answer where
  | yes | no
  deriving DecidableEq, Repr

def Answer.word : Answer → String
  | .yes => "yes"
  | .no => "no"

/-- Leads an answer of a decision to a node, over a bridge of its own, which is the result. -/
def connectAnswer (i : Nat) (answer : Answer) (target : Item) (direction : Label := some "") :
    Action Nat := do
  let b ← newBridge true (.node i) target [some answer.word]
  let l ← addLink (.node b) [some answer.word, direction]
  match answer with
  | .yes => setYes i (.link l)
  | .no => setNo i (.link l)
  appendLink i (.link l)
  return b

/-- The labels of a bridge after a connection: an answer repeats its old labels behind the new. -/
def bridgeLabels (answer : Bool) (old new : List Label) : List Label :=
  if answer then old ++ (new ++ old) else old ++ new

def connectBridge (i : Nat) (target : Item) (labels : List Label) : Action Unit := do
  match (← getNode i).form with
  | .bridge answer parent _ old _ =>
    let all := bridgeLabels answer old labels
    let l ← addLink target all
    modifyNode i fun n => { n with form := .bridge answer parent target all (.link l) }
  | _ => pure ()

/-- Whether a direction is given at all. -/
def isGiven (direction : Label) : Bool := direction.any fun d => !d.isEmpty

/-- Connects a node to a target; groups are followed at most `fuel` deep. -/
def connectWithin : Nat → Nat → Item → List Label → Action Unit
  | 0, _, _, _ => throw .endless
  | fuel + 1, i, target, labels => do
    let direction := labels.headD (some "")
    match (← getNode i).form with
    | .box .jump => pure ()
    | .group (.returning ..) .. => pure ()
    | .group _ _ tails .. =>
      tails.forM fun t =>
        match t with
        | .node j => connectWithin fuel j target [direction]
        | _ => pure ()
    | .bridge .. => connectBridge i target labels
    | .decision .loop .. =>
      if isGiven direction then setDirection i direction
      let _ ← connectAnswer i .no target
    | _ =>
      let l ← addLink target [direction]
      appendLink i (.link l)

/-- Connects a node to a target. Only bridges take more than one label. -/
def connect (i : Nat) (target : Item) (labels : List Label := []) : Action Unit := do
  connectWithin ((← get).nodes.size + 1) i target labels

def connectItem (source target : Item) : Action Unit := do
  match source with
  | .node i => connect i target
  | _ => pure ()

end CodeChart.Graph
