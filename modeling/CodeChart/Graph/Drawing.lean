import CodeChart.Graph.Walk

/-! The text of a chart: one line for each node, a blank line, and one line for each connection, in
the order of a walk from the head. Drawing a node's lines adds its direction to the labels of its
links; as repeated labels are shown once, a second drawing shows the same. -/
namespace CodeChart.Graph

def paramsText (params : List (String × String)) : String :=
  if params.isEmpty then ""
  else "(" ++ ",".intercalate (params.map fun p => p.1 ++ "=" ++ p.2) ++ ")"

/-- The line that defines a node; bridges have none. -/
def Node.definition (n : Node) : String :=
  match n.form with
  | .bridge .. => ""
  | form => n.name ++ paramsText n.params ++ "=>" ++ form.word ++ ": " ++ n.text ++ "\n"

/-- The labels that are shown: each non-empty one once, sorted by code point. -/
def shownLabels (labels : List Label) : List String :=
  ((labels.filterMap id).filter (fun l => !l.isEmpty)).eraseDups.mergeSort
    (fun a b => decide (a ≤ b))

def labelsText (labels : List Label) : String :=
  match shownLabels labels with
  | [] => ""
  | shown => "(" ++ ",".intercalate shown ++ ")"

namespace Store

/-- The line of a link from a source; links to nothing and to unnamed nodes have none. -/
def linkLine (s : Store) (source : Item) (l : Nat) : String :=
  match source, (s.link l).target with
  | .node i, .node j =>
    if (s.name j).isEmpty then ""
    else s.name i ++ labelsText (s.link l).labels ++ "->" ++ s.name j ++ "\n"
  | _, _ => ""

end Store

/-- Adds a node's direction to a link's labels and draws the line. -/
def drawLink (i : Nat) (item : Item) : Action String := do
  match item with
  | .link l =>
    let direction := (← getNode i).direction
    modifyLink l fun k => { k with labels := k.labels ++ [direction] }
    return (← get).linkLine (.node i) l
  | _ => return ""

/-- The lines of a node's connections, for a node that is no group. -/
def drawLinks (i : Nat) : Action String := do
  let n ← getNode i
  match n.form with
  | .bridge _ parent _ _ link =>
    match parent, link with
    | .node _, .link l => return (← get).linkLine parent l
    | _, _ => throw .unmet
  | .decision role .. =>
    if role.drawsNothing then return "" else return String.join (← (← linksOf i).mapM (drawLink i))
  | _ => return String.join (← (← linksOf i).mapM (drawLink i))

/-- Replaces the texts that a group keeps. -/
def modifyTexts (g : Nat) (f : String × String → String × String) : Action Unit :=
  modifyNode g fun n =>
    match n.form with
    | .group role head tails d c =>
      let (d', c') := f (d, c)
      { n with form := .group role head tails d' c' }
    | _ => n

def clearTexts (g : Nat) : Action Unit := modifyTexts g fun _ => ("", "")

/-- Adds a node's definition and then its connections to the texts of a group. -/
def addTexts (g i : Nat) : Action Unit := do
  let definition := (← getNode i).definition
  modifyTexts g fun (d, c) => (d ++ definition, c)
  let lines ← drawLinks i
  modifyTexts g fun (d, c) => (d, c ++ lines)

def refresh (g : Nat) : Action Unit := do
  clearTexts g
  walk (← freshMark) (fun _ => true) (addTexts g) (.node g)

def textsOf (g : Nat) : Action (String × String) := do
  match (← getNode g).form with
  | .group _ _ _ d c => return (d, c)
  | _ => return ("", "")

def definitionText (i : Nat) : Action String := do
  let n ← getNode i
  if n.isGroup then
    refresh i
    return (← textsOf i).1
  else return n.definition

/-- The connections of a node, or of all nodes of a group. -/
def connectionText (i : Nat) : Action String := do
  if (← getNode i).isGroup then
    refresh i
    return (← textsOf i).2
  else drawLinks i

/-- The whole chart of a group. -/
def chartText (g : Nat) : Action String := do
  let definitions ← definitionText g
  let connections ← connectionText g
  return definitions ++ "\n" ++ connections

end CodeChart.Graph
