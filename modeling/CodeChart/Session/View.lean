import CodeChart.Graph.Drawing

/-! What a session shows of a graph: short tags that name nodes and links, and views of nodes with
all that they hold. -/
namespace CodeChart.Session

open CodeChart.Graph

/-- A short name: a node by its kind and number, a link by its target and labels. -/
inductive Tag where
  | nothing
  | node (kind : String) (id : Nat)
  | link (target : Tag) (labels : List Label)
  deriving Repr, Inhabited

/-- The tag of an item; at most `fuel` links that lead to links are followed. -/
def tagWithin (s : Store) : Nat → Item → Tag
  | _, .nothing => .nothing
  | _, .node i => .node (s.node i).kind (s.node i).id
  | 0, .link l => .link .nothing (s.link l).labels
  | fuel + 1, .link l => .link (tagWithin s fuel (s.link l).target) (s.link l).labels

def tag (s : Store) (item : Item) : Tag := tagWithin s (s.links.size + 1) item

structure View where
  tag : Tag
  name : String
  text : String
  word : String
  params : List (String × String)
  direction : Label
  links : List Tag
  /-- Head and tails of a group. -/
  ends : Option (Tag × List Tag)
  /-- Parent, child and labels of a bridge. -/
  span : Option (Tag × Tag × List Label)

inductive Value where
  | item (of : Item)
  | items (of : List Item)
  | label (of : Label)
  | labels (of : List Label)
  | text (of : String)
  | number (of : Nat)
  | truth (of : Bool)
  /-- Anything that is shown by its kind alone. -/
  | kind (of : String)

inductive Shown where
  | tag (of : Tag)
  | tags (of : List Tag)
  | label (of : Label)
  | labels (of : List Label)
  | text (of : String)
  | number (of : Nat)
  | truth (of : Bool)
  | kind (of : String)

def Value.show (s : Store) : Value → Shown
  | .item i => .tag (Session.tag s i)
  | .items is => .tags (is.map (Session.tag s))
  | .label l => .label l
  | .labels ls => .labels ls
  | .text t => .text t
  | .number n => .number n
  | .truth b => .truth b
  | .kind k => .kind k

def Value.kindName (s : Store) : Value → String
  | .item i => s.kindOf i
  | .items _ => "list"
  | .label (some _) => "str"
  | .label none => "NoneType"
  | .labels _ => "list"
  | .text _ => "str"
  | .number _ => "int"
  | .truth _ => "bool"
  | .kind k => k

def view (i : Nat) : Action View := do
  let links ← linksOf i
  let s ← get
  let n := s.node i
  return {
    tag := tag s (.node i)
    name := s.name i
    text := n.text
    word := n.form.word
    params := n.params
    direction := n.direction
    links := links.map (tag s)
    ends := match n.form with
      | .group _ head tails .. => some (tag s head, tails.map (tag s))
      | _ => none
    span := match n.form with
      | .bridge _ parent child labels _ => some (tag s parent, tag s child, labels)
      | _ => none }

def labelText : Label → String
  | some t => Text.quoted (Text.codePoints t)
  | none => "None"

/-- One line that describes an item; at most `fuel` links that lead to links are followed. -/
def describeWithin (s : Store) : Nat → Item → String
  | _, .nothing => "None"
  | _, .node i => "<Node(" ++ s.name i ++ "): " ++ (s.node i).text ++ ">"
  | 0, .link _ => "None"
  | fuel + 1, .link l =>
    "<Connection: to=" ++ describeWithin s fuel (s.link l).target ++ ", params=["
      ++ ", ".intercalate ((s.link l).labels.map labelText) ++ "]>"

def describe (s : Store) (item : Item) : String := describeWithin s (s.links.size + 1) item

end CodeChart.Session
