import CodeChart.Chart.OfPiece
import CodeChart.Chart.Source
import CodeChart.Code.Edit
import CodeChart.Session.Field

/-! Sessions: steps that make, connect, change and draw nodes, which are kept under names. A step
that fails keeps what it has changed so far, and the next steps still run. -/
namespace CodeChart.Session

open CodeChart.Graph Code

abbrev Ref := Option String

inductive Blueprint where
  | blank
  | start (name : String)
  | finish (name : String)
  | operation (text : String)
  | subroutine (text : String)
  | exchange (way text : String)
  | decision (text : String) (alignNext : Bool)
  | bridge (parent child : Ref) (labels : List Label)
  | answer (decision : Ref) (word : Label) (target : Ref)
  | group (head : Ref) (tails : List Ref)
  | chart (head : Ref)
  | link (target : Ref) (labels : List Label)

structure Excerpt where
  code : String
  path : List PathStep
  cleared : List (List PathStep) := []
  removed : List (List PathStep) := []

inductive Request where
  | definition
  | connections
  | chart
  | isOneLine
  | hasNoElse
  | isInlineable
  | simplify
  | align
  | source
  | condition
  | breakAlignment
  | paramNames
  | clearTexts
  | refresh
  | describe
  deriving DecidableEq, Repr

inductive Way where
  | plain
  | answer (of : Answer)
  deriving DecidableEq, Repr

inductive Step where
  | make (var : String) (of : Blueprint)
  | chartList (var : String) (of : Excerpt) (options : Chart.Options)
  | construct (var : String) (as : Chart.Construct) (of : Excerpt)
    (subject : Option (List PathStep))
      (options : Chart.Options)
  | chart (var : String) (of : Chart.Source)
  | read (node : String) (path : List PathStep) (var : Option String)
  | look (node : String)
  | ask (node : String) (request : Request)
  | connect (node : String) (way : Way) (target : Ref) (labels : List Label)
  | setDirection (node : String) (value : Label)
  | setParam (node key value : String)
  | addLabel (node : String) (value : Label)
  | setName (node value : String)
  | setText (node value : String)
  | setHead (node : String) (target : Ref)
  | appendTail (node : String) (target : Ref)
  | extendTails (node : String) (target : List Ref)
  | pushLink (node : String) (value : Ref)
  | setLinks (node : String) (value : List Ref)
  | setField (node field : String) (target : Ref)
  | setListField (node field : String) (target : List Ref)
  | removeField (node field : String)
  | lineFrom (node : String) (source : Ref)
  | walk (node : String) (mark : Option String) (stop : List Ref) (inner : Bool)

/-- The answer to a step: how its object looks afterwards, or a value. -/
inductive Reply where
  | node (of : View)
  | link (of : Tag)
  | value (of : Shown)

/-- The variables, newest first. -/
abbrev Variables := List (String × Item)

namespace Variables

def get (vars : Variables) (name : String) : Item := (vars.lookup name).getD .nothing

def resolve (vars : Variables) : Ref → Item
  | some name => get vars name
  | none => .nothing

end Variables

open Variables

def makeNode (vars : Variables) : Blueprint → Action Item
  | .blank => .node <$> newBox .blank ""
  | .start name => .node <$> newBox .start ("start " ++ name)
  | .finish name => .node <$> newBox .finish ("end " ++ name)
  | .operation text => .node <$> newBox .operation text
  | .subroutine text => .node <$> newBox .subroutine text
  | .exchange way text => .node <$> newBox .exchange (way ++ ": " ++ text)
  | .decision text alignNext => do
    let i ← newDecision .plain text
    if !alignNext then breakAlignment (.node i)
    return .node i
  | .bridge parent child labels =>
    .node <$> newBridge false (resolve vars parent) (resolve vars child) labels
  | .answer decision word target =>
    .node <$> newBridge true (resolve vars decision) (resolve vars target) [word]
  | .group head tails =>
    .node <$> newGroup .plain (resolve vars head) (tails.map (resolve vars))
  | .chart head => .node <$> Chart.newChart (resolve vars head)
  | .link target labels => .link <$> addLink (resolve vars target) labels

/-- The code of an excerpt after its changes. -/
def Excerpt.tree (e : Excerpt) : Except Fault Piece := do
  let m ← Module.parse e.code
  let cleared := e.cleared.foldl (fun p path => p.editAt Piece.clear path) (.module m)
  return e.removed.foldl (fun p path => p.editAt Piece.remove path) cleared

def partAt (tree : Piece) (path : List PathStep) : Except Fault Part :=
  (Part.piece tree).follow path

def chartExcerpt (e : Excerpt) (options : Chart.Options) : Action Nat := do
  let tree ← ofExcept e.tree
  match ← ofExcept (partAt tree e.path) with
  | .pieces ps => Chart.ofPieces options ps
  | .piece p =>
    let _ ← newGroup .suite .nothing []
    throw (.notIterable p.kind)
  | _ =>
    let _ ← newGroup .suite .nothing []
    throw (.notIterable "NoneType")

def constructExcerpt (as : Chart.Construct) (e : Excerpt) (subject : Option (List PathStep))
    (options : Chart.Options) : Action Nat := do
  let tree ← ofExcept e.tree
  let code ← ofExcept (partAt tree e.path)
  let on ← ofExcept (partAt tree (subject.getD []))
  as.build options (on.toList.headD default) (code.toList.headD default)

/-- The answer to a request, or nothing if there is none to give. -/
def askNode (i : Nat) (request : Request) : Action (Option Value) := do
  let item : Item := .node i
  let n ← getNode i
  match request with
  | .definition => return some (.text (← definitionText i))
  | .connections => return some (.text (← connectionText i))
  | .chart =>
    match n.form with
    | .group .chart .. => return some (.text (← chartText i))
    | _ => lacks item "flowchart"
  | .isOneLine => return some (.truth (← isOneLine item))
  | .hasNoElse => return some (.truth (← isWithoutElse item))
  | .isInlineable =>
    match n.form with
    | .group (.case test) .. => return some (.truth (← caseIsOneLine i test))
    | _ => lacks item "inlineable"
  | .simplify =>
    simplify i
    return none
  | .align =>
    alignBranch i
    return none
  | .source =>
    match n.code with
    | some code => return some (.text (← ofExcept code.text))
    | none => lacks item "ast_to_source"
  | .condition =>
    match n.form, n.code with
    | .decision .., some code => return some (.text (← ofExcept code.header))
    | _, _ => lacks item "cond_expr"
  | .breakAlignment =>
    breakAlignment item
    return none
  | .paramNames =>
    match n.form, n.code with
    | .box .functionInput, some code => return some (.text (← ofExcept (Chart.paramNames code)))
    | _, _ => lacks item "func_args_str"
  | .clearTexts =>
    if !n.isGroup then lacks item "_clean_fc"
    clearTexts i
    return none
  | .refresh =>
    if !n.isGroup then lacks item "_refresh_fc"
    refresh i
    return none
  | .describe => return some (.text (describe (← get) item))

def Request.name : Request → String
  | .definition => "fc_definition"
  | .connections => "fc_connection"
  | .chart => "flowchart"
  | .isOneLine => "is_one_line_body"
  | .hasNoElse => "is_no_else"
  | .isInlineable => "inlineable"
  | .simplify => "simplify"
  | .align => "align"
  | .source => "ast_to_source"
  | .condition => "cond_expr"
  | .breakAlignment => "no_align_next"
  | .paramNames => "func_args_str"
  | .clearTexts => "_clean_fc"
  | .refresh => "_refresh_fc"
  | .describe => "__repr__"

/-- The nodes that a walk visits. Nodes in `stop` end it; so do the tails of a group on a walk
inside the group, and these are not visited at all. -/
def walkFrom (item : Item) (mark : Option String) (stop : List Item) (inner : Bool) :
    Action (List Item) := do
  let (start, silent) ←
    if inner then
      match item with
      | .node i => if (← getNode i).isGroup then groupEnds i else lacks item "_inner_traverse"
      | _ => lacks item "_inner_traverse"
    else pure (item, [])
  let mark := mark.map Mark.named
  let go i := !silent.contains (.node i) && !stop.contains (.node i)
  let (order, _) := (← get).preorder mark go start
  walk mark go (fun _ => pure ()) start
  return (order.map Item.node).filter fun i => !silent.contains i

def lookAt (item : Item) : Action Reply := do
  match item with
  | .node i => return .node (← view i)
  | other => return .link (tag (← get) other)

def withNode (item : Item) (field : String) (act : Nat → Action α) : Action α :=
  match item with
  | .node i => act i
  | other => lacks other field

def withGroup (item : Item) (field : String) (act : Nat → Action α) : Action α :=
  withNode item field fun i => do
    if (← getNode i).isGroup then act i else lacks item field

def connectBy (i : Nat) (way : Way) (target : Item) (labels : List Label) : Action Unit := do
  match way with
  | .plain => connect i target labels
  | .answer a =>
    if (← getNode i).form.isDecision then
      let _ ← connectAnswer i a target (labels.headD (some ""))
    else lacks (.node i) ("connect_" ++ a.word)

def Way.name : Way → String
  | .plain => "connect"
  | .answer a => "connect_" ++ a.word

def change (item : Item) (act : Action Unit) : Action Reply := do
  act
  lookAt item

def keep (vars : Variables) (var : String) (item : Item) : Action (Variables × Reply) := do
  return ((var, item) :: vars, ← lookAt item)

/-- Runs one step. -/
def Step.run (vars : Variables) : Step → Action (Variables × Reply)
  | .make var blueprint => do keep vars var (← makeNode vars blueprint)
  | .chartList var e options => do keep vars var (.node (← chartExcerpt e options))
  | .construct var as e subject options => do
    keep vars var (.node (← constructExcerpt as e subject options))
  | .chart var source => do keep vars var (.node (← source.chart))
  | .read node path var => do
    let v ← follow (.item (vars.get node)) path
    let vars' :=
      match var, v with
      | some name, .item item => (name, item) :: vars
      | _, _ => vars
    return (vars', .value (v.show (← get)))
  | .look node => do return (vars, ← lookAt (vars.get node))
  | .ask node request => do
    let item := vars.get node
    let answer ←
      match item, request with
      | .link _, .describe => pure (some (.text (describe (← get) item)))
      | _, _ => withNode item request.name (askNode · request)
    match answer with
    | some v => return (vars, .value (v.show (← get)))
    | none => return (vars, ← lookAt item)
  | .connect node way target labels => do
    let item := vars.get node
    return (vars, ← change item
      (withNode item way.name fun i => connectBy i way (vars.resolve target) labels))
  | .setDirection node value => do
    let item := vars.get node
    return (vars, ← change item
      (withNode item "set_connect_direction" fun i => Graph.setDirection i value))
  | .setParam node key value => do
    let item := vars.get node
    return (vars, ← change item (withNode item "set_param" fun i => Graph.setParam i key value))
  | .addLabel node value => do
    let item := vars.get node
    match item with
    | .link l =>
      return (vars, ← change item
        (modifyLink l fun k => { k with labels := k.labels ++ [value] }))
    | _ => lacks item "set_param"
  | .setName node value => do
    let item := vars.get node
    return (vars, ← change item (withNode item "node_name" fun i =>
      modifyNode i fun n => if n.isGroup then n else { n with name := value }))
  | .setText node value => do
    let item := vars.get node
    return (vars, ← change item (withNode item "node_text" fun i =>
      modifyNode i fun n => { n with text := value }))
  | .setHead node target => do
    let item := vars.get node
    return (vars, ← change item
      (withGroup item "set_head" fun i => moveHead i (vars.resolve target)))
  | .appendTail node target => do
    let item := vars.get node
    return (vars, ← change item
      (withGroup item "append_tails" fun i => setTails i (· ++ [vars.resolve target])))
  | .extendTails node target => do
    let item := vars.get node
    return (vars, ← change item
      (withGroup item "extend_tails" fun i => setTails i (· ++ target.map (vars.resolve ·))))
  | .pushLink node value => do
    let item := vars.get node
    return (vars, ← change item
      (withNode item "connections" fun i => appendLink i (vars.resolve value)))
  | .setLinks node value => do
    let item := vars.get node
    return (vars, ← change item (withNode item "connections" fun i =>
      replaceLinks i (value.map (vars.resolve ·))))
  | .setField node field target => do
    let item := vars.get node
    return (vars, ← change item
      (withNode item field fun i => setItemField i field (vars.resolve target)))
  | .setListField node field target => do
    let item := vars.get node
    return (vars, ← change item (withNode item field fun i =>
      Session.setListField i field (target.map (vars.resolve ·))))
  | .removeField node field => do
    withNode (vars.get node) field fun i => Session.removeField i field
    return (vars, .value (.tag .nothing))
  | .lineFrom node source => do
    match vars.get node with
    | .link l => return (vars, .value (.text ((← get).linkLine (vars.resolve source) l)))
    | item => lacks item "fc_connection"
  | .walk node mark stop inner => do
    let seen ← walkFrom (vars.get node) mark (stop.map (vars.resolve ·)) inner
    return (vars, .value ((Value.items seen).show (← get)))

structure Outcome where
  result : Except Fault Reply
  printed : List String
  warnings : List String

def runSteps (store : Store) (vars : Variables) : List Step → List Outcome
  | [] => []
  | step :: rest =>
    let quiet := { store with printed := [], warnings := [] }
    match (step.run vars).run quiet with
    | .ok (vars', reply) s => ⟨.ok reply, s.printed, s.warnings⟩ :: runSteps s vars' rest
    | .error f s => ⟨.error f, s.printed, s.warnings⟩ :: runSteps s vars rest

def runSession (steps : List Step) : List Outcome := runSteps {} [] steps

end CodeChart.Session
