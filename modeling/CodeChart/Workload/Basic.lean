import CodeChart.Chart.Source
import CodeChart.CommandLine.Program
import CodeChart.Session.Field
import CodeChart.Workload.Sources

/-! Workloads for measurements. A workload of some size is prepared once and then run any number of
times; a run answers with a number that shows what has been done, mostly a number of lines. Node
numbers go on counting through preparation and all runs. -/
namespace CodeChart.Workload

open CodeChart.Graph Chart

def lineCount (text : String) : Nat := text.toList.count '\n'

def total (acts : List (Action Nat)) : Action Nat := do
  return (← acts.mapM id).foldl (· + ·) 0

/-- The sum of the answers of an action that is done several times. -/
def repeated (times : Nat) (act : Action Nat) : Action Nat := total (List.replicate times act)

def drawnLines (chart : Nat) : Action Nat := do return lineCount (← chartText chart)

def sourceLines (source : Source) : Action Nat := do return lineCount (← source.draw)

def functions (n : Nat) : Action (Action Nat) :=
  return repeated 8 (sourceLines { code := functionsSource n })

/-- Charts of plain statements. -/
def body (n : Nat) : Action (Action Nat) := do
  let m ← ofExcept (Code.Module.parse (flatSource n))
  return repeated 4 do drawnLines (← chartOf {} (m.body.map .stmt))

/-- The nodes that lead into a place of a graph, and the nodes that lead out of it. -/
structure Stage where
  entry : Nat
  exits : List Nat

/-- Every fifth stage is a decision with two ways, all others are one node. -/
def stage (i : Nat) : Action Stage := do
  let k := toString i
  match i % 5 with
  | 0 =>
    let test ← newDecision .plain ("cond_" ++ k)
    let left ← newBox .operation ("left_" ++ k)
    let right ← newBox .operation ("right_" ++ k)
    let _ ← connectAnswer test .yes (.node left)
    let _ ← connectAnswer test .no (.node right)
    return ⟨test, [left, right]⟩
  | 1 =>
    let op ← newBox .operation ("op_" ++ k)
    return ⟨op, [op]⟩
  | 2 =>
    let sub ← newBox .subroutine ("sub_" ++ k)
    return ⟨sub, [sub]⟩
  | 3 =>
    let read ← newBox .exchange ("input: in_" ++ k)
    return ⟨read, [read]⟩
  | _ =>
    let written ← newBox .exchange ("output: out_" ++ k)
    return ⟨written, [written]⟩

def connectStages : List Stage → Action Unit
  | a :: b :: rest => do
    a.exits.forM (connect · (.node b.entry))
    connectStages (b :: rest)
  | _ => pure ()

def rendering (n : Nat) : Action (Action Nat) := do
  let start ← newBox .start "start graph"
  let stages ← (List.range n).mapM stage
  let finish ← newBox .finish "end graph"
  connectStages (⟨start, [start]⟩ :: stages ++ [⟨finish, [finish]⟩])
  let chart ← newChart (.node start)
  return drawnLines chart

/-- Charts of branches in a row that are to be aligned. -/
def alignment (n : Nat) : Action (Action Nat) :=
  return repeated 10 (sourceLines { code := branchSource n, options := { align := true } })

/-- The first case of a selection and its test, once the case has been simplified. -/
def firstCase (selection : Nat) : Action (Nat × Nat) := do
  match (← getNode selection).form with
  | .group (.selection (.node case :: _)) .. =>
    simplify case
    match (← getNode case).form with
    | .group (.case (.node test)) .. => return (case, test)
    | _ => lacks (.node case) "cond_node"
  | _ => throw .indexOutOfRange

/-- Simplifies a selection and its first case, then takes the way into the case away and asks about
it. Each thing that succeeds counts one; the question does not. -/
def caseRound (m : Code.Module) : Action Nat := do
  let (head, _) ← groupEnds (← ofPieces {} ((m.body.flatMap Code.Stmt.body).map .stmt))
  match head with
  | .node selection =>
    simplify selection
    let (case, test) ← firstCase selection
    Session.removeField test "connection_yes"
    tryCatch
      (do
        let _ ← caseIsOneLine case (.node test)
        return 3)
      fun _ => return 2
  | other => lacks other "simplify"

def cases (n : Nat) : Action (Action Nat) := do
  let m ← ofExcept (Code.Module.parse (matchSource n))
  return total [
    repeated 8 (sourceLines { code := matchSource n }),
    tryCatch (caseRound m) fun _ => return 0]

/-- A node of each kind in line; counts their definitions and connections. -/
def primitiveRound (i : Nat) : Action Nat := do
  let k := toString i
  let start ← newBox .start ("start " ++ k)
  let op ← newBox .operation ("op_" ++ k)
  let sub ← newBox .subroutine ("sub_" ++ k)
  let io ← newBox .exchange ("output: io_" ++ k)
  let test ← newDecision .plain ("cond_" ++ k)
  let finish ← newBox .finish ("end " ++ k)
  breakAlignment (.node test)
  connectInLine [start, op, sub, io, test]
  let _ ← connectAnswer test .yes (.node finish)
  let nodes := [start, op, sub, io, test, finish]
  let definitions ← nodes.mapM definitionText
  let connections ← nodes.mapM connectionText
  return lineCount (String.join (definitions ++ connections))

def primitives (n : Nat) : Action (Action Nat) :=
  return total ((List.range n).map primitiveRound)

/-- A loop, a branch with an alternative, and a branch that can be simplified. -/
def internalSources : List Source := [
  { code := "for j in c:\n    x = x + j\n", options := { simplify := false } },
  { code := "if a:\n    x = 1\nelse:\n    x = 2\n" },
  { code := "if a:\n    x = 1\n" }]

def internals (n : Nat) : Action (Action Nat) :=
  return repeated n (total (internalSources.map sourceLines))

def pageSize (field name chart : String) : Nat :=
  (Page.text (Page.title (.ofText field) (.ofText name)).shown chart).utf8ByteSize

def pages (n : Nat) : Action (Action Nat) := do
  let chart ← chartText (← lineChart "page" "op" n)
  return pure (pageSize "TitleField" "out_a.html" chart + pageSize "" "out_b.html" chart)

def padding (n : Nat) : Action (Action Nat) := do
  let chart ← linearChain (2 * n)
  return repeated 5 (drawnLines chart)

def program (n : Nat) : Action (Action Nat) := do
  let rest ← padding n
  let bytes := Text.utf8 (flatSource n)
  return total [
    do return pageSize "" "cli.html" (← ({} : CommandLine.Settings).draw .byMark bytes),
    rest]

def settingsOf (events : List CommandLine.Event) : CommandLine.Settings :=
  events.foldl (fun s e =>
    match e with
    | .field value => { s with field := value }
    | .inner => { s with inner := true }
    | .output value => { s with output := value }
    | .noSimplify => { s with simplify := false }
    | .align => { s with align := true }
    | _ => s) {}

def arguments (n : Nat) : Action (Action Nat) := do
  let rest ← padding n
  let bytes := Text.utf8 (flatSource n)
  return do
    let words := ["code", "-i", "--conds-align"].map Text.Raw.ofText
    let _ ← (settingsOf (CommandLine.eventsOf words)).draw .byMark bytes
    rest

/-- The fields of all methods, and once more the first of the last class. -/
def methodFields (n : Nat) : Except Fault (List String) := do
  let classes := (List.range n).map fun i => "K_" ++ toString i
  match classes.getLast? with
  | none => throw .indexOutOfRange
  | some last =>
    let all := classes.flatMap fun c => (List.range 4).map fun j => c ++ ".m_" ++ toString j
    return all ++ [last ++ ".m_0"]

def fields (n : Nat) : Action (Action Nat) := do
  let names ← ofExcept (methodFields n)
  let m ← ofExcept (Code.Module.parse (classesSource n))
  return total (names.map fun field => do
    drawnLines (← chartOf {} (← ofExcept (fieldPieces m field true))))

inductive Kind where
  | functions
  | body
  | rendering
  | alignment
  | cases
  | primitives
  | internals
  | pages
  | program
  | arguments
  | fields
  deriving DecidableEq, Repr

def Kind.prepare : Kind → Nat → Action (Action Nat)
  | .functions => Workload.functions
  | .body => Workload.body
  | .rendering => Workload.rendering
  | .alignment => Workload.alignment
  | .cases => Workload.cases
  | .primitives => Workload.primitives
  | .internals => Workload.internals
  | .pages => Workload.pages
  | .program => Workload.program
  | .arguments => Workload.arguments
  | .fields => Workload.fields

def Kind.measure (kind : Kind) (n runs : Nat) : Action (List Nat) := do
  let run ← kind.prepare n
  (List.replicate runs run).mapM id

end CodeChart.Workload
