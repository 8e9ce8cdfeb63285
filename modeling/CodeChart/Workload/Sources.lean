import CodeChart.Graph.Connect
import CodeChart.Chart.OfCode

/-! Code and graphs of any size, for measurements. -/
namespace CodeChart.Workload

open CodeChart.Graph

def functionSource (i : Nat) : String := String.join [
  "def func_", toString i, "(a, b, c):\n",
  "    x = a + b\n",
  "    helper(x)\n",
  "    yield x\n",
  "    for j in c:\n",
  "        x = x + j\n",
  "    if a > 0:\n",
  "        x = x + 1\n",
  "    else:\n",
  "        x = x - 1\n",
  "    while b:\n",
  "        b = b - 1\n",
  "    y = x * 2\n",
  "    emit(y)\n"]

def functionsSource (n : Nat) : String := String.join ((List.range n).map functionSource)

def flatSource (n : Nat) : String :=
  String.join ((List.range n).map fun i =>
    let k := toString i
    String.join ["x_", k, " = ", k, "\ncall_", k, "()\n"])

/-- A selection with `n` guarded cases, one with a body of two lines, and a last one. -/
def matchSource (n : Nat) : String :=
  let guarded (i : Nat) :=
    let k := toString i
    String.join ["        case ", k, " if other > ", k, ":\n            handle_", k, "()\n"]
  String.join ["def matcher(subj, other):\n    match subj:\n",
    String.join ((List.range n).map guarded),
    "        case ['a', *rest]:\n            tail(rest)\n            more(rest)\n",
    "        case _:\n            fallback()\n",
    "    done()\n"]

def branchSource (n : Nat) : String :=
  let branch (i : Nat) :=
    let k := toString i
    String.join ["if a_", k, " > ", k, ":\n    x = x + ", k, "\n    note(", k, ")\n"]
  String.join ["x = 0\n", String.join ((List.range n).map branch), "finish(x)\n"]

def classSource (i : Nat) : String :=
  let method (j : Nat) :=
    String.join ["    def m_", toString j, "(self):\n",
      String.join ((List.range 6).map fun k => String.join ["        v_", toString k, " = self\n"])]
  String.join ["class K_", toString i, ":\n", String.join ((List.range 4).map method)]

def classesSource (n : Nat) : String := String.join ((List.range n).map classSource)

/-- Connects a node to the next of a list, and so on to the end of it. -/
def connectInLine : List Nat → Action Unit
  | a :: b :: rest => do
    connect a (.node b)
    connectInLine (b :: rest)
  | _ => pure ()

/-- A chart of `n` operations in line between a start and an end. -/
def lineChart (name stem : String) (n : Nat) : Action Nat := do
  let start ← newBox .start ("start " ++ name)
  let steps ← (List.range n).mapM fun i => newBox .operation (stem ++ "_" ++ toString i)
  let finish ← newBox .finish ("end " ++ name)
  connectInLine (start :: steps ++ [finish])
  Chart.newChart (.node start)

def linearChain (n : Nat) : Action Nat := lineChart "pad" "p" n

end CodeChart.Workload
