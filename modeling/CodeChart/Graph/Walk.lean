import CodeChart.Graph.Store

/-! Walks through a graph, depth first. A walk enters a group at its head, visits a node once,
and goes on along the node's links in order if the visit says so. The order of a walk depends on
the graph alone, so it is listed first; visits then act on the listed nodes one after the other. -/
namespace CodeChart.Graph

namespace Store

/-- The node at which a walk enters; at most `fuel` heads are followed. -/
def entryWithin (s : Store) : Nat → Item → Except Fault Nat
  | 0, _ => throw .endless
  | fuel + 1, .node i =>
    match (s.node i).form with
    | .group _ head .. => s.entryWithin fuel head
    | _ => pure i
  | _, item => throw (.noAttribute (s.kindOf item) "_traverse")

def entry (s : Store) (item : Item) : Except Fault Nat := s.entryWithin (s.nodes.size + 2) item

def target? (s : Store) : Item → Option Item
  | .link l =>
    match (s.link l).target with
    | .node j => some (.node j)
    | _ => none
  | _ => none

def successors (s : Store) (i : Nat) : Except Fault (List Item) :=
  let n := s.node i
  if n.absent.contains "connections" then throw (.noAttribute n.kind "connections")
  else
    match n.form with
    | .bridge _ _ _ _ link => pure ([link].filterMap s.target?)
    | _ => pure (n.links.filterMap s.target?)

def unseen (s : Store) (seen : List Nat) : Nat :=
  (List.range s.nodes.size).countP fun i => !seen.contains i

theorem unseen_cons_lt (s : Store) {seen : List Nat} {i : Nat} (hi : i < s.nodes.size)
    (hs : seen.contains i = false) : s.unseen (i :: seen) < s.unseen seen := by
  unfold unseen
  rw [List.countP_eq_length_filter, List.countP_eq_length_filter]
  have hsub : (List.range s.nodes.size).filter (fun j => !(i :: seen).contains j)
      = ((List.range s.nodes.size).filter fun j => !seen.contains j).filter
        (fun j => !(j == i)) := by
    rw [List.filter_filter]
    congr 1
    funext j
    by_cases h : j = i <;> simp [h]
  rw [hsub]
  refine List.length_filter_lt_length_iff_exists.2 ⟨i, ?_, by simp⟩
  simp only [List.mem_filter, List.mem_range]
  exact ⟨hi, by simp only [hs, Bool.not_false]⟩

/-- The nodes of a walk in the order of their visits, and the fault that ends it, if any. The walk
goes on beyond a node if `go` says so. -/
def preorderFrom (s : Store) (go : Nat → Bool) (seen : List Nat) (stack : List Item) :
    List Nat × Option Fault :=
  match stack with
  | [] => ([], none)
  | item :: rest =>
    match s.entry item with
    | .error f => ([], some f)
    | .ok i =>
      if _h : i < s.nodes.size ∧ seen.contains i = false then
        if go i then
          match s.successors i with
          | .error f => ([i], some f)
          | .ok next =>
            let (order, f) := s.preorderFrom go (i :: seen) (next ++ rest)
            (i :: order, f)
        else
          let (order, f) := s.preorderFrom go (i :: seen) rest
          (i :: order, f)
      else s.preorderFrom go seen rest
termination_by (s.unseen seen, stack.length)
decreasing_by
  · exact Prod.Lex.left _ _ (s.unseen_cons_lt _h.1 _h.2)
  · exact Prod.Lex.left _ _ (s.unseen_cons_lt _h.1 _h.2)
  · exact Prod.Lex.right _ (by simp)

def marked (s : Store) (mark : Option Mark) : List Nat :=
  (List.range s.nodes.size).filter fun i => (s.node i).mark = mark

/-- The visits of a walk that leaves `mark`: nodes that carry it are passed over. -/
def preorder (s : Store) (mark : Option Mark) (go : Nat → Bool) (start : Item) :
    List Nat × Option Fault :=
  s.preorderFrom go (s.marked mark) [start]

end Store

def setMark (i : Nat) (mark : Option Mark) : Action Unit :=
  modifyNode i fun n => { n with mark }

/-- Walks from a place, marks each node and then visits it. -/
def walk (mark : Option Mark) (go : Nat → Bool) (visit : Nat → Action Unit) (start : Item) :
    Action Unit := do
  let (order, fault) := (← get).preorder mark go start
  order.forM fun i => do
    setMark i mark
    visit i
  match fault with
  | some f => throw f
  | none => pure ()

def freshMark : Action (Option Mark) :=
  modifyGet fun s => (some (.pass s.passes), { s with passes := s.passes + 1 })

end CodeChart.Graph
