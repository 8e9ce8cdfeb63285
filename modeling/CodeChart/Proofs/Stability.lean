import CodeChart.Proofs.Rendering
import Mathlib.Data.List.Forall2

/-! Repeated drawing. Requests to the groups of a store may follow each other in any order: groups
may share nodes and stand inside each other, and each request leaves marks, kept texts and labels
behind. Yet every answer is a function of the store before the first request, since drawings change
nothing else and a label that is there already is not shown again. -/
namespace CodeChart.Graph

inductive Request where
  | definitions
  | connections
  | chart
  deriving DecidableEq, Repr

structure Call where
  request : Request
  group : Nat
  deriving DecidableEq, Repr

def Call.run (c : Call) : Action String :=
  match c.request with
  | .definitions => definitionText c.group
  | .connections => connectionText c.group
  | .chart => chartText c.group

/-- What a request shows of a drawing. -/
def Request.shown (d : Drawing) : Request → String
  | .definitions => definitionsText d.nodes
  | .connections => linesText d.lines
  | .chart => d.text

/-- The answer to a call, as the store has it. -/
def Call.answer (s : Store) (c : Call) : String :=
  c.request.shown (s.sheet (s.preorderFrom (fun _ => true) [] [.node c.group]).1)

variable {σ τ : Store}

theorem exists_of_target? {item next : Item} (h : σ.target? item = some next) :
    ∃ j, next = .node j := by
  unfold Store.target? at h
  split at h
  · split at h
    · cases h
      exact ⟨_, rfl⟩
    · cases h
  · cases h

theorem nodes_of_successors {i : Nat} {next : List Item} (h : σ.successors i = .ok next) :
    ∀ item ∈ next, ∃ j, item = .node j := by
  intro item hitem
  have hbehind : ∃ items : List Item, next = items.filterMap σ.target? := by
    unfold Store.successors at h
    dsimp only at h
    split at h
    · cases h
    · split at h
      · cases h
        exact ⟨_, rfl⟩
      · cases h
        exact ⟨_, rfl⟩
  obtain ⟨items, rfl⟩ := hbehind
  obtain ⟨source, -, htarget⟩ := List.mem_filterMap.1 hitem
  exact exists_of_target? htarget

/-- A walk ends without a fault where all chains of heads end and all nodes have their links. -/
theorem preorderFrom_faultless (hwhole : ∀ i, (σ.node i).absent.contains "connections" = false)
    (hheads : ∀ i, ∃ j, HeadsTo σ (.node i) j) (go : Nat → Bool) (seen : List Nat)
    (stack : List Item) (hstack : ∀ item ∈ stack, ∃ i, item = .node i) :
    (σ.preorderFrom go seen stack).2 = none := by
  fun_induction Store.preorderFrom σ go seen stack with
  | case1 seen => rfl
  | case2 seen item rest f he =>
    obtain ⟨i, rfl⟩ := hstack item List.mem_cons_self
    obtain ⟨j, hj⟩ := hheads i
    rw [hj.entry] at he
    cases he
  | case3 seen item rest i he hi hgo f hs =>
    rw [successors_eq (hwhole i)] at hs
    cases hs
  | case4 seen item rest i he hi hgo next hs order f ho ih =>
    rw [ho] at ih
    refine ih fun item hitem => ?_
    rcases List.mem_append.1 hitem with hitem | hitem
    · exact nodes_of_successors hs item hitem
    · exact hstack item (List.mem_cons_of_mem _ hitem)
  | case5 seen item rest i he hi hgo order f ho ih =>
    rw [ho] at ih
    exact ih fun item hitem => hstack item (List.mem_cons_of_mem _ hitem)
  | case6 seen item rest i he hi ih =>
    exact ih fun item hitem => hstack item (List.mem_cons_of_mem _ hitem)

section

variable (hs : σ.Drawable) (hheads : ∀ i, ∃ j, HeadsTo σ (.node i) j)
include hs hheads

/-- In a store that has been drawn before, a call answers what the first store has. -/
theorem Call.run_redrawn (h : Redrawn σ τ) (c : Call) (hg : (σ.node c.group).isGroup = true) :
    ∃ υ, c.run τ = .ok (c.answer σ) υ ∧ Redrawn τ υ := by
  cases ho : σ.preorderFrom (fun _ => true) [] [.node c.group] with
  | mk order fault =>
  obtain rfl : fault = none := by
    have hnone :=
      preorderFrom_faultless hs.whole hheads (fun _ => true) [] [.node c.group] (by simp)
    rw [ho] at hnone
    exact hnone
  unfold Call.run Call.answer
  rw [ho]
  cases c.request with
  | definitions =>
    obtain ⟨υ, hυ, hrun⟩ := Redrawn.definitionText_run hs h hg ho
    exact ⟨υ, hrun, hυ.toRedrawn⟩
  | connections =>
    obtain ⟨υ, hυ, hrun⟩ := Redrawn.connectionText_run hs h hg ho
    exact ⟨υ, hrun, hυ.toRedrawn⟩
  | chart =>
    obtain ⟨υ, hυ, hrun⟩ := Redrawn.chartText_sheet hs h hg ho
    exact ⟨υ, hrun, hυ.toRedrawn⟩

theorem calls_run (calls : List Call) (hgroups : ∀ c ∈ calls, (σ.node c.group).isGroup = true)
    (h : Redrawn σ τ) :
    ∃ υ, calls.mapM Call.run τ = .ok (calls.map (Call.answer σ)) υ ∧ Redrawn τ υ := by
  induction calls generalizing τ with
  | nil => exact ⟨τ, rfl, .refl τ⟩
  | cons c rest ih =>
    obtain ⟨τ', hrun, hτ'⟩ := c.run_redrawn hs hheads h (hgroups c List.mem_cons_self)
    obtain ⟨υ, hrest, hυ⟩ := ih (fun c hc => hgroups c (List.mem_cons_of_mem _ hc)) (h.trans hτ')
    refine ⟨υ, ?_, hτ'.trans hυ⟩
    rw [List.mapM_cons, bind_ok hrun, bind_ok hrest]
    rfl

end

/-- Calls may be repeated and interleaved: each answers what it would answer if it were the first,
and all of them together change nothing but marks, kept texts and labels, which only grow by
directions of the nodes that draw them. -/
theorem calls_stable (σ : Store) (hσ : σ.Drawable) (hheads : ∀ i, ∃ j, HeadsTo σ (.node i) j)
    (calls : List Call) (hgroups : ∀ c ∈ calls, (σ.node c.group).isGroup = true) :
    ∃ texts τ, calls.mapM Call.run σ = .ok texts τ ∧
      List.Forall₂ (fun c text => ∃ υ, c.run σ = .ok text υ) calls texts ∧ Redrawn σ τ := by
  obtain ⟨τ, hrun, hτ⟩ := calls_run hσ hheads calls hgroups (.refl σ)
  refine ⟨_, τ, hrun, ?_, hτ⟩
  rw [List.forall₂_map_right_iff, List.forall₂_same]
  intro c hc
  obtain ⟨υ, hfirst, -⟩ := c.run_redrawn hσ hheads (.refl σ) (hgroups c hc)
  exact ⟨υ, hfirst⟩

/-- Two operations in a circle that leads through a group, with a chart around that group and a
chart around the second operation. The first operation leaves to the left. -/
def overlapping : Store where
  nodes := #[
    { form := .box .operation, id := 0, name := "op0", text := "a", links := [.link 0],
      direction := some "left" },
    { form := .box .operation, id := 1, name := "op1", text := "b", links := [.link 1] },
    { form := .group .plain (.node 0) [.node 1] "" "", id := 2 },
    { form := .group .chart (.node 2) [] "" "", id := 3 },
    { form := .group .chart (.node 1) [] "" "", id := 4 }]
  links := #[⟨.node 1, [some ""]⟩, ⟨.node 2, [some "right"]⟩]
  nextId := 5

theorem overlapping_node (i : Nat) :
    (overlapping.node i).ownLinks = (if i < 2 then [.link i] else []) ∧
      (overlapping.node i).absent = [] ∧ (overlapping.node i).mark = none ∧
      (overlapping.node i).draws = true := by
  by_cases hi : i < 5
  · revert i
    decide
  · have hout : overlapping.node i = default := overlapping.node_eq_default i (Nat.le_of_not_lt hi)
    rw [hout, if_neg (by omega)]
    exact ⟨rfl, rfl, rfl, rfl⟩

theorem overlapping_drawable : overlapping.Drawable := by
  have hown : ∀ i l, Item.link l ∈ (overlapping.node i).ownLinks → l = i ∧ l < 2 := by
    intro i l hl
    rw [(overlapping_node i).1] at hl
    split at hl
    · cases List.mem_singleton.1 hl
      exact ⟨rfl, by assumption⟩
    · cases hl
  constructor
  case apart =>
    intro i j l hi hj
    exact (hown i l hi).1.symm.trans (hown j l hj).1
  case whole =>
    intro i
    rw [(overlapping_node i).2.1]
    rfl
  case inside =>
    intro i l hl
    exact (hown i l hl).2
  case bridge =>
    intro i answer parent child labels link hf
    have hdraws := (overlapping_node i).2.2.2
    simp [Node.draws, hf] at hdraws
  case mark =>
    intro i k hk
    rw [(overlapping_node i).2.2.1] at hk
    cases hk

theorem overlapping_heads (i : Nat) : ∃ j, HeadsTo overlapping (.node i) j := by
  match i with
  | 0 => exact ⟨0, .of_not_group rfl⟩
  | 1 => exact ⟨1, .of_not_group rfl⟩
  | 2 => exact ⟨0, .of_group rfl (.of_not_group rfl)⟩
  | 3 => exact ⟨0, .of_group rfl (.of_group rfl (.of_not_group rfl))⟩
  | 4 => exact ⟨1, .of_group rfl (.of_not_group rfl)⟩
  | i + 5 => exact ⟨i + 5, .of_not_group rfl⟩

/-- Calls on all three groups, one of them twice. -/
def overlappingCalls : List Call :=
  [⟨.chart, 3⟩, ⟨.connections, 4⟩, ⟨.definitions, 2⟩, ⟨.chart, 3⟩]

theorem calls_stable_overlapping :
    ∃ texts τ, overlappingCalls.mapM Call.run overlapping = .ok texts τ ∧
    List.Forall₂ (fun c text => ∃ υ, c.run overlapping = .ok text υ) overlappingCalls texts ∧
    Redrawn overlapping τ :=
  calls_stable overlapping overlapping_drawable overlapping_heads overlappingCalls (by decide)

end CodeChart.Graph
