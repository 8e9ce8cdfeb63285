import CodeChart.Proofs.Stability
import CodeChart.Session.Step

/-! Walks that may stop. `Traverses` follows a walk through the stores it passes: a node that
carries the mark is passed over, any other is marked and then visited, and the nodes behind it
follow before the rest if the visit says so. A walk visits exactly the nodes that are reached
through nodes beyond which it goes on, each once and in this order, as long as the visits leave the
graph alone. A walk inside a group ends at its tails, which are not visited. -/
namespace CodeChart.Graph

/-- The second store has the graph of the first: the same nodes, heads and ways on. -/
structure SameGraph (σ τ : Store) : Prop where
  size : τ.nodes.size = σ.nodes.size
  heads : ∀ i, (τ.node i).form.head? = (σ.node i).form.head?
  next : ∀ i, τ.nextItems i = σ.nextItems i

def callOn (mark : Option Mark) (visit : Nat → Action Unit) (i : Nat) : Action Unit := do
  setMark i mark
  visit i

/-- A walk through the items of a list, with the calls that it makes and the store that it
leaves. -/
inductive Traverses (mark : Option Mark) (go : Nat → Bool) (visit : Nat → Action Unit) :
    List Item → Store → List Nat → Store → Prop where
  | nil {σ} : Traverses mark go visit [] σ [] σ
  | skip {item rest σ calls τ i} : HeadsTo σ item i → (σ.node i).mark = mark →
      Traverses mark go visit rest σ calls τ → Traverses mark go visit (item :: rest) σ calls τ
  | stop {item rest σ σ' calls τ i} : HeadsTo σ item i → (σ.node i).mark ≠ mark →
      callOn mark visit i σ = .ok () σ' → go i = false →
      Traverses mark go visit rest σ' calls τ →
        Traverses mark go visit (item :: rest) σ (i :: calls) τ
  | enter {item rest σ σ' below σ'' after τ i} : HeadsTo σ item i → (σ.node i).mark ≠ mark →
      callOn mark visit i σ = .ok () σ' → go i = true →
      Traverses mark go visit (σ'.nextItems i) σ' below σ'' →
      Traverses mark go visit rest σ'' after τ →
      Traverses mark go visit (item :: rest) σ (i :: (below ++ after)) τ

/-- A visit that succeeds in every store with the graph of `σ`, and changes neither the graph nor
the marks. -/
def KeepsGraph (σ : Store) (visit : Nat → Action Unit) : Prop :=
  ∀ τ, SameGraph σ τ → ∀ i, ∃ υ, visit i τ = .ok () υ ∧ SameGraph τ υ ∧
    ∀ j, (υ.node j).mark = (τ.node j).mark

variable {σ τ υ : Store} {mark : Option Mark} {go : Nat → Bool} {visit : Nat → Action Unit}

namespace SameGraph

theorem refl (σ : Store) : SameGraph σ σ := ⟨rfl, fun _ => rfl, fun _ => rfl⟩

theorem trans (h : SameGraph σ τ) (h' : SameGraph τ υ) : SameGraph σ υ where
  size := h'.size.trans h.size
  heads i := (h'.heads i).trans (h.heads i)
  next i := (h'.next i).trans (h.next i)

theorem headsIn (h : SameGraph σ τ) {n j : Nat} {item : Item} (hn : HeadsIn σ n item j) :
    HeadsIn τ n item j := by
  induction hn with
  | @here i hi => exact .here (head?_eq_none_iff.1 ((h.heads i).trans (head?_eq_none_iff.2 hi)))
  | @head n i j role head tails d c hf _ ih =>
    have hhead : (τ.node i).form.head? = some head := (h.heads i).trans (by rw [hf]; rfl)
    obtain ⟨role', tails', d', c', hf'⟩ := head?_eq_some_iff.1 hhead
    exact .head hf' ih

theorem headsTo (h : SameGraph σ τ) {item : Item} {j : Nat} (hj : HeadsTo σ item j) :
    HeadsTo τ item j := by
  obtain ⟨n, hn⟩ := hj
  exact ⟨n, h.headsIn hn⟩

theorem of_setMark (σ : Store) (i : Nat) (mark : Option Mark) :
    SameGraph σ (σ.mapNode i fun n => { n with mark }) where
  size := σ.size_mapNode i _
  heads j := σ.node_mapNode_keeps i j _ (P := fun n => n.form.head? = (σ.node j).form.head?) rfl
    fun _ => rfl
  next j := σ.node_mapNode_keeps i j _
    (P := fun n => n.ownLinks.filterMap σ.target? = σ.nextItems j) rfl fun _ => rfl

end SameGraph

theorem Reaches.reachable {avoid : List Nat} {start : Item} {i : Nat}
    (h : Reaches σ go avoid start i) : σ.Reachable start i := by
  induction h with
  | entry hi _ => exact .entry hi List.not_mem_nil
  | step _ _ hitem hj _ ih => exact .step ih rfl hitem hj List.not_mem_nil

theorem callOn_run (mark : Option Mark) (hvisit : KeepsGraph σ visit) (hτ : SameGraph σ τ) {i : Nat}
    (hi : i < σ.nodes.size) :
    ∃ υ, callOn mark visit i τ = .ok () υ ∧ SameGraph τ υ ∧
      ∀ j, (υ.node j).mark = if j = i then mark else (τ.node j).mark := by
  have hmarked := SameGraph.of_setMark τ i mark
  obtain ⟨υ, hrun, hυ, hmarks⟩ := hvisit _ (hτ.trans hmarked) i
  refine ⟨υ, hrun, hmarked.trans hυ, ?_⟩
  intro j
  rw [hmarks j, τ.node_mapNode_of_lt i j _ (hτ.size.symm ▸ hi)]
  by_cases hj : j = i
  · rw [if_pos hj, if_pos hj]
  · rw [if_neg hj, if_neg hj]

/-- The calls of a depth-first order are those of a walk that finds the nodes seen before marked. -/
theorem DepthFirst.traverses (mark : Option Mark) {seen order : List Nat} {stack : List Item}
    (h : DepthFirst σ go seen stack order) (hvisit : KeepsGraph σ visit)
    (hseen : ∀ i ∈ seen, i < σ.nodes.size) (horder : ∀ i ∈ order, i < σ.nodes.size)
    (hτ : SameGraph σ τ) (hmarks : ∀ i < σ.nodes.size, (τ.node i).mark = mark ↔ i ∈ seen) :
    ∃ υ, (order.forM (callOn mark visit) : Action Unit) τ = .ok () υ ∧
      Traverses mark go visit stack τ order υ ∧ SameGraph σ υ ∧
      ∀ i < σ.nodes.size, (υ.node i).mark = mark ↔ i ∈ order ++ seen := by
  -- the nodes that carry the mark are those seen so far, so a walk passes over the same ones
  induction h generalizing τ with
  | nil => exact ⟨τ, rfl, .nil, hτ, by simpa using hmarks⟩
  | @skip seen item rest order i hi hmem _ ih =>
    obtain ⟨υ, hrun, htraverses, hυ, hafter⟩ := ih hseen horder hτ hmarks
    have hmark : (τ.node i).mark = mark := (hmarks i (hseen i hmem)).2 hmem
    exact ⟨υ, hrun, .skip (hτ.headsTo hi) hmark htraverses, hυ, hafter⟩
  | @stop seen item rest order i hi hmem hgo _ ih =>
    obtain ⟨hin, hrest⟩ := List.forall_mem_cons.1 horder
    obtain ⟨τ', hcall, hτ', hcalled⟩ := callOn_run mark hvisit hτ hin
    obtain ⟨υ, hrun, htraverses, hυ, hafter⟩ :=
      ih (List.forall_mem_cons.2 ⟨hin, hseen⟩) hrest (hτ.trans hτ') (by
        intro j hj
        rw [hcalled j, List.mem_cons, ← hmarks j hj]
        by_cases hji : j = i <;> simp [hji])
    refine ⟨υ, (forM_cons_ok hcall).trans hrun, ?_, hυ, ?_⟩
    · exact .stop (hτ.headsTo hi) (fun hmark => hmem ((hmarks i hin).1 hmark)) hcall hgo htraverses
    · intro j hj
      rw [hafter j hj]
      simp only [List.mem_append, List.mem_cons]
      tauto
  | @visit seen item rest below after i hi hmem hgo _ _ ihBelow ihAfter =>
    obtain ⟨hin, hrest⟩ := List.forall_mem_cons.1 horder
    obtain ⟨hbelow, hafter⟩ := List.forall_mem_append.1 hrest
    obtain ⟨τ', hcall, hτ', hcalled⟩ := callOn_run mark hvisit hτ hin
    have hseen' : ∀ j ∈ i :: seen, j < σ.nodes.size := List.forall_mem_cons.2 ⟨hin, hseen⟩
    obtain ⟨τ'', hrunBelow, htraversesBelow, hτ'', hmarksBelow⟩ :=
      ihBelow hseen' hbelow (hτ.trans hτ') (by
        intro j hj
        rw [hcalled j, List.mem_cons, ← hmarks j hj]
        by_cases hji : j = i <;> simp [hji])
    obtain ⟨υ, hrunAfter, htraversesAfter, hυ, hmarksAfter⟩ :=
      ihAfter (List.forall_mem_append.2 ⟨hbelow, hseen'⟩) hafter hτ'' hmarksBelow
    refine ⟨υ, ?_, ?_, hυ, ?_⟩
    · have happend : ((below ++ after).forM (callOn mark visit) : Action Unit)
          = (do below.forM (callOn mark visit); after.forM (callOn mark visit)) := List.forM_append
      rw [forM_cons_ok hcall, happend, bind_ok hrunBelow]
      exact hrunAfter
    · refine .enter (hτ.headsTo hi) (fun hmark => hmem ((hmarks i hin).1 hmark)) hcall hgo ?_
        htraversesAfter
      rwa [(hτ.trans hτ').next i]
    · intro j hj
      rw [hmarksAfter j hj]
      simp only [List.mem_append, List.mem_cons]
      tauto

theorem Walkable.walk_run {start : Item} (h : Walkable σ start)
    (hfresh : ∀ i < σ.nodes.size, (σ.node i).mark ≠ mark) (go : Nat → Bool)
    (hvisit : KeepsGraph σ visit) :
    ∃ order τ, σ.preorder mark go start = (order, none) ∧ walk mark go visit start σ = .ok () τ ∧
      Traverses mark go visit [start] σ order τ ∧ order.Nodup ∧
      ∀ i, i ∈ order ↔ Reaches σ go [] start i := by
  have hmarked : σ.marked mark = [] := by
    unfold Store.marked
    rw [List.filter_eq_nil_iff]
    intro i hi
    simpa using hfresh i (List.mem_range.1 hi)
  obtain ⟨order, horder, hdepth⟩ := preorderFrom_depthFirst h.within h.present
    (fun i hi item hitem => by
      obtain ⟨j, hj⟩ := h.leads i hi item hitem
      exact ⟨j, hj, .step hi rfl hitem hj List.not_mem_nil⟩) go [] [start]
    (fun item hitem => by
      obtain rfl := List.mem_singleton.1 hitem
      obtain ⟨i, hi⟩ := h.starts
      exact ⟨i, hi, .entry hi List.not_mem_nil⟩)
  have hmem : ∀ i, i ∈ order ↔ Reaches σ go [] start i := by
    intro i
    rw [hdepth.mem_iff]
    simp
  have hin : ∀ i ∈ order, i < σ.nodes.size := fun i hi => h.within i ((hmem i).1 hi).reachable
  obtain ⟨τ, hrun, htraverses, -, -⟩ := hdepth.traverses mark hvisit (by simp) hin
    (SameGraph.refl σ) (by simpa using hfresh)
  have hpreorder : σ.preorder mark go start = (order, none) := by
    rw [Store.preorder, hmarked, horder]
  refine ⟨order, τ, hpreorder, ?_, htraverses, hdepth.nodup, hmem⟩
  unfold walk
  rw [bind_ok (show (get : Action Store) σ = .ok σ σ from rfl), hpreorder]
  exact (bind_ok hrun).trans rfl

/-- A walk inside a group ends at its tails. -/
def goInside (tails : List Item) (go : Nat → Bool) (i : Nat) : Bool :=
  !tails.contains (.node i) && go i

/-- A walk inside a group does not visit its tails. -/
def visitInside (tails : List Item) (visit : Nat → Action Unit) (i : Nat) : Action Unit :=
  if tails.contains (.node i) then pure () else visit i

/-- The nodes of a list that are no tails. -/
def withoutTails (tails : List Item) (order : List Nat) : List Nat :=
  order.filter fun i => !tails.contains (.node i)

theorem mem_withoutTails {tails : List Item} {order : List Nat} {i : Nat} :
    i ∈ withoutTails tails order ↔ Item.node i ∉ tails ∧ i ∈ order := by
  simp [withoutTails, and_comm]

theorem keepsGraph_pure (σ : Store) : KeepsGraph σ fun _ => pure () :=
  fun τ _ _ => ⟨τ, rfl, .refl τ, fun _ => rfl⟩

theorem KeepsGraph.inside (h : KeepsGraph σ visit) (tails : List Item) :
    KeepsGraph σ (visitInside tails visit) := by
  intro τ hτ i
  unfold visitInside
  split
  · exact keepsGraph_pure σ τ hτ i
  · exact h τ hτ i

open Session in
theorem walkFrom_inner {g : Nat} {role : GroupRole} {head : Item} {tails : List Item} {d c : String}
    (hg : (σ.node g).form = .group role head tails d c) (flag : Option String) (stop : List Item)
    {order : List Nat}
    (horder : σ.preorder (flag.map .named) (goInside tails fun i => !stop.contains (.node i)) head
      = (order, none))
    (hwalk : walk (flag.map .named) (goInside tails fun i => !stop.contains (.node i))
      (fun _ => pure ()) head σ = .ok () τ) :
    walkFrom (.node g) flag stop true σ = .ok ((withoutTails tails order).map .node) τ := by
  have hends : groupEnds g σ = .ok (head, tails) σ := by
    unfold groupEnds
    rw [bind_ok (getNode_run σ g), hg]
    rfl
  unfold walkFrom
  rw [if_pos rfl]
  refine (bind_ok (getNode_run σ g)).trans ?_
  rw [if_pos (isGroup_of_form hg)]
  refine (bind_ok hends).trans ?_
  refine (bind_ok (show (get : Action Store) σ = .ok σ σ from rfl)).trans ?_
  have hgo : (fun i => !tails.contains (.node i) && !stop.contains (.node i))
      = goInside tails fun i => !stop.contains (.node i) := rfl
  simp only [hgo, horder]
  refine (bind_ok hwalk).trans ?_
  rw [withoutTails, List.filter_map]
  rfl

open Session in
/-- A walk with a new mark comes to an end. It makes one call on each node that is reached through
nodes beyond which it goes on, on no other, and depth first. A walk inside a group so visits the
nodes that are reached through nodes that are no tails, unless they are tails themselves. -/
theorem walk_calls_reached (σ : Store) (start : Item) (h : Walkable σ start) (mark : Option Mark)
    (hfresh : ∀ i < σ.nodes.size, (σ.node i).mark ≠ mark) (go : Nat → Bool)
    (visit : Nat → Action Unit) (hvisit : KeepsGraph σ visit) :
    (∃ calls τ, walk mark go visit start σ = .ok () τ ∧ Traverses mark go visit [start] σ calls τ ∧
      calls.Nodup ∧ ∀ i, i ∈ calls ↔ Reaches σ go [] start i) ∧
    (∀ tails, ∃ order τ,
      walk mark (goInside tails go) (visitInside tails visit) start σ = .ok () τ ∧
      Traverses mark (goInside tails go) (visitInside tails visit) [start] σ order τ ∧
      (withoutTails tails order).Nodup ∧
      ∀ i, i ∈ withoutTails tails order ↔
        Item.node i ∉ tails ∧ Reaches σ (goInside tails go) [] start i) ∧
    (∀ g role tails d c flag stop, (σ.node g).form = .group role start tails d c →
      mark = flag.map .named → ∃ order τ,
        walkFrom (.node g) flag stop true σ = .ok ((withoutTails tails order).map .node) τ ∧
        Traverses mark (goInside tails fun i => !stop.contains (.node i)) (fun _ =>
          pure ()) [start] σ
          order τ ∧
        (withoutTails tails order).Nodup ∧
        ∀ i, i ∈ withoutTails tails order ↔ Item.node i ∉ tails ∧
          Reaches σ (goInside tails fun i => !stop.contains (.node i)) [] start i) := by
  refine ⟨?_, ?_, ?_⟩
  · obtain ⟨calls, τ, -, hrun, htraverses, hnodup, hmem⟩ := h.walk_run hfresh go hvisit
    exact ⟨calls, τ, hrun, htraverses, hnodup, hmem⟩
  · intro tails
    obtain ⟨order, τ, -, hrun, htraverses, hnodup, hmem⟩ :=
      h.walk_run hfresh (goInside tails go) (hvisit.inside tails)
    refine ⟨order, τ, hrun, htraverses, hnodup.filter _, ?_⟩
    intro i
    rw [mem_withoutTails, hmem]
  · rintro g role tails d c flag stop hg rfl
    obtain ⟨order, τ, hpreorder, hrun, htraverses, hnodup, hmem⟩ :=
      h.walk_run hfresh (goInside tails fun i => !stop.contains (.node i)) (keepsGraph_pure σ)
    refine ⟨order, τ, walkFrom_inner hg flag stop hpreorder hrun, htraverses, hnodup.filter _, ?_⟩
    intro i
    rw [mem_withoutTails, hmem]

theorem overlapping_reachable {i : Nat} (h : overlapping.Reachable (.node 0) i) :
    i = 0 ∨ i = 1 := by
  have hzero : HeadsTo overlapping (.node 0) 0 := .of_not_group rfl
  have hone : HeadsTo overlapping (.node 1) 1 := .of_not_group rfl
  have htwo : HeadsTo overlapping (.node 2) 0 := .of_group rfl hzero
  induction h with
  | entry hi _ => exact Or.inl (hi.unique hzero)
  | step _ _ hitem hj _ ih =>
    rcases ih with rfl | rfl
    · obtain rfl := List.mem_singleton.1 (show _ ∈ [Item.node 1] from hitem)
      exact Or.inr (hj.unique hone)
    · obtain rfl := List.mem_singleton.1 (show _ ∈ [Item.node 2] from hitem)
      exact Or.inl (hj.unique htwo)

theorem overlapping_walkable : Walkable overlapping (.node 0) where
  starts := overlapping_heads 0
  leads i hi item hitem := by
    rcases overlapping_reachable hi with rfl | rfl
    · obtain rfl := List.mem_singleton.1 (show _ ∈ [Item.node 1] from hitem)
      exact overlapping_heads 1
    · obtain rfl := List.mem_singleton.1 (show _ ∈ [Item.node 2] from hitem)
      exact overlapping_heads 2
  within i hi := by
    have hsize : overlapping.nodes.size = 5 := rfl
    have := overlapping_reachable hi
    omega
  present i _ := (overlapping_node i).2.1

open Session in
/-- In the circle of two operations, a walk inside the group from the first to the second visits the
first alone. -/
theorem walk_calls_reached_circle : ∃ τ,
    walkFrom (.node 2) (some "seen") [] true overlapping = .ok [.node 0] τ := by
  have hfresh : ∀ i < overlapping.nodes.size, (overlapping.node i).mark ≠ some (.named "seen") := by
    intro i _
    rw [(overlapping_node i).2.2.1]
    simp
  obtain ⟨-, -, hinside⟩ := walk_calls_reached overlapping (.node 0) overlapping_walkable
    (some (.named "seen")) hfresh (fun _ => true) (fun _ => pure ()) (keepsGraph_pure overlapping)
  obtain ⟨order, τ, hrun, -, hnodup, hmem⟩ :=
    hinside 2 .plain [.node 1] "" "" (some "seen") [] rfl rfl
  have hcalls : withoutTails [.node 1] order = [0] := by
    refine List.perm_singleton.1 ((List.perm_ext_iff_of_nodup hnodup (List.nodup_singleton 0)).2 ?_)
    intro i
    simp only [hmem i, List.mem_singleton]
    constructor
    · rintro ⟨hi, hreached⟩
      rcases overlapping_reachable hreached.reachable with rfl | rfl
      · rfl
      · exact absurd rfl hi
    · rintro rfl
      exact ⟨by decide, .entry (.of_not_group rfl) List.not_mem_nil⟩
  rw [hcalls] at hrun
  exact ⟨τ, hrun⟩

end CodeChart.Graph
