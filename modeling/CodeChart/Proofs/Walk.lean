import CodeChart.Proofs.Heads

/-! Walks are depth first. `DepthFirst` describes the order of a walk by recursion on the graph: a
new node, then everything below it that is still new, then the rest. The list that `preorder`
makes with one stack is such an order, it names no node twice, and it holds exactly the nodes that
can be reached through new nodes beyond which the walk goes on. -/
namespace CodeChart.Graph

/-- What stands behind the links of a node, in order. -/
def Store.nextItems (s : Store) (i : Nat) : List Item := (s.node i).ownLinks.filterMap s.target?

inductive DepthFirst (s : Store) (go : Nat → Bool) : List Nat → List Item → List Nat → Prop where
  | nil {seen} : DepthFirst s go seen [] []
  | skip {seen item rest order i} : HeadsTo s item i → i ∈ seen →
      DepthFirst s go seen rest order → DepthFirst s go seen (item :: rest) order
  | stop {seen item rest order i} : HeadsTo s item i → i ∉ seen → go i = false →
      DepthFirst s go (i :: seen) rest order → DepthFirst s go seen (item :: rest) (i :: order)
  | visit {seen item rest below after i} : HeadsTo s item i → i ∉ seen → go i = true →
      DepthFirst s go (i :: seen) (s.nextItems i) below →
      DepthFirst s go (below ++ i :: seen) rest after →
      DepthFirst s go seen (item :: rest) (i :: (below ++ after))

/-- Nodes reached from an item through nodes that are not in `avoid` and beyond which the walk
goes on. -/
inductive Reaches (s : Store) (go : Nat → Bool) (avoid : List Nat) (start : Item) : Nat → Prop where
  | entry {i} : HeadsTo s start i → i ∉ avoid → Reaches s go avoid start i
  | step {i item j} : Reaches s go avoid start i → go i = true → item ∈ s.nextItems i →
      HeadsTo s item j → j ∉ avoid → Reaches s go avoid start j

/-- Nodes reached from an item at all. -/
abbrev Store.Reachable (s : Store) (start : Item) (i : Nat) : Prop :=
  Reaches s (fun _ => true) [] start i

/-- Everything that can be met from an item can be walked through. -/
structure Walkable (s : Store) (start : Item) : Prop where
  starts : ∃ i, HeadsTo s start i
  leads : ∀ i, s.Reachable start i → ∀ item ∈ s.nextItems i, ∃ j, HeadsTo s item j
  within : ∀ i, s.Reachable start i → i < s.nodes.size
  present : ∀ i, s.Reachable start i → (s.node i).absent = []

variable {s : Store} {go : Nat → Bool} {seen : List Nat} {stack : List Item} {order : List Nat}

theorem DepthFirst.congr {seen' : List Nat} (h : DepthFirst s go seen stack order)
    (hs : ∀ x, x ∈ seen ↔ x ∈ seen') : DepthFirst s go seen' stack order := by
  induction h generalizing seen' with
  | nil => exact .nil
  | skip hi hmem _ ih => exact .skip hi ((hs _).1 hmem) (ih hs)
  | stop hi hmem hgo _ ih =>
    exact .stop hi (fun h => hmem ((hs _).2 h)) hgo (ih (by simp [hs]))
  | visit hi hmem hgo _ _ ihBelow ihAfter =>
    exact .visit hi (fun h => hmem ((hs _).2 h)) hgo (ihBelow (by simp [hs]))
      (ihAfter (by simp [hs]))

/-- A walk through two lists of items is a walk through the first and then through the second. -/
theorem DepthFirst.split {first second : List Item}
    (h : DepthFirst s go seen (first ++ second) order) :
    ∃ below after, order = below ++ after ∧ DepthFirst s go seen first below ∧
      DepthFirst s go (below ++ seen) second after := by
  induction first generalizing seen order with
  | nil => exact ⟨[], order, rfl, .nil, h⟩
  | cons item first ih =>
    cases h with
    | skip hi hmem h =>
      obtain ⟨below, after, rfl, hfirst, hsecond⟩ := ih h
      exact ⟨below, after, rfl, .skip hi hmem hfirst, hsecond⟩
    | @stop _ _ _ _ i hi hmem hgo h =>
      obtain ⟨below, after, rfl, hfirst, hsecond⟩ := ih h
      refine ⟨i :: below, after, rfl, .stop hi hmem hgo hfirst, hsecond.congr ?_⟩
      intro x
      simp only [List.mem_append, List.mem_cons]
      tauto
    | @visit _ _ _ inner _ i hi hmem hgo hinner h =>
      obtain ⟨below, after, rfl, hfirst, hsecond⟩ := ih h
      refine ⟨i :: (inner ++ below), after, by simp, .visit hi hmem hgo hinner hfirst,
        hsecond.congr ?_⟩
      intro x
      simp only [List.mem_append, List.mem_cons]
      tauto

theorem successors_eq {i : Nat} (h : (s.node i).absent.contains "connections" = false) :
    s.successors i = .ok (s.nextItems i) := by
  unfold Store.successors Store.nextItems Node.ownLinks
  simp only [h, Bool.false_eq_true, if_false]
  cases (s.node i).form <;> rfl

/-- Where no fault can be met, the stack of `preorderFrom` gives a depth-first order. -/
theorem preorderFrom_depthFirst {P : Nat → Prop} (hin : ∀ i, P i → i < s.nodes.size)
    (hhere : ∀ i, P i → (s.node i).absent = [])
    (hnext : ∀ i, P i → ∀ item ∈ s.nextItems i, ∃ j, HeadsTo s item j ∧ P j)
    (go : Nat → Bool) (seen : List Nat) (stack : List Item)
    (hstack : ∀ item ∈ stack, ∃ j, HeadsTo s item j ∧ P j) :
    ∃ order, s.preorderFrom go seen stack = (order, none) ∧ DepthFirst s go seen stack order := by
  fun_induction Store.preorderFrom s go seen stack with
  | case1 seen => exact ⟨[], rfl, .nil⟩
  | case2 seen item rest f he =>
    obtain ⟨j, hj, _⟩ := hstack item List.mem_cons_self
    rw [hj.entry] at he
    cases he
  | case3 seen item rest i he hnew hgo f hsucc =>
    obtain ⟨j, hj, hP⟩ := hstack item List.mem_cons_self
    obtain rfl := hj.unique (entry_eq_ok_iff.1 he)
    rw [successors_eq (by rw [hhere _ hP]; rfl)] at hsucc
    cases hsucc
  | case4 seen item rest i he hnew hgo next hsucc order f horder ih =>
    obtain ⟨j, hj, hP⟩ := hstack item List.mem_cons_self
    obtain rfl := hj.unique (entry_eq_ok_iff.1 he)
    rw [successors_eq (by rw [hhere _ hP]; rfl)] at hsucc
    cases hsucc
    obtain ⟨order', heq, hdf⟩ := ih (by
      intro it hit
      rcases List.mem_append.1 hit with hit | hit
      · exact hnext _ hP it hit
      · exact hstack it (List.mem_cons_of_mem _ hit))
    rw [horder] at heq
    cases heq
    obtain ⟨below, after, rfl, hbelow, hafter⟩ := hdf.split
    exact ⟨_, rfl, .visit hj (by simpa using hnew.2) hgo hbelow hafter⟩
  | case5 seen item rest i he hnew hgo order f horder ih =>
    obtain ⟨j, hj, hP⟩ := hstack item List.mem_cons_self
    obtain rfl := hj.unique (entry_eq_ok_iff.1 he)
    obtain ⟨order', heq, hdf⟩ := ih (fun it hit => hstack it (List.mem_cons_of_mem _ hit))
    rw [horder] at heq
    cases heq
    exact ⟨_, rfl, .stop hj (by simpa using hnew.2) (by simpa using hgo) hdf⟩
  | case6 seen item rest i he hold ih =>
    obtain ⟨j, hj, hP⟩ := hstack item List.mem_cons_self
    obtain rfl := hj.unique (entry_eq_ok_iff.1 he)
    obtain ⟨order', heq, hdf⟩ := ih (fun it hit => hstack it (List.mem_cons_of_mem _ hit))
    have hmem : j ∈ seen := by
      by_contra hmem
      exact hold ⟨hin _ hP, by simpa using hmem⟩
    exact ⟨order', heq, .skip hj hmem hdf⟩

/-- The visits of a walk that meets no fault, if so many steps are enough. The recursion is on the
steps, so a walk through a given store can be evaluated. -/
def Store.visitsWithin (s : Store) : Nat → List Nat → List Item → Option (List Nat)
  | 0, _, _ => none
  | _ + 1, _, [] => some []
  | fuel + 1, seen, item :: rest =>
    match s.entry item with
    | .error _ => none
    | .ok i =>
      if i < s.nodes.size ∧ seen.contains i = false then
        match s.successors i with
        | .error _ => none
        | .ok next => (s.visitsWithin fuel (i :: seen) (next ++ rest)).map (i :: ·)
      else s.visitsWithin fuel seen rest

theorem preorderFrom_of_visitsWithin {fuel : Nat}
    (h : s.visitsWithin fuel seen stack = some order) :
    s.preorderFrom (fun _ => true) seen stack = (order, none) := by
  fun_induction Store.visitsWithin s fuel seen stack generalizing order with
  | case1 => cases h
  | case2 =>
    cases h
    rw [Store.preorderFrom]
  | case3 => cases h
  | case4 => cases h
  | case5 fuel seen item rest i hentry hnew next hnext ih =>
    obtain ⟨order', horder', rfl⟩ := Option.map_eq_some_iff.1 h
    rw [Store.preorderFrom]
    simp only [hentry, hnext, dif_pos hnew, if_true, ih horder']
  | case6 fuel seen item rest i hentry hold ih =>
    rw [Store.preorderFrom]
    simp only [hentry, dif_neg hold, ih h]

theorem exists_headsTo_of_all
    (h : ((List.range s.nodes.size).all fun i =>
      (s.nextItems i).all fun item => (s.entry item).isOk) = true)
    {i : Nat} {item : Item} (hitem : item ∈ s.nextItems i) : ∃ j, HeadsTo s item j := by
  have hi : i < s.nodes.size := by
    by_contra hi
    have hnone : s.node i = default := by simp [Store.node, hi]
    rw [Store.nextItems, hnone] at hitem
    cases hitem
  have hok := List.all_eq_true.1 (List.all_eq_true.1 h i (List.mem_range.2 hi)) item hitem
  cases hentry : s.entry item with
  | error f =>
    rw [hentry] at hok
    cases hok
  | ok j => exact ⟨j, entry_eq_ok_iff.1 hentry⟩

theorem DepthFirst.not_mem_seen (h : DepthFirst s go seen stack order) :
    ∀ i ∈ order, i ∉ seen := by
  induction h with
  | nil => simp
  | skip _ _ _ ih => exact ih
  | stop _ hmem _ _ ih =>
    intro x hx
    rcases List.mem_cons.1 hx with rfl | hx
    · exact hmem
    · exact fun h => ih x hx (List.mem_cons_of_mem _ h)
  | visit _ hmem _ _ _ ihBelow ihAfter =>
    intro x hx
    rcases List.mem_cons.1 hx with rfl | hx
    · exact hmem
    rcases List.mem_append.1 hx with hx | hx
    · exact fun h => ihBelow x hx (List.mem_cons_of_mem _ h)
    · exact fun h => ihAfter x hx (List.mem_append_right _ (List.mem_cons_of_mem _ h))

theorem DepthFirst.nodup (h : DepthFirst s go seen stack order) : order.Nodup := by
  induction h with
  | nil => exact List.nodup_nil
  | skip _ _ _ ih => exact ih
  | stop _ _ _ h ih =>
    exact List.nodup_cons.2 ⟨fun hx => h.not_mem_seen _ hx List.mem_cons_self, ih⟩
  | visit _ _ _ hbelow hafter ihBelow ihAfter =>
    refine List.nodup_cons.2 ⟨?_, List.nodup_append.2 ⟨ihBelow, ihAfter, ?_⟩⟩
    · intro hx
      rcases List.mem_append.1 hx with hx | hx
      · exact hbelow.not_mem_seen _ hx List.mem_cons_self
      · exact hafter.not_mem_seen _ hx (List.mem_append_right _ List.mem_cons_self)
    · rintro x hx y hy rfl
      exact hafter.not_mem_seen _ hy (List.mem_append_left _ hx)

theorem Reaches.weaken {avoid avoid' : List Nat} {start : Item} {i : Nat}
    (h : Reaches s go avoid start i) (hs : ∀ x ∈ avoid', x ∈ avoid) :
    Reaches s go avoid' start i := by
  induction h with
  | entry hi hmem => exact .entry hi (fun h => hmem (hs _ h))
  | step _ hgo hitem hj hmem ih => exact .step ih hgo hitem hj (fun h => hmem (hs _ h))

theorem Reaches.trans {avoid : List Nat} {start item : Item} {i j : Nat}
    (h : Reaches s go avoid start i) (hgo : go i = true) (hitem : item ∈ s.nextItems i)
    (hj : Reaches s go avoid item j) : Reaches s go avoid start j := by
  induction hj with
  | entry hj hmem => exact .step h hgo hitem hj hmem
  | step _ hgo' hitem' hj' hmem' ih => exact .step ih hgo' hitem' hj' hmem'

theorem DepthFirst.reaches (h : DepthFirst s go seen stack order) :
    ∀ i ∈ order, ∃ item ∈ stack, Reaches s go seen item i := by
  induction h with
  | nil => simp
  | skip _ _ _ ih =>
    intro x hx
    obtain ⟨item, hitem, hx⟩ := ih x hx
    exact ⟨item, List.mem_cons_of_mem _ hitem, hx⟩
  | stop hi hmem _ _ ih =>
    intro x hx
    rcases List.mem_cons.1 hx with rfl | hx
    · exact ⟨_, List.mem_cons_self, .entry hi hmem⟩
    obtain ⟨item, hitem, hx⟩ := ih x hx
    exact ⟨item, List.mem_cons_of_mem _ hitem, hx.weaken (fun _ => List.mem_cons_of_mem _)⟩
  | visit hi hmem hgo _ _ ihBelow ihAfter =>
    intro x hx
    rcases List.mem_cons.1 hx with rfl | hx
    · exact ⟨_, List.mem_cons_self, .entry hi hmem⟩
    rcases List.mem_append.1 hx with hx | hx
    · obtain ⟨item, hitem, hx⟩ := ihBelow x hx
      have hx : Reaches s go _ item x := hx.weaken (fun _ => List.mem_cons_of_mem _)
      exact ⟨_, List.mem_cons_self, (Reaches.entry hi hmem).trans hgo hitem hx⟩
    · obtain ⟨item, hitem, hx⟩ := ihAfter x hx
      exact ⟨item, List.mem_cons_of_mem _ hitem,
        hx.weaken (fun _ h => List.mem_append_right _ (List.mem_cons_of_mem _ h))⟩

/-- What a depth-first order and the nodes seen before it leave out is not met any more. -/
theorem DepthFirst.closed (h : DepthFirst s go seen stack order) :
    (∀ item ∈ stack, ∀ j, HeadsTo s item j → j ∈ order ∨ j ∈ seen) ∧
    (∀ i ∈ order, go i = true → ∀ item ∈ s.nextItems i, ∀ j, HeadsTo s item j →
      j ∈ order ∨ j ∈ seen) := by
  induction h with
  | nil => simp
  | @skip seen item rest order i hi hmem _ ih =>
    refine ⟨?_, ih.2⟩
    intro it hit j hj
    rcases List.mem_cons.1 hit with rfl | hit
    · exact Or.inr (hi.unique hj ▸ hmem)
    · exact ih.1 it hit j hj
  | @stop seen item rest order i hi hmem hgo _ ih =>
    constructor
    · intro it hit j hj
      rcases List.mem_cons.1 hit with rfl | hit
      · exact Or.inl (hi.unique hj ▸ List.mem_cons_self)
      · have := ih.1 it hit j hj
        simp only [List.mem_cons] at this ⊢
        tauto
    · intro x hx hgx it hit j hj
      rcases List.mem_cons.1 hx with rfl | hx
      · rw [hgo] at hgx; cases hgx
      · have := ih.2 x hx hgx it hit j hj
        simp only [List.mem_cons] at this ⊢
        tauto
  | @visit seen item rest below after i hi hmem hgo _ _ ihBelow ihAfter =>
    constructor
    · intro it hit j hj
      rcases List.mem_cons.1 hit with rfl | hit
      · exact Or.inl (hi.unique hj ▸ List.mem_cons_self)
      · have := ihAfter.1 it hit j hj
        simp only [List.mem_cons, List.mem_append] at this ⊢
        tauto
    · intro x hx hgx it hit j hj
      rcases List.mem_cons.1 hx with rfl | hx
      · have := ihBelow.1 it hit j hj
        simp only [List.mem_cons, List.mem_append] at this ⊢
        tauto
      rcases List.mem_append.1 hx with hx | hx
      · have := ihBelow.2 x hx hgx it hit j hj
        simp only [List.mem_cons, List.mem_append] at this ⊢
        tauto
      · have := ihAfter.2 x hx hgx it hit j hj
        simp only [List.mem_cons, List.mem_append] at this ⊢
        tauto

theorem DepthFirst.mem_of_reaches (h : DepthFirst s go seen stack order) {item : Item}
    (hitem : item ∈ stack) {i : Nat} (hi : Reaches s go seen item i) : i ∈ order := by
  induction hi with
  | entry hi hmem => exact (h.closed.1 item hitem _ hi).resolve_right hmem
  | step _ hgo hit hj hmem ih => exact (h.closed.2 _ ih hgo _ hit _ hj).resolve_right hmem

theorem DepthFirst.mem_iff (h : DepthFirst s go seen stack order) {i : Nat} :
    i ∈ order ↔ ∃ item ∈ stack, Reaches s go seen item i :=
  ⟨h.reaches i, fun ⟨_, hitem, hi⟩ => h.mem_of_reaches hitem hi⟩

theorem DepthFirst.unique {order' : List Nat} (h : DepthFirst s go seen stack order)
    (h' : DepthFirst s go seen stack order') : order = order' := by
  induction h generalizing order' with
  | nil =>
    cases h'
    rfl
  | skip hi hmem _ ih =>
    cases h' with
    | skip _ _ h' => exact ih h'
    | stop hi' hmem' _ _ => exact absurd (hi.unique hi' ▸ hmem) hmem'
    | visit hi' hmem' _ _ _ => exact absurd (hi.unique hi' ▸ hmem) hmem'
  | stop hi hmem hgo _ ih =>
    cases h' with
    | skip hi' hmem' _ => exact absurd (hi'.unique hi ▸ hmem') hmem
    | stop hi' _ _ h' =>
      cases hi.unique hi'
      rw [ih h']
    | visit hi' _ hgo' _ _ =>
      cases hi.unique hi'
      rw [hgo] at hgo'
      cases hgo'
  | visit hi hmem hgo _ _ below after =>
    cases h' with
    | skip hi' hmem' _ => exact absurd (hi'.unique hi ▸ hmem') hmem
    | stop hi' _ hgo' _ =>
      cases hi.unique hi'
      rw [hgo] at hgo'
      cases hgo'
    | visit hi' _ _ hbelow hafter =>
      cases hi.unique hi'
      cases below hbelow
      rw [after hafter]

section

variable {g : Nat} {role : GroupRole} {head : Item} {tails : List Item} {d c : String}

theorem Reaches.of_group {avoid : List Nat} {i : Nat} (h : Reaches s go avoid (.node g) i)
    (hg : (s.node g).form = .group role head tails d c) : Reaches s go avoid head i := by
  induction h with
  | entry hh hm => exact .entry (hh.head hg) hm
  | step _ hgo hitem hh hm ih => exact .step ih hgo hitem hh hm

theorem DepthFirst.of_group (h : DepthFirst s go seen [.node g] order)
    (hg : (s.node g).form = .group role head tails d c) : DepthFirst s go seen [head] order := by
  cases h with
  | skip hh hmem h => exact .skip (hh.head hg) hmem h
  | stop hh hmem hgo h => exact .stop (hh.head hg) hmem hgo h
  | visit hh hmem hgo hbelow hafter => exact .visit (hh.head hg) hmem hgo hbelow hafter

end

theorem Walkable.preorderFrom {start : Item} (h : Walkable s start) :
    ∃ order, s.preorderFrom (fun _ => true) [] [start] = (order, none) ∧
      DepthFirst s (fun _ => true) [] [start] order := by
  refine preorderFrom_depthFirst h.within h.present ?_ (fun _ => true) [] [start] ?_
  · intro i hi item hitem
    obtain ⟨j, hj⟩ := h.leads i hi item hitem
    exact ⟨j, hj, .step hi rfl hitem hj List.not_mem_nil⟩
  · intro item hitem
    obtain rfl := List.mem_singleton.1 hitem
    obtain ⟨i, hi⟩ := h.starts
    exact ⟨i, hi, .entry hi List.not_mem_nil⟩

theorem DepthFirst.mem_iff_reachable {start : Item}
    (h : DepthFirst s (fun _ => true) [] [start] order) {i : Nat} :
    i ∈ order ↔ s.Reachable start i := by
  rw [h.mem_iff]
  simp

end CodeChart.Graph
