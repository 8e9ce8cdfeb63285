import CodeChart.Graph.Walk
import CodeChart.Proofs.Update
import Mathlib.Data.List.Perm.Subperm

/-! Chains of heads. A group is entered at its head, which may be a group again. A chain that ends
never meets a group twice, so it is no longer than the store, and the bounds that the searches
for entries and names carry are never felt. -/
namespace CodeChart.Graph

def Form.head? : Form → Option Item
  | .group _ head _ _ _ => some head
  | _ => none

/-- After `n` heads the chain from an item ends at node `j`, which is no group. -/
inductive HeadsIn (s : Store) : Nat → Item → Nat → Prop where
  | here {i} : (s.node i).isGroup = false → HeadsIn s 0 (.node i) i
  | head {n i j role head tails d c} : (s.node i).form = .group role head tails d c →
      HeadsIn s n head j → HeadsIn s (n + 1) (.node i) j

/-- The chain of heads from an item ends at node `j`. -/
def HeadsTo (s : Store) (item : Item) (j : Nat) : Prop := ∃ n, HeadsIn s n item j

variable {s : Store} {item : Item} {i j k n m : Nat}

theorem head?_eq_some_iff {n : Node} {head : Item} :
    n.form.head? = some head ↔ ∃ role tails d c, n.form = .group role head tails d c := by
  cases n.form <;> simp [Form.head?]

theorem head?_eq_none_iff {n : Node} : n.form.head? = none ↔ n.isGroup = false := by
  unfold Node.isGroup
  cases n.form <;> simp [Form.head?, Form.isGroup]

theorem isGroup_of_form {role head tails d c}
    (h : (s.node i).form = .group role head tails d c) : (s.node i).isGroup = true := by
  simp [Node.isGroup, h, Form.isGroup]

theorem form_of_isGroup (h : (s.node i).isGroup = true) :
    ∃ role head tails d c, (s.node i).form = .group role head tails d c := by
  unfold Node.isGroup at h
  cases hf : (s.node i).form with
  | group role head tails d c => exact ⟨role, head, tails, d, c, rfl⟩
  | box shape => rw [hf] at h; cases h
  | decision role yes no => rw [hf] at h; cases h
  | bridge answer parent child labels link => rw [hf] at h; cases h

theorem lt_size_of_isGroup (h : (s.node i).isGroup = true) : i < s.nodes.size := by
  by_contra hi
  rw [s.node_eq_default i (by omega)] at h
  cases h

theorem HeadsTo.of_not_group (h : (s.node i).isGroup = false) : HeadsTo s (.node i) i :=
  ⟨0, .here h⟩

theorem HeadsTo.of_group {role head tails d c}
    (h : (s.node i).form = .group role head tails d c) (hh : HeadsTo s head j) :
    HeadsTo s (.node i) j := by
  obtain ⟨n, hn⟩ := hh
  exact ⟨n + 1, .head h hn⟩

/-- The chain from a group goes on from its head. -/
theorem HeadsTo.head {role head tails d c} (hh : HeadsTo s (.node i) j)
    (h : (s.node i).form = .group role head tails d c) : HeadsTo s head j := by
  obtain ⟨n, hn⟩ := hh
  cases hn with
  | here hi =>
    rw [isGroup_of_form h] at hi
    cases hi
  | head hf hn =>
    rw [h] at hf
    cases hf
    exact ⟨_, hn⟩

theorem HeadsIn.not_group (h : HeadsIn s n item j) : (s.node j).isGroup = false := by
  induction h with
  | here h => exact h
  | head _ _ ih => exact ih

theorem HeadsTo.not_group (h : HeadsTo s item j) : (s.node j).isGroup = false := by
  obtain ⟨n, hn⟩ := h
  exact hn.not_group

theorem HeadsIn.unique (h : HeadsIn s n item j) (h' : HeadsIn s m item k) : n = m ∧ j = k := by
  induction h generalizing m with
  | here hg =>
    cases h' with
    | here _ => exact ⟨rfl, rfl⟩
    | head hf _ => rw [isGroup_of_form hf] at hg; cases hg
  | head hf _ ih =>
    cases h' with
    | here hg => rw [isGroup_of_form hf] at hg; cases hg
    | head hf' h' =>
      rw [hf] at hf'
      cases hf'
      obtain ⟨hn, hj⟩ := ih h'
      exact ⟨by omega, hj⟩

theorem HeadsTo.unique (h : HeadsTo s item j) (h' : HeadsTo s item k) : j = k := by
  obtain ⟨n, hn⟩ := h
  obtain ⟨m, hm⟩ := h'
  exact (hn.unique hm).2

/-- The groups on a chain, each with what is left of the chain from there. Different groups have
different rests, so none comes twice. -/
theorem HeadsIn.groups (h : HeadsIn s n item j) :
    ∃ groups : List Nat, groups.length = n ∧ groups.Nodup ∧
      ∀ g ∈ groups, (s.node g).isGroup = true ∧ ∃ m, 0 < m ∧ m ≤ n ∧ HeadsIn s m (.node g) j := by
  induction h with
  | here _ => exact ⟨[], rfl, List.nodup_nil, by simp⟩
  | @head n i j role head tails d c hf hn ih =>
    obtain ⟨groups, hlen, hnodup, hgroups⟩ := ih
    have hi : HeadsIn s (n + 1) (.node i) j := .head hf hn
    refine ⟨i :: groups, by simp [hlen], List.nodup_cons.2 ⟨?_, hnodup⟩, ?_⟩
    · intro hmem
      obtain ⟨_, m, _, hm, hrest⟩ := hgroups i hmem
      have := (hi.unique hrest).1
      omega
    · intro g hg
      rcases List.mem_cons.1 hg with rfl | hg
      · exact ⟨isGroup_of_form hf, n + 1, by omega, Nat.le_refl _, hi⟩
      · obtain ⟨hgroup, m, hpos, hm, hrest⟩ := hgroups g hg
        exact ⟨hgroup, m, hpos, by omega, hrest⟩

theorem HeadsIn.le_size (h : HeadsIn s n item j) : n ≤ s.nodes.size := by
  obtain ⟨groups, hlen, hnodup, hgroups⟩ := h.groups
  have hsub : groups ⊆ List.range s.nodes.size := by
    intro g hg
    exact List.mem_range.2 (lt_size_of_isGroup (hgroups g hg).1)
  have hle := (List.subperm_of_subset hnodup hsub).length_le
  rw [List.length_range] at hle
  omega

theorem entryWithin_of_headsIn (h : HeadsIn s n item j) :
    ∀ fuel, n < fuel → s.entryWithin fuel item = .ok j := by
  induction h with
  | here hg =>
    intro fuel hfuel
    obtain ⟨fuel, rfl⟩ : ∃ k, fuel = k + 1 := ⟨fuel - 1, by omega⟩
    unfold Store.entryWithin
    split
    · rename_i hf; rw [isGroup_of_form hf] at hg; cases hg
    · rfl
  | head hf _ ih =>
    intro fuel hfuel
    obtain ⟨fuel, rfl⟩ : ∃ k, fuel = k + 1 := ⟨fuel - 1, by omega⟩
    unfold Store.entryWithin
    rw [hf]
    exact ih fuel (by omega)

theorem HeadsTo.entry (h : HeadsTo s item j) : s.entry item = .ok j := by
  obtain ⟨n, hn⟩ := h
  have := hn.le_size
  exact entryWithin_of_headsIn hn _ (by omega)

theorem headsTo_of_entryWithin : ∀ {fuel item}, s.entryWithin fuel item = .ok j → HeadsTo s item j
  | 0, _, h => by cases h
  | fuel + 1, .nothing, h => by cases h
  | fuel + 1, .link _, h => by cases h
  | fuel + 1, .node i, h => by
    unfold Store.entryWithin at h
    split at h
    · rename_i hf
      exact HeadsTo.of_group hf (headsTo_of_entryWithin h)
    · rename_i hng
      cases h
      refine HeadsTo.of_not_group ?_
      cases hg : (s.node j).isGroup with
      | false => rfl
      | true =>
        obtain ⟨role, head, tails, d, c, hf⟩ := form_of_isGroup hg
        exact absurd hf (hng role head tails d c)

theorem entry_eq_ok_iff : s.entry item = .ok j ↔ HeadsTo s item j :=
  ⟨headsTo_of_entryWithin, HeadsTo.entry⟩

theorem nameWithin_of_headsIn (h : HeadsIn s n item j) :
    ∀ i, item = .node i → ∀ fuel, n < fuel → s.nameWithin fuel i = (s.node j).name := by
  induction h with
  | @here i hg =>
    rintro _ ⟨rfl⟩ fuel hfuel
    obtain ⟨fuel, rfl⟩ : ∃ k, fuel = k + 1 := ⟨fuel - 1, by omega⟩
    unfold Store.nameWithin
    split
    · rename_i hf; rw [isGroup_of_form hf] at hg; cases hg
    · rename_i hf; rw [isGroup_of_form hf] at hg; cases hg
    · rfl
  | @head n i j role head tails d c hf hn ih =>
    rintro _ ⟨rfl⟩ fuel hfuel
    obtain ⟨fuel, rfl⟩ : ∃ k, fuel = k + 1 := ⟨fuel - 1, by omega⟩
    obtain ⟨h, rfl⟩ : ∃ h, head = .node h := by cases hn <;> exact ⟨_, rfl⟩
    unfold Store.nameWithin
    rw [hf]
    exact ih h rfl fuel (by omega)

/-- A node is called like the node at which its chain of heads ends. -/
theorem HeadsTo.name (h : HeadsTo s (.node i) j) : s.name i = (s.node j).name := by
  obtain ⟨n, hn⟩ := h
  have := hn.le_size
  exact nameWithin_of_headsIn hn i rfl _ (by omega)

end CodeChart.Graph
