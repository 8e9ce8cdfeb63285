import CodeChart.Proofs.Alike

/-! Leaves. The tails of a group are unfolded until no group is left; what is left are the leaves. A
leaf is open unless it is a jump or stands in a return, and the open leaves are where a connection
ends. -/
namespace CodeChart.Graph

def GroupRole.returns : GroupRole → Bool
  | .returning .. => true
  | _ => false

end CodeChart.Graph

namespace CodeChart.Chart

open CodeChart.Graph

/-- A node at which the unfolding ends, and whether it stands in the group of a return. -/
structure Leaf where
  node : Nat
  returned : Bool

/-- The items are unfolded into the leaves, in this order. No node before `lo` is met on the way. -/
inductive Unfolds (s : Store) (lo : Nat) : Bool → List Item → List Leaf → Prop where
  | nil {r : Bool} : Unfolds s lo r [] []
  | leaf {r : Bool} {i : Nat} {rest : List Item} {L : List Leaf} : lo ≤ i → i < s.nodes.size →
      (s.node i).isGroup = false → Unfolds s lo r rest L →
      Unfolds s lo r (.node i :: rest) (⟨i, r⟩ :: L)
  | group {r : Bool} {i : Nat} {rest tails : List Item} {L L' : List Leaf} {role : GroupRole}
      {head : Item} {d c : String} : lo ≤ i → i < s.nodes.size →
      (s.node i).form = .group role head tails d c → Unfolds s lo (r || role.returns) tails L →
      Unfolds s lo r rest L' → Unfolds s lo r (.node i :: rest) (L ++ L')

variable {σ σ' ρ τ τ' : Store} {lo lo' i n : Nat} {r : Bool} {items rest tails : List Item}
  {L L' : List Leaf} {E : List Nat}

namespace Unfolds

theorem single (hlo : lo ≤ i) (hi : i < τ.nodes.size) (hg : (τ.node i).isGroup = false) :
    Unfolds τ lo r [.node i] [⟨i, r⟩] := .leaf hlo hi hg .nil

theorem append (h : Unfolds τ lo r items L) (h' : Unfolds τ lo r rest L') :
    Unfolds τ lo r (items ++ rest) (L ++ L') := by
  induction h with
  | nil => exact h'
  | leaf hlo hi hg _ ih => exact .leaf hlo hi hg (ih h')
  | group hlo hi hf htails _ _ ih =>
    rw [List.append_assoc]
    exact .group hlo hi hf htails (ih h')

theorem transfer (hsize : τ.nodes.size ≤ τ'.nodes.size)
    (hform : ∀ i, lo ≤ i → i < τ.nodes.size → (τ'.node i).form = (τ.node i).form) (hlo : lo' ≤ lo)
    (h : Unfolds τ lo r items L) : Unfolds τ' lo' r items L := by
  induction h with
  | nil => exact .nil
  | leaf hi hlt hg _ ih =>
    refine .leaf (Nat.le_trans hlo hi) (Nat.lt_of_lt_of_le hlt hsize) ?_ ih
    rwa [Node.isGroup, hform _ hi hlt]
  | group hi hlt hf _ _ ih ih' =>
    exact .group (Nat.le_trans hlo hi) (Nat.lt_of_lt_of_le hlt hsize)
      ((hform _ hi hlt).trans hf) ih ih'

theorem inside (h : Unfolds τ lo r items L) : ∀ l ∈ L, lo ≤ l.node ∧ l.node < τ.nodes.size := by
  induction h with
  | nil => simp
  | leaf hlo hi _ _ ih =>
    intro l hl
    rcases List.mem_cons.1 hl with rfl | hl
    · exact ⟨hlo, hi⟩
    · exact ih l hl
  | group _ _ _ _ _ ih ih' =>
    intro l hl
    rcases List.mem_append.1 hl with hl | hl
    · exact ih l hl
    · exact ih' l hl

/-- A group is unfolded into the leaves of its tails. -/
theorem inner {role head d c} (hf : (τ.node i).form = .group role head tails d c)
    (h : Unfolds τ lo r [.node i] L) : Unfolds τ lo (r || role.returns) tails L := by
  cases h with
  | leaf _ _ hg _ =>
    rw [isGroup_of_form hf] at hg
    cases hg
  | group _ _ hf' htails hrest =>
    rw [hf] at hf'
    cases hf'
    cases hrest
    rwa [List.append_nil]

theorem unique (h : Unfolds τ lo r items L) (h' : Unfolds τ lo' r items L') : L = L' := by
  induction h generalizing L' with
  | nil =>
    cases h'
    rfl
  | leaf _ _ hg _ ih =>
    cases h' with
    | leaf _ _ _ hrest => rw [ih hrest]
    | group _ _ hf _ _ =>
      rw [isGroup_of_form hf] at hg
      cases hg
  | group _ _ hf _ _ ih ih' =>
    cases h' with
    | leaf _ _ hg _ =>
      rw [isGroup_of_form hf] at hg
      cases hg
    | group _ _ hf' htails hrest =>
      rw [hf] at hf'
      cases hf'
      rw [ih htails, ih' hrest]

theorem returned (h : Unfolds τ lo true items L) : ∀ l ∈ L, l.returned = true := by
  generalize hr : true = r at h
  induction h with
  | nil => simp
  | leaf _ _ _ _ ih =>
    subst hr
    simpa using ih rfl
  | group _ _ _ _ _ ih ih' =>
    subst hr
    intro l hl
    rcases List.mem_append.1 hl with hl | hl
    · exact ih rfl l hl
    · exact ih' rfl l hl

end Unfolds

/-- The items are unfolded into distinct leaves, all of them made since `σ`. -/
def Unfolded (σ τ : Store) (r : Bool) (items : List Item) : Prop :=
  ∃ L, Unfolds τ σ.nodes.size r items L ∧ (L.map Leaf.node).Nodup

namespace Unfolded

theorem single (hσ : σ.nodes.size ≤ i) (hi : i < τ.nodes.size) (hg : (τ.node i).isGroup = false) :
    Unfolded σ τ r [.node i] := ⟨_, .single hσ hi hg, List.nodup_singleton i⟩

theorem group {role head d c} (hσ : σ.nodes.size ≤ i)
    (hf : (τ.node i).form = .group role head tails d c)
    (h : Unfolded σ τ (r || role.returns) tails) :
    Unfolded σ τ r [.node i] := by
  obtain ⟨L, hL, hnodup⟩ := h
  refine ⟨L ++ [], .group hσ (lt_size_of_isGroup (isGroup_of_form hf)) hf hL .nil, ?_⟩
  rwa [List.append_nil]

theorem inner {role head d c} (hf : (τ.node i).form = .group role head tails d c)
    (h : Unfolded σ τ r [.node i]) : Unfolded σ τ (r || role.returns) tails := by
  obtain ⟨L, hL, hnodup⟩ := h
  exact ⟨L, hL.inner hf, hnodup⟩

theorem base (h : Unfolded ρ τ r items) (hσ : σ.nodes.size ≤ ρ.nodes.size) :
    Unfolded σ τ r items := by
  obtain ⟨L, hL, hnodup⟩ := h
  exact ⟨L, hL.transfer (Nat.le_refl _) (fun _ _ _ => rfl) hσ, hnodup⟩

theorem alike (ha : Alike τ τ') (h : Unfolded σ τ r items) : Unfolded σ τ' r items := by
  obtain ⟨L, hL, hnodup⟩ := h
  exact ⟨L, hL.transfer (Nat.le_of_eq ha.size.symm) (fun i _ _ => ha.form i) (Nat.le_refl _),
    hnodup⟩

theorem grow (hg : Grows E τ τ') (hE : ∀ i ∈ E, i < σ.nodes.size) (h : Unfolded σ τ r items) :
    Unfolded σ τ' r items := by
  obtain ⟨L, hL, hnodup⟩ := h
  refine ⟨L, hL.transfer hg.size (fun i hlo hi => ?_) (Nat.le_refl _), hnodup⟩
  rw [hg.node i hi fun hmem => by have := hE i hmem; omega]

theorem append (hσ : σ.nodes.size ≤ τ.nodes.size) (hg : Grows E τ τ')
    (hE : ∀ i ∈ E, i < σ.nodes.size) (h : Unfolded σ τ r items) (h' : Unfolded τ τ' r rest) :
    Unfolded σ τ' r (items ++ rest) := by
  obtain ⟨L, hL, hnodup⟩ := h
  obtain ⟨L', hL', hnodup'⟩ := h'
  have hfirst : Unfolds τ' σ.nodes.size r items L := by
    refine hL.transfer hg.size (fun i hlo hi => ?_) (Nat.le_refl _)
    rw [hg.node i hi fun hmem => by have := hE i hmem; omega]
  have hsecond := hL'.transfer (Nat.le_refl _) (fun _ _ _ => rfl) hσ
  refine ⟨L ++ L', hfirst.append hsecond, ?_⟩
  rw [List.map_append]
  refine List.nodup_append.2 ⟨hnodup, hnodup', ?_⟩
  rintro i hi j hj rfl
  obtain ⟨l, hl, rfl⟩ := List.mem_map.1 hi
  obtain ⟨l', hl', he⟩ := List.mem_map.1 hj
  have hbefore := (hL.inside l hl).2
  have hafter := (hL'.inside l' hl').1
  omega

end Unfolded

/-- Whether something can follow a leaf: it is no jump and stands in no return. -/
def Leaf.isOpen (s : Store) (l : Leaf) : Bool :=
  !l.returned && (s.node l.node).form != .box .jump

/-- The nodes of the open leaves. -/
def openNodes (s : Store) (L : List Leaf) : List Nat := (L.filter (Leaf.isOpen s)).map Leaf.node

theorem openNodes_append (s : Store) (L L' : List Leaf) :
    openNodes s (L ++ L') = openNodes s L ++ openNodes s L' := by
  rw [openNodes, List.filter_append, List.map_append]
  rfl

theorem openNodes_returned (h : ∀ l ∈ L, l.returned = true) : openNodes τ L = [] := by
  unfold openNodes
  rw [List.map_eq_nil_iff, List.filter_eq_nil_iff]
  intro l hl
  simp [Leaf.isOpen, h l hl]

end CodeChart.Chart
