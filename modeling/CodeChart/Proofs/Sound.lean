import CodeChart.Proofs.Walk
import CodeChart.Graph.Connect

/-! What holds of every store that is made by operations on nodes: references point to what exists,
links belong to one node each, bridges have a parent, no field is missing, and no mark belongs to
a walk that is still to come. -/
namespace CodeChart.Graph

structure Node.Fits (s : Store) (n : Node) : Prop where
  whole : n.absent = []
  mark : ∀ k, n.mark = some (.pass k) → k < s.passes
  links : ∀ item ∈ n.ownLinks, ∃ l, item = .link l ∧ l < s.links.size
  parent : ∀ answer parent child labels link, n.form = .bridge answer parent child labels link →
    ∃ p, parent = .node p
  head : ∀ role j tails d c, n.form = .group role (.node j) tails d c → j < s.nodes.size

structure Store.Sound (s : Store) : Prop where
  fits : ∀ i, (s.node i).Fits s
  apart : ∀ i j l, Item.link l ∈ (s.node i).ownLinks → Item.link l ∈ (s.node j).ownLinks → i = j
  targets : ∀ l j, (s.link l).target = .node j → j < s.nodes.size
  children : ∀ i answer parent child labels l,
    (s.node i).form = .bridge answer parent child labels (.link l) → (s.link l).target = child

/-- A node, if the item is one, stands in the store. -/
def Item.Within (s : Store) (item : Item) : Prop := ∀ i, item = .node i → i < s.nodes.size

def GroupRole.items : GroupRole → List Item
  | .plain | .chart | .suite => []
  | .function start input head tails finish => start :: input :: head :: finish :: tails
  | .loop test | .branch test | .case test => [test]
  | .returning output finish => [output, finish]
  | .selection cases => cases

def Form.items : Form → List Item
  | .box _ => []
  | .decision _ yes no => [yes, no]
  | .bridge _ parent child _ link => [parent, child, link]
  | .group role head tails _ _ => head :: (tails ++ role.items)

/-- Nothing refers to a node outside the store. -/
def Store.Closed (s : Store) : Prop := ∀ i, ∀ item ∈ (s.node i).form.items, item.Within s

def Store.Unowned (s : Store) (l : Nat) : Prop := ∀ j, Item.link l ∉ (s.node j).ownLinks

variable {s : Store} {i l : Nat}

theorem Node.Fits.mono {s' : Store} {n : Node} (h : n.Fits s) (hp : s.passes ≤ s'.passes)
    (hl : s.links.size ≤ s'.links.size) (hn : s.nodes.size ≤ s'.nodes.size) : n.Fits s' where
  whole := h.whole
  mark k hk := by have := h.mark k hk; omega
  links item hitem := by
    obtain ⟨l, rfl, hlt⟩ := h.links item hitem
    exact ⟨l, rfl, by omega⟩
  parent := h.parent
  head role j tails d c hf := by have := h.head role j tails d c hf; omega

theorem fits_default (s : Store) : (default : Node).Fits s where
  whole := rfl
  mark k hk := by cases hk
  links item hitem := by cases hitem
  parent _ _ _ _ _ hf := by cases hf
  head _ _ _ _ _ hf := by cases hf

theorem sound_empty : ({} : Store).Sound where
  fits i := by
    rw [Store.node_eq_default {} i (Nat.zero_le i)]
    exact fits_default _
  apart i j l hi := by
    rw [Store.node_eq_default {} i (Nat.zero_le i)] at hi
    cases hi
  targets l j h := by
    rw [Store.link_eq_default {} l (Nat.zero_le l)] at h
    cases h
  children i _ _ _ _ _ h := by
    rw [Store.node_eq_default {} i (Nat.zero_le i)] at h
    cases h

namespace Store.Sound

theorem unowned_of_le (h : s.Sound) (hl : s.links.size ≤ l) : s.Unowned l := by
  intro j hj
  obtain ⟨l', he, hlt⟩ := (h.fits j).links _ hj
  cases he
  omega

theorem bridge_link_lt (h : s.Sound) {answer parent child labels l}
    (hf : (s.node i).form = .bridge answer parent child labels (.link l)) : l < s.links.size := by
  have hmem : Item.link l ∈ (s.node i).ownLinks := by simp [Node.ownLinks, hf]
  obtain ⟨l', he, hlt⟩ := (h.fits i).links _ hmem
  cases he
  exact hlt

theorem countId (h : s.Sound) : s.countId.Sound :=
  ⟨fun i => (h.fits i).mono (Nat.le_refl _) (Nat.le_refl _) (Nat.le_refl _), h.apart, h.targets,
    h.children⟩

theorem pushLink (h : s.Sound) {k : Link} (hk : ∀ j, k.target = .node j → j < s.nodes.size) :
    (s.pushLink k).Sound where
  fits i := (h.fits i).mono (Nat.le_refl _) (by simp) (Nat.le_refl _)
  apart := h.apart
  targets l j hl := by
    rw [s.link_pushLink] at hl
    split at hl
    · exact hk j hl
    · exact h.targets l j hl
  children i _ _ _ _ l hf := by
    rw [s.link_pushLink_of_ne l k (Nat.ne_of_lt (h.bridge_link_lt hf))]
    exact h.children i _ _ _ _ l hf

theorem pushNode (h : s.Sound) {n : Node} (hn : n.Fits (s.pushNode n))
    (hl : ∀ l, Item.link l ∈ n.ownLinks → s.Unowned l)
    (hc : ∀ answer parent child labels l, n.form = .bridge answer parent child labels (.link l) →
      (s.link l).target = child) : (s.pushNode n).Sound where
  fits i := by
    rw [s.node_pushNode]
    split
    · exact hn
    · exact (h.fits i).mono (Nat.le_refl _) (Nat.le_refl _) (by simp)
  apart i j l hi hj := by
    rw [s.node_pushNode] at hi hj
    split at hi <;> split at hj
    · omega
    · exact absurd hj (hl l hi j)
    · exact absurd hi (hl l hj i)
    · exact h.apart i j l hi hj
  targets l j ht := by
    have := h.targets l j ht
    simp only [size_pushNode]
    omega
  children i _ _ _ _ l hf := by
    rw [s.node_pushNode] at hf
    split at hf
    · exact hc _ _ _ _ l hf
    · exact h.children i _ _ _ _ l hf

theorem mapNode (h : s.Sound) {f : Node → Node} (hn : i < s.nodes.size → (f (s.node i)).Fits s)
    (hl : ∀ l, Item.link l ∈ (f (s.node i)).ownLinks → Item.link l ∉ (s.node i).ownLinks →
      s.Unowned l)
    (hc : ∀ answer parent child labels l,
      (f (s.node i)).form = .bridge answer parent child labels (.link l) →
      (s.link l).target = child) : (s.mapNode i f).Sound := by
  by_cases hi : i < s.nodes.size
  · have hown : ∀ j l, j ≠ i → Item.link l ∈ (f (s.node i)).ownLinks →
        Item.link l ∈ (s.node j).ownLinks → False := by
      intro j l hne hf hj
      by_cases hmem : Item.link l ∈ (s.node i).ownLinks
      · exact hne (h.apart j i l hj hmem)
      · exact hl l hf hmem j hj
    refine ⟨?_, ?_, ?_, ?_⟩
    · intro j
      rw [s.node_mapNode_of_lt i j f hi]
      split
      · exact (hn hi).mono (Nat.le_refl _) (Nat.le_refl _) (by simp)
      · exact (h.fits j).mono (Nat.le_refl _) (Nat.le_refl _) (by simp)
    · intro j k l hj hk
      rw [s.node_mapNode_of_lt i j f hi] at hj
      rw [s.node_mapNode_of_lt i k f hi] at hk
      split at hj <;> split at hk
      · omega
      · exact (hown k l (by assumption) hj hk).elim
      · exact (hown j l (by assumption) hk hj).elim
      · exact h.apart j k l hj hk
    · intro l j ht
      simpa using h.targets l j ht
    · intro j _ _ _ _ l hf
      rw [s.node_mapNode_of_lt i j f hi] at hf
      split at hf
      · exact hc _ _ _ _ l hf
      · exact h.children j _ _ _ _ l hf
  · rw [s.mapNode_of_le i f (by omega)]
    exact h

/-- A change that leaves the links of a node as they are, and of a bridge everything. -/
theorem mapNode_of_ownLinks (h : s.Sound) {f : Node → Node} (hn : (f (s.node i)).Fits s)
    (hl : (f (s.node i)).ownLinks = (s.node i).ownLinks)
    (hb : ∀ answer parent child labels link,
      (f (s.node i)).form = .bridge answer parent child labels link →
      (s.node i).form = .bridge answer parent child labels link) : (s.mapNode i f).Sound := by
  refine h.mapNode (fun _ => hn) ?_ ?_
  · intro l hf hne
    rw [hl] at hf
    exact absurd hf hne
  · intro _ _ _ _ l hf
    exact h.children i _ _ _ _ l (hb _ _ _ _ _ hf)

theorem mapLink (h : s.Sound) {g : Link → Link} (hg : (g (s.link l)).target = (s.link l).target) :
    (s.mapLink l g).Sound where
  fits i := (h.fits i).mono (Nat.le_refl _) (by simp) (Nat.le_refl _)
  apart := h.apart
  targets k j hk := by
    by_cases he : k = l
    · by_cases hlt : l < s.links.size
      · rw [s.link_mapLink_of_lt l k g hlt, if_pos he, hg] at hk
        exact h.targets l j hk
      · rw [s.mapLink_of_le l g (by omega)] at hk ⊢
        exact h.targets k j hk
    · rw [s.link_mapLink_of_ne l k g he] at hk
      exact h.targets k j hk
  children i _ _ _ _ k hf := by
    by_cases he : k = l
    · subst he
      rw [s.link_mapLink_self k g (h.bridge_link_lt hf), hg]
      exact h.children i _ _ _ _ k hf
    · rw [s.link_mapLink_of_ne l k g he]
      exact h.children i _ _ _ _ k hf

theorem headsTo_lt (h : s.Sound) {item : Item} {j : Nat} (hh : HeadsTo s item j)
    (hw : item.Within s) : j < s.nodes.size := by
  obtain ⟨n, hn⟩ := hh
  induction hn with
  | here _ => exact hw _ rfl
  | @head n i j role head tails d c hf hn ih =>
    refine ih ?_
    rintro k rfl
    exact (h.fits i).head _ _ _ _ _ hf

theorem within_of_mem_nextItems (h : s.Sound) {item : Item} (hitem : item ∈ s.nextItems i) :
    item.Within s := by
  unfold Store.nextItems at hitem
  obtain ⟨link, hlink, ht⟩ := List.mem_filterMap.1 hitem
  obtain ⟨l, rfl, _⟩ := (h.fits i).links link hlink
  simp only [Store.target?] at ht
  split at ht
  · rename_i j hj
    cases ht
    intro k hk
    cases hk
    exact h.targets l j hj
  · cases ht

theorem reachable_lt (h : s.Sound) {start : Item} (hw : start.Within s) {i : Nat}
    (hi : s.Reachable start i) : i < s.nodes.size := by
  induction hi with
  | entry hh _ => exact h.headsTo_lt hh hw
  | step _ _ hitem hh _ _ => exact h.headsTo_lt hh (h.within_of_mem_nextItems hitem)

theorem walkable (h : s.Sound) {start : Item} (hw : start.Within s)
    (hstart : ∃ j, HeadsTo s start j)
    (hends : ∀ i, s.Reachable start i → ∀ item ∈ s.nextItems i, ∃ j, HeadsTo s item j) :
    Walkable s start where
  starts := hstart
  leads := hends
  within _ hi := h.reachable_lt hw hi
  present i _ := (h.fits i).whole

end Store.Sound

theorem within_nothing (s : Store) : Item.nothing.Within s := fun _ h => nomatch h

theorem within_link (s : Store) (l : Nat) : (Item.link l).Within s := fun _ h => nomatch h

theorem within_node {s : Store} {i : Nat} : (Item.node i).Within s ↔ i < s.nodes.size :=
  ⟨fun h => h i rfl, fun h _ hi => by cases hi; exact h⟩

theorem Item.Within.mono {s t : Store} {item : Item} (h : item.Within s)
    (hle : s.nodes.size ≤ t.nodes.size) : item.Within t :=
  fun i hi => Nat.lt_of_lt_of_le (h i hi) hle

namespace Store.Closed

theorem empty : ({} : Store).Closed := by
  intro i
  rw [Store.node_eq_default {} i (Nat.zero_le i)]
  exact List.forall_mem_nil _

theorem of_nodes {t : Store} (h : s.Closed) (hn : t.nodes = s.nodes) : t.Closed := by
  unfold Store.Closed Store.node Item.Within
  rw [hn]
  exact h

theorem pushNode (h : s.Closed) {n : Node}
    (hn : ∀ item ∈ n.form.items, item.Within s) : (s.pushNode n).Closed := by
  intro i item
  rw [s.node_pushNode]
  split
  · exact fun hitem => (hn item hitem).mono (by simp)
  · exact fun hitem => (h i item hitem).mono (by simp)

theorem mapNode (h : s.Closed) {f : Node → Node}
    (hf : ∀ item ∈ (f (s.node i)).form.items, item.Within s) : (s.mapNode i f).Closed := by
  by_cases hi : i < s.nodes.size
  · intro j item
    rw [s.node_mapNode_of_lt i j f hi]
    split
    · exact fun hitem => (hf item hitem).mono (by simp)
    · exact fun hitem => (h j item hitem).mono (by simp)
  · rw [s.mapNode_of_le i f (by omega)]
    exact h

theorem mapForm (h : s.Closed) {f : Node → Node} (hform : (f (s.node i)).form = (s.node i).form) :
    (s.mapNode i f).Closed :=
  h.mapNode fun item hitem => h i item (hform ▸ hitem)

end Store.Closed

end CodeChart.Graph
