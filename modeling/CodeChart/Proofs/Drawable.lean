import CodeChart.Proofs.Growth
import CodeChart.Proofs.Rendering

/-! Stores stay drawable. New nodes, new links and changes of a node that leave its links alone keep
a store drawable, whatever the nodes lead to. A link may be given to a node if no other node has
it. -/
namespace CodeChart.Graph

variable {s : Store} {i l : Nat}

/-- The first node can be drawn wherever the second one can. -/
structure Node.DrawsLike (m n : Node) : Prop where
  links : m.ownLinks = n.ownLinks
  bridge : ∀ answer parent child labels link, m.form = .bridge answer parent child labels link →
    n.form = .bridge answer parent child labels link
  mark : m.mark = n.mark
  whole : "connections" ∈ m.absent → "connections" ∈ n.absent

theorem Node.DrawsLike.refl (n : Node) : n.DrawsLike n :=
  ⟨rfl, fun _ _ _ _ _ hf => hf, rfl, fun hmem => hmem⟩

theorem Node.DrawsLike.of_eq {m n : Node} (hform : m.form = n.form) (hlinks : m.links = n.links)
    (hmark : m.mark = n.mark) (habsent : m.absent = n.absent) : m.DrawsLike n where
  links := by
    unfold Node.ownLinks
    rw [hform, hlinks]
  bridge _ _ _ _ _ hf := hform ▸ hf
  mark := hmark
  whole hmem := habsent ▸ hmem

theorem Node.DrawsLike.setAnswer (n : Node) (answer : Answer) (item : Item) :
    (n.setAnswer answer item).DrawsLike n where
  links := ownLinks_setAnswer n answer item
  bridge _ _ _ _ _ := (bridge_setAnswer n answer item).1
  mark := mark_setAnswer n answer item
  whole := by
    unfold Node.setAnswer Node.restore
    cases n.form <;> cases answer <;> simp

theorem Node.DrawsLike.regroup (n : Node)
    (f : GroupRole → Item → List Item → GroupRole × Item × List Item) :
    (n.regroup f).DrawsLike n := by
  cases hg : n.isGroup with
  | false =>
    rw [regroup_of_not_group f hg]
    exact .refl n
  | true =>
    unfold Node.isGroup at hg
    cases hf : n.form with
    | group role head tails d c =>
      rw [regroup_of_group f hf]
      refine ⟨by simp [Node.ownLinks, hf], ?_, rfl, fun hmem => hmem⟩
      rintro _ _ _ _ _ ⟨⟩
    | _ =>
      rw [hf] at hg
      cases hg

namespace Store.Drawable

theorem unowned_of_le (h : s.Drawable) (hl : s.links.size ≤ l) : s.Unowned l := by
  intro j hj
  have hlt := h.inside j l hj
  omega

theorem not_mem_absent (h : s.Drawable) (i : Nat) : "connections" ∉ (s.node i).absent := by
  have hwhole := h.whole i
  simpa using hwhole

theorem of_not_mem {n : Node} (h : "connections" ∉ n.absent) :
    n.absent.contains "connections" = false := by
  simpa using h

theorem countId (h : s.Drawable) : s.countId.Drawable :=
  ⟨h.apart, h.whole, h.inside, h.bridge, h.mark⟩

theorem pushLink (h : s.Drawable) (k : Link) : (s.pushLink k).Drawable where
  apart := h.apart
  whole := h.whole
  inside i l hl := by
    have hlt := h.inside i l hl
    rw [linkCount_pushLink]
    omega
  bridge := h.bridge
  mark := h.mark

theorem mapLink (h : s.Drawable) (l : Nat) (f : Link → Link) : (s.mapLink l f).Drawable where
  apart := h.apart
  whole := h.whole
  inside i k hk := by
    rw [linkCount_mapLink]
    exact h.inside i k hk
  bridge := h.bridge
  mark := h.mark

theorem pushNode (h : s.Drawable) {n : Node} (hwhole : "connections" ∉ n.absent)
    (hmark : n.mark = none)
    (hown : ∀ l, Item.link l ∈ n.ownLinks → l < s.links.size ∧ s.Unowned l)
    (hbridge : ∀ answer parent child labels link, n.form = .bridge answer parent child labels link →
      ∃ p l, parent = .node p ∧ link = .link l) : (s.pushNode n).Drawable where
  apart i j l hi hj := by
    rw [s.node_pushNode] at hi hj
    split at hi <;> split at hj
    · omega
    · exact absurd hj ((hown l hi).2 j)
    · exact absurd hi ((hown l hj).2 i)
    · exact h.apart i j l hi hj
  whole i := by
    rw [s.node_pushNode]
    split
    · exact of_not_mem hwhole
    · exact h.whole i
  inside i l hl := by
    rw [s.node_pushNode] at hl
    split at hl
    · exact (hown l hl).1
    · exact h.inside i l hl
  bridge i answer parent child labels link hf := by
    rw [s.node_pushNode] at hf
    split at hf
    · exact hbridge _ _ _ _ _ hf
    · exact h.bridge i _ _ _ _ _ hf
  mark i k hk := by
    rw [s.node_pushNode] at hk
    split at hk
    · rw [hmark] at hk
      cases hk
    · exact h.mark i k hk

theorem pushFresh (h : s.Drawable) {n : Node} (hn : n.Fresh) : (s.pushNode n).Drawable := by
  refine h.pushNode (by simp [hn.whole]) hn.unmarked ?_ ?_
  · intro l hl
    rw [hn.bare] at hl
    cases hl
  · intro answer parent child labels link hf
    exact absurd hf (hn.parent _ _ _ _ _)

theorem mapNode (h : s.Drawable) {f : Node → Node}
    (hown : ∀ l, Item.link l ∈ (f (s.node i)).ownLinks →
      Item.link l ∈ (s.node i).ownLinks ∨ l < s.links.size ∧ s.Unowned l)
    (hbridge : ∀ answer parent child labels link,
      (f (s.node i)).form = .bridge answer parent child labels link →
      ∃ p l, parent = .node p ∧ link = .link l)
    (hmark : (f (s.node i)).mark = (s.node i).mark)
    (hwhole : "connections" ∈ (f (s.node i)).absent → "connections" ∈ (s.node i).absent) :
    (s.mapNode i f).Drawable := by
  have hother : ∀ j l, j ≠ i → Item.link l ∈ (s.node j).ownLinks →
      Item.link l ∉ (f (s.node i)).ownLinks := by
    intro j l hne hj hf
    rcases hown l hf with hi | ⟨-, hu⟩
    · exact hne (h.apart j i l hj hi)
    · exact hu j hj
  by_cases hi : i < s.nodes.size
  · -- one node is changed and all others are as before, so each field is split at that node
    have hnode := fun j => s.node_mapNode_of_lt i j f hi
    constructor
    case apart =>
      intro j k l hj hk
      rw [hnode] at hj hk
      split at hj <;> split at hk
      · omega
      · exact absurd hj (hother k l (by assumption) hk)
      · exact absurd hk (hother j l (by assumption) hj)
      · exact h.apart j k l hj hk
    case whole =>
      intro j
      rw [hnode]
      split
      · exact of_not_mem fun hmem => h.not_mem_absent i (hwhole hmem)
      · exact h.whole j
    case inside =>
      intro j l hl
      rw [hnode] at hl
      split at hl
      · rcases hown l hl with hl | ⟨hlt, -⟩
        · exact h.inside i l hl
        · exact hlt
      · exact h.inside j l hl
    case bridge =>
      intro j answer parent child labels link hf
      rw [hnode] at hf
      split at hf
      · exact hbridge _ _ _ _ _ hf
      · exact h.bridge j _ _ _ _ _ hf
    case mark =>
      intro j k hk
      rw [hnode] at hk
      split at hk
      · rw [hmark] at hk
        exact h.mark i k hk
      · exact h.mark j k hk
  · rw [s.mapNode_of_le i f (by omega)]
    exact h

theorem change (h : s.Drawable) (i : Nat) {f : Node → Node} (hf : ∀ n, (f n).DrawsLike n) :
    (s.mapNode i f).Drawable := by
  have hlike := hf (s.node i)
  refine h.mapNode ?_ ?_ hlike.mark hlike.whole
  · intro l hl
    rw [hlike.links] at hl
    exact .inl hl
  · intro answer parent child labels link hbridge
    exact h.bridge i _ _ _ _ _ (hlike.bridge _ _ _ _ _ hbridge)

theorem appendOwn (h : s.Drawable) (i : Nat) (hl : l < s.links.size) (hu : s.Unowned l) :
    (s.mapNode i fun n => { n with links := n.links ++ [.link l] }).Drawable := by
  refine h.mapNode ?_ (h.bridge i) rfl id
  intro k hk
  have hown : Item.link k ∈ (s.node i).ownLinks ∨ k = l := by
    unfold Node.ownLinks at hk ⊢
    cases hf : (s.node i).form <;> simp_all
  rcases hown with hown | rfl
  · exact .inl hown
  · exact .inr ⟨hl, hu⟩

theorem withLink (h : s.Drawable) (i : Nat) (target : Item) (labels : List Label) :
    (s.withLink i target labels).Drawable := by
  refine (h.pushLink ⟨target, labels⟩).appendOwn i ?_ ?_
  · rw [linkCount_pushLink]
    omega
  · exact h.unowned_of_le (Nat.le_refl _)

theorem withBridge (h : s.Drawable) (answer : Bool) (parent : Nat) (child : Item)
    (labels : List Label) :
    (s.withBridge answer (.node parent) child labels).Drawable := by
  refine (h.countId.pushLink ⟨child, labels⟩).pushNode (by simp) rfl ?_ ?_
  · intro l hl
    cases List.mem_singleton.1 hl
    refine ⟨?_, h.unowned_of_le (Nat.le_refl _)⟩
    rw [linkCount_pushLink]
    exact Nat.lt_succ_self _
  · rintro _ _ _ _ _ ⟨⟩
    exact ⟨_, _, rfl, rfl⟩

theorem moveBridge (h : s.Drawable) (i : Nat) (target : Item) (labels : List Label) :
    (s.moveBridge i target labels).Drawable := by
  unfold Store.moveBridge
  cases hf : (s.node i).form with
  | bridge answer parent child old link =>
    obtain ⟨p, l, rfl, rfl⟩ := h.bridge i _ _ _ _ _ hf
    refine (h.pushLink ⟨target, bridgeLabels answer old labels⟩).mapNode ?_ ?_ rfl id
    · intro k hk
      cases List.mem_singleton.1 hk
      refine .inr ⟨?_, h.unowned_of_le (Nat.le_refl _)⟩
      rw [linkCount_pushLink]
      exact Nat.lt_succ_self _
    · rintro _ _ _ _ _ ⟨⟩
      exact ⟨_, _, rfl, rfl⟩
  | _ => exact h

theorem withAnswer (h : s.Drawable) (i : Nat) (answer : Answer) (target : Item)
    (direction : Label) :
    (s.withAnswer i answer target direction).Drawable := by
  have hb := h.withBridge true i target [some answer.word]
  have hk := hb.pushLink ⟨.node s.nodes.size, [some answer.word, direction]⟩
  have hlike :=
    Node.DrawsLike.setAnswer ((s.withAnswerLink i answer target direction).node i) answer
      (.link (s.links.size + 1))
  refine hk.mapNode ?_ ?_ hlike.mark hlike.whole
  · intro l hl
    rcases mem_ownLinks_addAnswer _ answer _ _ hl with hl | hl
    · exact .inl hl
    · cases hl
      exact .inr ⟨by simp, hb.unowned_of_le (by simp)⟩
  · intro answer' parent child labels link hf
    exact hk.bridge i _ _ _ _ _ (hlike.bridge _ _ _ _ _ hf)

theorem newLink_run (h : s.Drawable) (i : Nat) (target : Item) (labels : List Label) :
    (do let l ← addLink target labels; appendLink i (.link l) : Action Unit) s
      = .ok () (s.withLink i target labels) :=
  appendLink_of_not_absent _ i _ ((h.pushLink ⟨target, labels⟩).whole i)

theorem connectAnswer_run (h : s.Drawable) (i : Nat) (answer : Answer) (target : Item)
    (direction : Label) : connectAnswer i answer target direction s
      = .ok s.nodes.size (s.withAnswer i answer target direction) := by
  have hb := h.withBridge true i target [some answer.word]
  have hk := hb.pushLink ⟨.node s.nodes.size, [some answer.word, direction]⟩
  have hset := hk.change i fun n => .setAnswer n answer (.link (s.links.size + 1))
  exact connectAnswer_of_present i answer target direction (hset.whole i)

end Store.Drawable

end CodeChart.Graph
