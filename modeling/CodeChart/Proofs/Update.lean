import CodeChart.Proofs.Action
import Mathlib.Tactic.Common

/-! The changes that actions make to a store, as functions on stores, and what is found in a store
after each of them. -/
namespace CodeChart.Graph

/-- The links that a node draws. A bridge has the one under its own name. -/
def Node.ownLinks (n : Node) : List Item :=
  match n.form with
  | .bridge _ _ _ _ link => [link]
  | _ => n.links

theorem setParam_eq (n : Node) (key value : String) :
    ∃ params, n.setParam key value = { n with params } := by
  unfold Node.setParam
  split
  · exact ⟨_, rfl⟩
  · split <;> exact ⟨_, rfl⟩

theorem field_setParam {α : Type} (field : Node → α)
    (hfield : ∀ n params, field { n with params } = field n) (n : Node) (key value : String) :
    field (n.setParam key value) = field n := by
  obtain ⟨params, heq⟩ := setParam_eq n key value
  rw [heq, hfield]

section

variable {α : Type} (xs : Array α) {i j : Nat} (f : α → α)

theorem getD_modify (d : α) (h : i < xs.size) :
    (xs.modify i f).getD j d = if j = i then f (xs.getD i d) else xs.getD j d := by
  simp only [Array.getD_eq_getD_getElem?, Array.getElem?_modify]
  by_cases hj : j = i
  · subst hj
    simp [Array.getElem?_eq_getElem h]
  · simp [hj, Ne.symm hj]

theorem modify_of_le (h : xs.size ≤ i) : xs.modify i f = xs := by
  apply Array.ext
  · simp
  · intro k hk _
    rw [Array.getElem_modify]
    rw [if_neg (by simp at hk; omega)]

theorem modify_id : xs.modify i id = xs :=
  Array.ext (by simp) fun j _ _ => by simp [Array.getElem_modify]

end

namespace Store

def countId (s : Store) : Store := { s with nextId := s.nextId + 1 }

def pushNode (s : Store) (n : Node) : Store := { s with nodes := s.nodes.push n }

def pushLink (s : Store) (k : Link) : Store := { s with links := s.links.push k }

def mapNode (s : Store) (i : Nat) (f : Node → Node) : Store :=
  { s with nodes := s.nodes.modify i f }

def mapLink (s : Store) (l : Nat) (f : Link → Link) : Store :=
  { s with links := s.links.modify l f }

def countPass (s : Store) : Store := { s with passes := s.passes + 1 }

variable (s : Store) (i l j : Nat) (n : Node) (k : Link) (f : Node → Node) (g : Link → Link)

@[simp] theorem node_countId : s.countId.node i = s.node i := rfl
@[simp] theorem node_countPass : s.countPass.node i = s.node i := rfl
@[simp] theorem node_pushLink : (s.pushLink k).node i = s.node i := rfl
@[simp] theorem node_mapLink : (s.mapLink l g).node i = s.node i := rfl
@[simp] theorem link_countId : s.countId.link l = s.link l := rfl
@[simp] theorem link_countPass : s.countPass.link l = s.link l := rfl
@[simp] theorem link_pushNode : (s.pushNode n).link l = s.link l := rfl
@[simp] theorem link_mapNode : (s.mapNode i f).link l = s.link l := rfl

@[simp] theorem size_countId : s.countId.nodes.size = s.nodes.size := rfl
@[simp] theorem size_countPass : s.countPass.nodes.size = s.nodes.size := rfl
@[simp] theorem size_pushLink : (s.pushLink k).nodes.size = s.nodes.size := rfl
@[simp] theorem size_mapLink : (s.mapLink l g).nodes.size = s.nodes.size := rfl
@[simp] theorem size_pushNode : (s.pushNode n).nodes.size = s.nodes.size + 1 := Array.size_push _
@[simp] theorem size_mapNode : (s.mapNode i f).nodes.size = s.nodes.size := Array.size_modify

@[simp] theorem linkCount_countId : s.countId.links.size = s.links.size := rfl
@[simp] theorem linkCount_countPass : s.countPass.links.size = s.links.size := rfl
@[simp] theorem linkCount_pushNode : (s.pushNode n).links.size = s.links.size := rfl
@[simp] theorem linkCount_mapNode : (s.mapNode i f).links.size = s.links.size := rfl
@[simp] theorem linkCount_pushLink : (s.pushLink k).links.size = s.links.size + 1 :=
  Array.size_push _
@[simp] theorem linkCount_mapLink : (s.mapLink l g).links.size = s.links.size :=
  Array.size_modify

@[simp] theorem passes_countId : s.countId.passes = s.passes := rfl
@[simp] theorem passes_pushNode : (s.pushNode n).passes = s.passes := rfl
@[simp] theorem passes_pushLink : (s.pushLink k).passes = s.passes := rfl
@[simp] theorem passes_mapNode : (s.mapNode i f).passes = s.passes := rfl
@[simp] theorem passes_mapLink : (s.mapLink l g).passes = s.passes := rfl
@[simp] theorem passes_countPass : s.countPass.passes = s.passes + 1 := rfl

@[simp] theorem nextId_countId : s.countId.nextId = s.nextId + 1 := rfl
@[simp] theorem nextId_pushNode : (s.pushNode n).nextId = s.nextId := rfl
@[simp] theorem nextId_pushLink : (s.pushLink k).nextId = s.nextId := rfl
@[simp] theorem nextId_mapNode : (s.mapNode i f).nextId = s.nextId := rfl
@[simp] theorem nextId_mapLink : (s.mapLink l g).nextId = s.nextId := rfl
@[simp] theorem nextId_countPass : s.countPass.nextId = s.nextId := rfl

theorem node_eq_default (h : s.nodes.size ≤ i) : s.node i = default := by
  unfold node
  rw [Array.getD_eq_getD_getElem?, Array.getElem?_eq_none h]
  rfl

theorem link_eq_default (h : s.links.size ≤ l) : s.link l = default := by
  unfold link
  rw [Array.getD_eq_getD_getElem?, Array.getElem?_eq_none h]
  rfl

theorem node_pushNode : (s.pushNode n).node i = if i = s.nodes.size then n else s.node i := by
  unfold node pushNode
  rw [Array.getD_eq_getD_getElem?, Array.getElem?_push, Array.getD_eq_getD_getElem?]
  split <;> rfl

theorem link_pushLink : (s.pushLink k).link l = if l = s.links.size then k else s.link l := by
  unfold link pushLink
  rw [Array.getD_eq_getD_getElem?, Array.getElem?_push, Array.getD_eq_getD_getElem?]
  split <;> rfl

@[simp] theorem node_pushNode_size : (s.pushNode n).node s.nodes.size = n := by
  simp [node_pushNode]

@[simp] theorem link_pushLink_size : (s.pushLink k).link s.links.size = k := by
  simp [link_pushLink]

theorem node_pushNode_of_ne (h : i ≠ s.nodes.size) : (s.pushNode n).node i = s.node i := by
  simp [node_pushNode, h]

theorem link_pushLink_of_ne (h : l ≠ s.links.size) : (s.pushLink k).link l = s.link l := by
  simp [link_pushLink, h]

theorem node_mapNode_of_lt (h : i < s.nodes.size) :
    (s.mapNode i f).node j = if j = i then f (s.node i) else s.node j :=
  getD_modify s.nodes f default h

theorem link_mapLink_of_lt (h : l < s.links.size) :
    (s.mapLink l g).link j = if j = l then g (s.link l) else s.link j :=
  getD_modify s.links g default h

theorem mapNode_of_le (h : s.nodes.size ≤ i) : s.mapNode i f = s := by
  unfold mapNode
  rw [modify_of_le s.nodes f h]

theorem mapLink_of_le (h : s.links.size ≤ l) : s.mapLink l g = s := by
  unfold mapLink
  rw [modify_of_le s.links g h]

theorem mapNode_mapNode (f' : Node → Node) :
    (s.mapNode i f).mapNode i f' = s.mapNode i (f' ∘ f) := by
  have hm : (s.nodes.modify i f).modify i f' = s.nodes.modify i (f' ∘ f) := by
    apply Array.ext
    · simp
    · intro k hk _
      simp only [Array.getElem_modify, Function.comp_apply]
      split <;> rfl
  unfold mapNode
  rw [hm]

@[simp] theorem mapNode_id : s.mapNode i id = s := by
  unfold mapNode
  rw [modify_id]

@[simp] theorem mapLink_id : s.mapLink l id = s := by
  unfold mapLink
  rw [modify_id]

theorem node_mapNode_self (h : i < s.nodes.size) : (s.mapNode i f).node i = f (s.node i) := by
  simp [node_mapNode_of_lt, h]

theorem node_mapNode_of_ne (h : j ≠ i) : (s.mapNode i f).node j = s.node j := by
  by_cases hi : i < s.nodes.size
  · simp [node_mapNode_of_lt, hi, h]
  · rw [mapNode_of_le s i f (by omega)]

theorem link_mapLink_self (h : l < s.links.size) : (s.mapLink l g).link l = g (s.link l) := by
  simp [link_mapLink_of_lt, h]

theorem link_mapLink_of_ne (h : j ≠ l) : (s.mapLink l g).link j = s.link j := by
  by_cases hl : l < s.links.size
  · simp [link_mapLink_of_lt, hl, h]
  · rw [mapLink_of_le s l g (by omega)]

theorem node_mapNode_keeps {P : Node → Prop} (h : P (s.node j))
    (hf : j = i → P (f (s.node j))) : P ((s.mapNode i f).node j) := by
  by_cases hj : j = i
  · by_cases hi : i < s.nodes.size
    · rw [node_mapNode_of_lt s i j f hi, if_pos hj]
      exact hj ▸ hf hj
    · rwa [mapNode_of_le s i f (by omega)]
  · rwa [node_mapNode_of_ne s i j f hj]

end Store

section

variable (s : Store) (i l : Nat)

theorem takeId_run : takeId s = .ok s.nextId s.countId := rfl

theorem addLink_run (target : Item) (labels : List Label) :
    addLink target labels s = .ok s.links.size (s.pushLink ⟨target, labels⟩) := rfl

theorem modifyNode_run (f : Node → Node) : modifyNode i f s = .ok () (s.mapNode i f) := rfl

theorem modifyNode_congr {f g : Node → Node} (h : ∀ n, f n = g n) :
    modifyNode i f s = .ok () (s.mapNode i g) := by
  rw [funext h]
  rfl

theorem getNode_run : getNode i s = .ok (s.node i) s := rfl

theorem getLink_run : getLink l s = .ok (s.link l) s := rfl

theorem present_of_not_absent {α : Type} {field : String} (value : α)
    (h : (s.node i).absent.contains field = false) : present i field value s = .ok value s := by
  unfold present
  rw [bind_ok (getNode_run s i), h]
  rfl

theorem present_run {α : Type} (field : String) (value : α) (h : (s.node i).absent = []) :
    present i field value s = .ok value s :=
  present_of_not_absent s i value (by rw [h]; rfl)

theorem linksOf_of_not_absent (h : (s.node i).absent.contains "connections" = false) :
    linksOf i s = .ok (s.node i).ownLinks s := by
  unfold linksOf Node.ownLinks
  rw [bind_ok (getNode_run s i)]
  cases (s.node i).form <;> exact present_of_not_absent s i _ h

theorem linksOf_run (h : (s.node i).absent = []) : linksOf i s = .ok (s.node i).ownLinks s :=
  linksOf_of_not_absent s i (by rw [h]; rfl)

theorem appendLink_of_not_absent (item : Item)
    (h : (s.node i).absent.contains "connections" = false) :
    appendLink i item s = .ok () (s.mapNode i fun n => { n with links := n.links ++ [item] }) := by
  unfold appendLink
  rw [bind_ok (linksOf_of_not_absent s i h)]
  rfl

theorem appendLink_run (item : Item) (h : (s.node i).absent = []) :
    appendLink i item s = .ok () (s.mapNode i fun n => { n with links := n.links ++ [item] }) :=
  appendLink_of_not_absent s i item (by rw [h]; rfl)

end

end CodeChart.Graph
