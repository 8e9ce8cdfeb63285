import CodeChart.Proofs.Interleaving

/-! What lasts while a graph is put together. Nodes keep their kind and their links, bridges also
their parents, names and labels, groups their tails; links keep their targets and labels. Whatever a
connection has been given is still there when the graph is drawn. -/
namespace CodeChart.Graph

variable {σ τ υ : Store} {n m : Node}

def Form.isBridge : Form → Bool
  | .bridge .. => true
  | _ => false

def Form.Evolves : Form → Form → Prop
  | .box shape, .box shape' => shape' = shape
  | .decision role .., .decision role' .. => role' = role
  | .bridge answer parent _ labels _, .bridge answer' parent' _ labels' _ =>
    answer' = answer ∧ parent' = parent ∧ labels ⊆ labels'
  | .group role _ tails .., .group role' _ tails' .. => role' = role ∧ tails ⊆ tails'
  | _, _ => False

namespace Form.Evolves

variable {f g k : Form}

theorem refl (f : Form) : f.Evolves f := by
  cases f <;> simp [Form.Evolves]

theorem trans (h : f.Evolves g) (h' : g.Evolves k) : f.Evolves k := by
  cases f <;> cases g <;> try exact h.elim
  all_goals cases k <;> try exact h'.elim
  · exact Eq.trans h' h
  · exact Eq.trans h' h
  · exact ⟨h'.1.trans h.1, h'.2.1.trans h.2.1, List.Subset.trans h.2.2 h'.2.2⟩
  · exact ⟨h'.1.trans h.1, List.Subset.trans h.2 h'.2⟩

theorem isBridge_eq (h : f.Evolves g) : g.isBridge = f.isBridge := by
  cases f <;> cases g <;> first | rfl | exact h.elim

theorem takesLinks_eq (h : f.Evolves g) : g.takesLinks = f.takesLinks := by
  cases f <;> cases g <;> try exact h.elim
  · rw [show _ = _ from h]
  · simp only [Form.takesLinks, show _ = _ from h]
  · rfl
  · rfl

theorem bridge {answer parent child labels link}
    (h : (Form.bridge answer parent child labels link).Evolves g) :
    ∃ child' labels' link', g = .bridge answer parent child' labels' link' ∧ labels ⊆ labels' := by
  cases g with
  | bridge answer' parent' child' labels' link' =>
    obtain ⟨rfl, rfl, hlabels⟩ := h
    exact ⟨_, _, _, rfl, hlabels⟩
  | box _ => exact h.elim
  | decision _ _ _ => exact h.elim
  | group _ _ _ _ _ => exact h.elim

theorem group {role head tails d c} (h : (Form.group role head tails d c).Evolves g) :
    ∃ head' tails' d' c', g = .group role head' tails' d' c' ∧ tails ⊆ tails' := by
  cases g with
  | group role' head' tails' d' c' =>
    obtain ⟨rfl, htails⟩ := h
    exact ⟨_, _, _, _, rfl, htails⟩
  | box _ => exact h.elim
  | decision _ _ _ => exact h.elim
  | bridge _ _ _ _ _ => exact h.elim

theorem isFinal_eq (h : f.Evolves g) : g.isFinal = f.isFinal := by
  cases f with
  | group role head tails d c =>
    obtain ⟨_, _, _, _, rfl, -⟩ := h.group
    cases role <;> rfl
  | box shape => cases g <;> first | exact h.elim | rw [show _ = _ from h]
  | decision role yes no => cases g <;> first | rfl | exact h.elim
  | bridge answer parent child labels link => cases g <;> first | rfl | exact h.elim

end Form.Evolves

/-- What may become of a node: no link of it is lost, and a bridge gets no other name. -/
structure Node.Evolves (n m : Node) : Prop where
  form : n.form.Evolves m.form
  links : n.links ⊆ m.links
  name : n.form.isBridge = true → m.name = n.name

namespace Node.Evolves

theorem refl (n : Node) : n.Evolves n := ⟨.refl _, List.Subset.refl _, fun _ => rfl⟩

theorem trans {k : Node} (h : n.Evolves m) (h' : m.Evolves k) : n.Evolves k where
  form := h.form.trans h'.form
  links := List.Subset.trans h.links h'.links
  name hb := (h'.name (h.form.isBridge_eq.trans hb)).trans (h.name hb)

theorem of_plain (hform : m.form = n.form) (hlinks : m.links = n.links) (hname : m.name = n.name) :
    n.Evolves m where
  form := hform ▸ .refl _
  links := by rw [hlinks]; exact List.Subset.refl _
  name _ := hname

theorem addAnswer (n : Node) (answer : Answer) (l : Nat) : n.Evolves (n.addAnswer answer l) where
  form := by
    cases answer <;> cases hf : n.form <;>
      simp [Node.addAnswer, Node.setAnswer, Node.restore, Form.Evolves, hf]
  links := List.subset_append_left _ _
  name hb := by
    cases answer <;> cases hf : n.form <;>
      simp [Node.addAnswer, Node.setAnswer, hf, Form.isBridge] at hb ⊢

theorem regroup {f : GroupRole → Item → List Item → GroupRole × Item × List Item}
    (hf : ∀ role head tails, (f role head tails).1 = role ∧ tails ⊆ (f role head tails).2.2) :
    n.Evolves (n.regroup f) := by
  cases hform : n.form with
  | group role head tails d c =>
    rw [regroup_of_group f hform]
    refine ⟨?_, List.Subset.refl _, fun _ => rfl⟩
    rw [hform]
    exact hf role head tails
  | box shape =>
    rw [regroup_of_not_group f (by simp [Node.isGroup, hform, Form.isGroup])]
    exact .refl n
  | decision role yes no =>
    rw [regroup_of_not_group f (by simp [Node.isGroup, hform, Form.isGroup])]
    exact .refl n
  | bridge answer parent child labels link =>
    rw [regroup_of_not_group f (by simp [Node.isGroup, hform, Form.isGroup])]
    exact .refl n

end Node.Evolves

structure Later (σ τ : Store) : Prop where
  size : σ.nodes.size ≤ τ.nodes.size
  linkCount : σ.links.size ≤ τ.links.size
  target : ∀ l, l < σ.links.size → (τ.link l).target = (σ.link l).target
  labels : ∀ l, l < σ.links.size → (σ.link l).labels ⊆ (τ.link l).labels
  node : ∀ i, i < σ.nodes.size → (σ.node i).Evolves (τ.node i)

theorem Later.refl (σ : Store) : Later σ σ :=
  ⟨Nat.le_refl _, Nat.le_refl _, fun _ _ => rfl, fun _ _ => List.Subset.refl _, fun _ _ => .refl _⟩

theorem Later.trans (h : Later σ τ) (h' : Later τ υ) : Later σ υ where
  size := Nat.le_trans h.size h'.size
  linkCount := Nat.le_trans h.linkCount h'.linkCount
  target l hl := (h'.target l (Nat.lt_of_lt_of_le hl h.linkCount)).trans (h.target l hl)
  labels l hl := List.Subset.trans (h.labels l hl) (h'.labels l (Nat.lt_of_lt_of_le hl h.linkCount))
  node i hi := (h.node i hi).trans (h'.node i (Nat.lt_of_lt_of_le hi h.size))

theorem Later.mapNode (i : Nat) {f : Node → Node} (hf : (σ.node i).Evolves (f (σ.node i))) :
    Later σ (σ.mapNode i f) := by
  refine ⟨by simp, Nat.le_refl _, fun _ _ => rfl, fun _ _ => List.Subset.refl _, fun j _ => ?_⟩
  refine σ.node_mapNode_keeps i j f (P := (σ.node j).Evolves) (.refl _) ?_
  rintro rfl
  exact hf

section

variable {i l : Nat}

theorem lt_size_of_isBridge (h : (σ.node i).form.isBridge = true) : i < σ.nodes.size := by
  by_contra hi
  rw [σ.node_eq_default i (by omega)] at h
  cases h

theorem lt_size_of_link {item : Item} (h : item ∈ (σ.node i).links) : i < σ.nodes.size := by
  by_contra hi
  rw [σ.node_eq_default i (by omega)] at h
  cases h

theorem lt_linkCount_of_label {label : Label} (h : label ∈ (σ.link l).labels) :
    l < σ.links.size := by
  by_contra hl
  rw [σ.link_eq_default l (by omega)] at h
  cases h

theorem lt_linkCount_of_target {j : Nat} (h : (σ.link l).target = .node j) : l < σ.links.size := by
  by_contra hl
  rw [σ.link_eq_default l (by omega)] at h
  cases h

end

def Store.ToBridge (s : Store) (l : Nat) : Prop :=
  ∃ b, (s.link l).target = .node b ∧ (s.node b).form.isBridge = true ∧ (s.node b).name = ""

theorem Store.ToBridge.later {l : Nat} (h : σ.ToBridge l) (hl : Later σ τ) : τ.ToBridge l := by
  obtain ⟨b, htarget, hbridge, hname⟩ := h
  have hnode := hl.node b (lt_size_of_isBridge hbridge)
  exact ⟨b, (hl.target l (lt_linkCount_of_target htarget)).trans htarget,
    hnode.form.isBridge_eq.trans hbridge, (hnode.name hbridge).trans hname⟩

theorem Store.ToBridge.veiled {l : Nat} (h : σ.ToBridge l) : σ.Veiled l := by
  obtain ⟨b, htarget, hbridge, hname⟩ := h
  refine ⟨b, htarget, ?_⟩
  unfold Store.name Store.nameWithin
  cases hf : (σ.node b).form <;> first | exact hname | (rw [hf] at hbridge; cases hbridge)

/-- The item is a link of the node to a bridge, if there is one at all. -/
def Node.LeadsOver (s : Store) (n : Node) (item : Item) : Prop :=
  item = .nothing ∨ ∃ l, item = .link l ∧ item ∈ n.links ∧ s.ToBridge l

theorem Node.LeadsOver.later {item : Item} (h : n.LeadsOver σ item) (hl : Later σ τ)
    (hlinks : n.links ⊆ m.links) : m.LeadsOver τ item := by
  rcases h with hnone | ⟨l, hitem, hmem, hbridge⟩
  · exact .inl hnone
  · exact .inr ⟨l, hitem, hlinks hmem, hbridge.later hl⟩

/-- How nodes stand that were put together by hand: decisions are plain and lead to their answers
over bridges, and the link of a bridge has all labels of the bridge. -/
structure Node.Settled (s : Store) (n : Node) : Prop where
  decision : ∀ role yes no, n.form = .decision role yes no →
    role = .plain ∧ n.LeadsOver s yes ∧ n.LeadsOver s no
  bridge : ∀ answer parent child labels l, n.form = .bridge answer parent child labels (.link l) →
    l < s.links.size ∧ labels ⊆ (s.link l).labels

def Store.Orderly (s : Store) : Prop := ∀ i, (s.node i).Settled s

namespace Node.Settled

variable {s : Store}

theorem of_box {shape} (h : n.form = .box shape) : n.Settled s where
  decision _ _ _ hf := nomatch h.symm.trans hf
  bridge _ _ _ _ _ hf := nomatch h.symm.trans hf

theorem of_group {role head tails d c} (h : n.form = .group role head tails d c) : n.Settled s where
  decision _ _ _ hf := nomatch h.symm.trans hf
  bridge _ _ _ _ _ hf := nomatch h.symm.trans hf

theorem of_decision {yes no} (h : n.form = .decision .plain yes no) (hyes : n.LeadsOver s yes)
    (hno : n.LeadsOver s no) : n.Settled s where
  decision _ _ _ hf := by
    cases h.symm.trans hf
    exact ⟨rfl, hyes, hno⟩
  bridge _ _ _ _ _ hf := nomatch h.symm.trans hf

theorem of_bridge {answer parent child labels l}
    (h : n.form = .bridge answer parent child labels (.link l)) (hl : l < s.links.size)
    (hlabels : labels ⊆ (s.link l).labels) : n.Settled s where
  decision _ _ _ hf := nomatch h.symm.trans hf
  bridge _ _ _ _ _ hf := by
    cases h.symm.trans hf
    exact ⟨hl, hlabels⟩

theorem later (h : n.Settled σ) (hl : Later σ τ) (hform : m.form = n.form)
    (hlinks : n.links ⊆ m.links) :
    m.Settled τ where
  decision role yes no hf := by
    obtain ⟨hrole, hyes, hno⟩ := h.decision role yes no (hform ▸ hf)
    exact ⟨hrole, hyes.later hl hlinks, hno.later hl hlinks⟩
  bridge answer parent child labels l hf := by
    obtain ⟨hlt, hlabels⟩ := h.bridge answer parent child labels l (hform ▸ hf)
    exact ⟨Nat.lt_of_lt_of_le hlt hl.linkCount, List.Subset.trans hlabels (hl.labels l hlt)⟩

end Node.Settled

theorem orderly_empty : ({} : Store).Orderly := by
  intro i
  rw [Store.node_eq_default {} i (Nat.zero_le i)]
  exact .of_box rfl

/-- A later store, which is orderly if the first one is. -/
structure Advance (σ τ : Store) : Prop where
  later : Later σ τ
  orderly : σ.Orderly → τ.Orderly

namespace Advance

theorem refl (σ : Store) : Advance σ σ := ⟨.refl σ, id⟩

theorem trans (h : Advance σ τ) (h' : Advance τ υ) : Advance σ υ :=
  ⟨h.later.trans h'.later, h'.orderly ∘ h.orderly⟩

theorem of_nodes (hl : Later σ τ) (h : σ.Orderly → ∀ i, (τ.node i).form = (σ.node i).form ∧
    (σ.node i).links ⊆ (τ.node i).links ∨ (τ.node i).Settled τ) : Advance σ τ := by
  refine ⟨hl, fun ho i => ?_⟩
  rcases h ho i with ⟨hform, hlinks⟩ | hsettled
  · exact (ho i).later hl hform hlinks
  · exact hsettled

theorem of_same (hn : τ.nodes = σ.nodes) (hk : τ.links = σ.links) : Advance σ τ := by
  have hnode : ∀ i, τ.node i = σ.node i := fun i => by simp only [Store.node, hn]
  have hlink : ∀ l, τ.link l = σ.link l := fun l => by simp only [Store.link, hk]
  refine of_nodes ⟨?_, ?_, ?_, ?_, ?_⟩ fun _ i => .inl ?_
  · rw [hn]
  · rw [hk]
  · intro l _
    rw [hlink]
  · intro l _
    rw [hlink]
    exact List.Subset.refl _
  · intro i _
    rw [hnode]
    exact .refl _
  · rw [hnode]
    exact ⟨rfl, List.Subset.refl _⟩

theorem countId : Advance σ σ.countId := of_same rfl rfl

theorem pushNode {n : Node} (hn : σ.Orderly → n.Settled (σ.pushNode n)) :
    Advance σ (σ.pushNode n) := by
  refine of_nodes ⟨by simp, Nat.le_refl _, fun _ _ => rfl, fun _ _ => List.Subset.refl _, ?_⟩ ?_
  · intro i hi
    rw [σ.node_pushNode_of_ne i n (by omega)]
    exact .refl _
  · intro ho i
    by_cases hi : i = σ.nodes.size
    · rw [hi, σ.node_pushNode_size]
      exact .inr (hn ho)
    · rw [σ.node_pushNode_of_ne i n hi]
      exact .inl ⟨rfl, List.Subset.refl _⟩

theorem pushLink (k : Link) : Advance σ (σ.pushLink k) := by
  refine of_nodes ⟨Nat.le_refl _, by simp, ?_, ?_, fun _ _ => .refl _⟩
    fun _ _ => .inl ⟨rfl, List.Subset.refl _⟩
  · intro l hl
    rw [σ.link_pushLink_of_ne l k (by omega)]
  · intro l hl
    rw [σ.link_pushLink_of_ne l k (by omega)]
    exact List.Subset.refl _

theorem addLabel (l : Nat) (label : Label) : Advance σ (σ.addLabel l label) := by
  refine of_nodes ⟨Nat.le_refl _, ?_, ?_, ?_, fun _ _ => .refl _⟩
    fun _ _ => .inl ⟨rfl, List.Subset.refl _⟩
  · simp [Store.addLabel]
  · exact fun j _ => σ.target_addLabel l j label
  · exact fun j _ d hd => (σ.mem_addLabel l j label).2 (.inl hd)

theorem mapNode (i : Nat) {f : Node → Node} (hf : (σ.node i).Evolves (f (σ.node i)))
    (hs : σ.Orderly → (f (σ.node i)).form = (σ.node i).form ∨
    (f (σ.node i)).Settled (σ.mapNode i f)) :
    Advance σ (σ.mapNode i f) := by
  refine of_nodes (.mapNode i hf) fun ho j => ?_
  by_cases hj : j = i
  · subst hj
    by_cases hi : j < σ.nodes.size
    · rw [σ.node_mapNode_self j f hi]
      exact (hs ho).imp (fun hform => ⟨hform, hf.links⟩) id
    · rw [σ.mapNode_of_le j f (by omega)]
      exact .inl ⟨rfl, List.Subset.refl _⟩
  · rw [σ.node_mapNode_of_ne i j f hj]
    exact .inl ⟨rfl, List.Subset.refl _⟩

theorem mapPlain (i : Nat) {f : Node → Node} (hform : ∀ n, (f n).form = n.form)
    (hlinks : ∀ n, (f n).links = n.links) (hname : ∀ n, (f n).name = n.name) :
    Advance σ (σ.mapNode i f) :=
  .mapNode i (.of_plain (hform _) (hlinks _) (hname _)) fun _ => .inl (hform _)

theorem withBox (shape : Shape) (text : String) (code : Option Code.Piece) :
    Advance σ (σ.withBox shape text code) :=
  countId.trans (.pushNode fun _ => .of_box rfl)

theorem withDecision (text : String) (code : Option Code.Piece) :
    Advance σ (σ.withDecision .plain text code) :=
  countId.trans (.pushNode fun _ => .of_decision rfl (.inl rfl) (.inl rfl))

theorem withGroup (role : GroupRole) (head : Item) (tails : List Item) (code : Option Code.Piece) :
    Advance σ (σ.withGroup role head tails code) :=
  countId.trans (.pushNode fun _ => .of_group rfl)

theorem withBridge (answer : Bool) (parent child : Item) (labels : List Label) :
    Advance σ (σ.withBridge answer parent child labels) := by
  have hlink : Advance σ (σ.countId.pushLink ⟨child, labels⟩) := countId.trans (.pushLink _)
  refine hlink.trans (.pushNode fun _ => .of_bridge rfl (by simp) ?_)
  have hnew := σ.countId.link_pushLink_size ⟨child, labels⟩
  exact fun d hd => (congrArg (d ∈ Link.labels ·) hnew).mpr hd

theorem withLink (i : Nat) (target : Item) (labels : List Label) :
    Advance σ (σ.withLink i target labels) :=
  (Advance.pushLink _).trans (.mapNode i ⟨.refl _, List.subset_append_left _ _, fun _ => rfl⟩
    fun _ => .inl rfl)

theorem subset_bridgeLabels (answer : Bool) (old new : List Label) :
    old ⊆ bridgeLabels answer old new ∧ new ⊆ bridgeLabels answer old new := by
  cases answer <;> simp [bridgeLabels]

theorem moveBridge (i : Nat) (target : Item) (labels : List Label) :
    Advance σ (σ.moveBridge i target labels) := by
  unfold Store.moveBridge
  cases hf : (σ.node i).form with
  | bridge answer parent child old link =>
    let all := bridgeLabels answer old labels
    refine (Advance.pushLink ⟨target, all⟩).trans
      (.mapNode i ⟨?_, List.Subset.refl _, fun _ => rfl⟩ ?_)
    · rw [σ.node_pushLink, hf]
      exact ⟨rfl, rfl, (subset_bridgeLabels answer old labels).1⟩
    · refine fun _ => .inr (.of_bridge rfl (by simp) ?_)
      have hnew := σ.link_pushLink_size ⟨target, all⟩
      exact fun d hd => (congrArg (d ∈ Link.labels ·) hnew).mpr hd
  | box shape => exact .refl σ
  | decision role yes no => exact .refl σ
  | group role head tails d c => exact .refl σ

theorem regroup (i : Nat) {f : GroupRole → Item → List Item → GroupRole × Item × List Item}
    (hf : ∀ role head tails, (f role head tails).1 = role ∧ tails ⊆ (f role head tails).2.2) :
    Advance σ (σ.mapNode i (·.regroup f)) := by
  refine .mapNode i (.regroup hf) fun _ => ?_
  cases hform : (σ.node i).form with
  | group role head tails d c =>
    refine .inr (.of_group (congrArg Node.form (regroup_of_group f hform)))
  | box shape =>
    rw [regroup_of_not_group f (by simp [Node.isGroup, hform, Form.isGroup])]
    exact .inl hform
  | decision role yes no =>
    rw [regroup_of_not_group f (by simp [Node.isGroup, hform, Form.isGroup])]
    exact .inl hform
  | bridge answer parent child labels link =>
    rw [regroup_of_not_group f (by simp [Node.isGroup, hform, Form.isGroup])]
    exact .inl hform

theorem toBridge_withAnswer (i : Nat) (answer : Answer) (target : Item) (direction : Label) :
    (σ.withAnswer i answer target direction).ToBridge (σ.links.size + 1) := by
  have hlink := (σ.withBridge true (.node i) target [some answer.word]).link_pushLink_size
    ⟨.node σ.nodes.size, [some answer.word, direction]⟩
  rw [Store.linkCount_withBridge] at hlink
  refine ⟨σ.nodes.size, congrArg Link.target hlink, ?_⟩
  refine Store.node_mapNode_keeps _ i σ.nodes.size _
    (P := fun n => n.form.isBridge = true ∧ n.name = "") ?_ fun _ => ?_
  all_goals
    have hnode : (σ.withAnswerLink i answer target direction).node σ.nodes.size = _ :=
      σ.node_withBridge target [some answer.word] true (.node i)
    rw [hnode]
  · exact ⟨rfl, rfl⟩
  · cases answer <;> exact ⟨rfl, rfl⟩

theorem withAnswer (i : Nat) (answer : Answer) (target : Item) (direction : Label) :
    Advance σ (σ.withAnswer i answer target direction) := by
  let σ' := σ.withAnswerLink i answer target direction
  have hlink : Advance σ σ' := (withBridge true (.node i) target _).trans (.pushLink _)
  have hev := Node.Evolves.addAnswer (σ'.node i) answer (σ.links.size + 1)
  refine hlink.trans (.mapNode i hev fun ho => ?_)
  cases hf : (σ'.node i).form with
  | decision role yes no =>
    obtain ⟨rfl, hyes, hno⟩ := (ho i).decision role yes no hf
    have hnew : ((σ'.node i).addAnswer answer (σ.links.size + 1)).LeadsOver
        (σ.withAnswer i answer target direction) (.link (σ.links.size + 1)) :=
      .inr ⟨_, rfl, List.mem_append_right _ (List.mem_singleton.2 rfl),
        toBridge_withAnswer i answer target direction⟩
    right
    cases answer with
    | yes =>
      have hform : ((σ'.node i).addAnswer .yes (σ.links.size + 1)).form
          = .decision .plain (.link (σ.links.size + 1)) no := by
        simp [Node.addAnswer, Node.setAnswer, hf]
      exact .of_decision hform hnew (hno.later (.mapNode i hev) hev.links)
    | no =>
      have hform : ((σ'.node i).addAnswer .no (σ.links.size + 1)).form
          = .decision .plain yes (.link (σ.links.size + 1)) := by
        simp [Node.addAnswer, Node.setAnswer, hf]
      exact .of_decision hform (hyes.later (.mapNode i hev) hev.links) hnew
  | box shape =>
    left
    cases answer <;> simp [Node.addAnswer, Node.setAnswer, hf]
  | bridge _ _ _ _ _ =>
    left
    cases answer <;> simp [Node.addAnswer, Node.setAnswer, hf]
  | group _ _ _ _ _ =>
    left
    cases answer <;> simp [Node.addAnswer, Node.setAnswer, hf]

end Advance

/-- Whatever becomes of the action, the store advances. -/
structure Advances {α : Type} (σ : Store) (act : Action α) : Prop where
  ok : ∀ a τ, act σ = .ok a τ → Advance σ τ
  error : ∀ f τ, act σ = .error f τ → Advance σ τ

namespace Advances

variable {α β : Type} {act act' : Action α} {post : α → Store → Prop}

theorem of_ok {a : α} (h : act σ = .ok a τ) (ha : Advance σ τ) : Advances σ act where
  ok _ _ h' := by
    cases h.symm.trans h'
    exact ha
  error _ _ h' := nomatch h.symm.trans h'

theorem of_error {f : Fault} (h : act σ = .error f τ) (ha : Advance σ τ) : Advances σ act where
  ok _ _ h' := nomatch h.symm.trans h'
  error _ _ h' := by
    cases h.symm.trans h'
    exact ha

theorem of_eq (h : act σ = act' σ) (ha : Advances σ act') : Advances σ act :=
  ⟨fun a τ hrun => ha.ok a τ (h.symm.trans hrun), fun f τ hrun => ha.error f τ (h.symm.trans hrun)⟩

theorem bind {k : α → Action β} (h : Advances σ act) (hk : Keeps σ act post)
    (hnext : ∀ a τ, Grown σ τ → post a τ → Advances τ (k a)) : Advances σ (act >>= k) := by
  cases ha : act σ with
  | error f τ => exact of_error (bind_error ha) (h.error f τ ha)
  | ok a τ =>
    obtain ⟨hgrown, hpost⟩ := hk.ok ha
    have hfirst := h.ok a τ ha
    have hrest := hnext a τ hgrown hpost
    refine ⟨fun b υ hb => ?_, fun f υ hb => ?_⟩
    · exact hfirst.trans (hrest.ok b υ ((bind_ok ha).symm.trans hb))
    · exact hfirst.trans (hrest.error f υ ((bind_ok ha).symm.trans hb))

theorem lacks (item : Item) (part : String) : Advances σ (Graph.lacks item part : Action α) :=
  of_error rfl (.refl σ)

section

variable {f : β → Action Unit} {items : List β} (hσ : σ.Sound)
  (hf : ∀ item ∈ items, ∀ τ, Grown σ τ → Advances τ (f item) ∧ Keeps τ (f item) fun _ _ => True)
include hσ hf

theorem forM : Advances σ (items.forM f) := by
  induction items generalizing σ with
  | nil => exact of_ok rfl (.refl σ)
  | cons item rest ih =>
    obtain ⟨hfirst, hkeeps⟩ := hf item List.mem_cons_self σ (.refl hσ)
    refine hfirst.bind hkeeps fun _ τ hτ _ => ?_
    refine ih hτ.sound fun item' hitem' υ hυ => ?_
    exact hf item' (List.mem_cons_of_mem _ hitem') υ (hτ.trans hυ)

theorem after_forM {P : Store → Prop} (hP : ∀ τ υ, Advance τ υ → P τ → P υ) {item : β}
    (hitem : item ∈ items) (h : ∀ τ υ, Grown σ τ → Advance σ τ → f item τ = .ok () υ → P υ)
    (hrun : items.forM f σ = .ok () υ) : P υ := by
  induction items generalizing σ with
  | nil => cases hitem
  | cons first rest ih =>
    obtain ⟨hfirst, hkeeps⟩ := hf first List.mem_cons_self σ (.refl hσ)
    cases ha : f first σ with
    | error fault τ => cases (bind_error ha).symm.trans hrun
    | ok u τ =>
      have hrest : rest.forM f τ = .ok () υ := (bind_ok ha).symm.trans hrun
      have hτ := (hkeeps.ok ha).1
      have hf' : ∀ item ∈ rest, ∀ τ', Grown τ τ' →
          Advances τ' (f item) ∧ Keeps τ' (f item) fun _ _ => True :=
        fun item' hitem' τ' hτ' => hf item' (List.mem_cons_of_mem _ hitem') τ'
          (hτ.trans hτ')
      rcases List.mem_cons.1 hitem with rfl | hitem
      · have hnow := h σ τ (.refl hσ) (.refl σ) ha
        exact hP τ υ ((forM hτ.sound hf').ok () υ hrest) hnow
      · refine ih hτ.sound hf' hitem (fun τ' υ' hτ' ha' hrun' => ?_) hrest
        exact h τ' υ' (hτ.trans hτ') ((hfirst.ok u τ ha).trans ha') hrun'

end

end Advances

theorem connectAnswer_advances (hσ : σ.Sound) (i : Nat) (answer : Answer) {target : Item}
    (ht : target.Within σ) (direction : Label) :
    Advances σ (connectAnswer i answer target direction) :=
  .of_ok (connectAnswer_run hσ i answer ht direction) (.withAnswer i answer target direction)

theorem setDirection_advances (i : Nat) (direction : Label) :
    Advances σ (setDirection i direction) :=
  .of_ok rfl (.mapPlain i (fun _ => rfl) (fun _ => rfl) fun _ => rfl)

theorem connectWithin_advances (fuel : Nat) : ∀ {σ : Store}, σ.Sound → ∀ (i : Nat) {target : Item},
    target.Within σ → ∀ labels, Advances σ (connectWithin fuel i target labels) := by
  induction fuel with
  | zero =>
    intro σ _ i target _ labels
    exact .of_error rfl (.refl σ)
  | succ fuel ih =>
    intro σ hσ i target ht labels
    by_cases hfinal : (σ.node i).form.isFinal = true
    · exact .of_ok (connectWithin_final fuel target labels hfinal) (.refl σ)
    by_cases htakes : (σ.node i).form.takesLinks = true
    · exact .of_ok (connectWithin_plain fuel target labels htakes (hσ.fits i).whole)
        (.withLink i target _)
    cases hf : (σ.node i).form with
    | box shape => exact absurd hf (Form.ne_box hfinal htakes shape)
    | decision role yes no =>
      obtain rfl : role = .loop := by simpa [hf, Form.takesLinks] using htakes
      refine .of_eq (connectWithin_loop fuel target labels hf) ?_
      have hi : i < σ.nodes.size := lt_size_of_form hf (by simp)
      have hanswer : ∀ {τ : Store}, Grown σ τ →
          Advances τ (do let _ ← connectAnswer i .no target : Action Unit) := by
        intro τ hτ
        refine (connectAnswer_advances hτ.sound i .no (ht.grown hτ) _).bind
          (connectAnswer_keeps hτ.sound (Nat.lt_of_lt_of_le hi hτ.size) .no (ht.grown hτ) _)
          fun _ υ _ _ => ?_
        exact .of_ok rfl (.refl υ)
      split
      · exact (setDirection_advances i _).bind (setDirection_keeps hσ i _) fun _ τ hτ _ =>
          hanswer hτ
      · exact hanswer (.refl hσ)
    | bridge answer parent child old link =>
      exact .of_ok (connectWithin_bridge fuel target labels hf) (.moveBridge i target labels)
    | group role head tails d c =>
      refine .of_eq (connectWithin_group fuel target labels hf (by simpa using hfinal)) ?_
      refine .forM hσ fun item _ τ hτ => ?_
      cases item with
      | node j =>
        exact ⟨ih hτ.sound j (ht.grown hτ) _, connectWithin_keeps fuel hτ.sound j (ht.grown hτ) _⟩
      | nothing => exact ⟨.of_ok rfl (.refl τ), .of_ok rfl (.refl hτ.sound) trivial⟩
      | link l => exact ⟨.of_ok rfl (.refl τ), .of_ok rfl (.refl hτ.sound) trivial⟩

theorem connect_advances (hσ : σ.Sound) (i : Nat) {target : Item} (ht : target.Within σ)
    (labels : List Label) : Advances σ (connect i target labels) := by
  have hrun : connect i target labels σ = connectWithin (σ.nodes.size + 1) i target labels σ := rfl
  exact .of_eq hrun (connectWithin_advances _ hσ i ht labels)

/-- Connecting node `i` connects node `j`: a group passes connections on to its tails. -/
inductive Receives (σ : Store) : Nat → Nat → Prop where
  | here {i} : i < σ.nodes.size →
      ((σ.node i).form.takesLinks = true ∨ (σ.node i).form.isBridge = true) → Receives σ i i
  | tail {i t j role head tails d c} : (σ.node i).form = .group role head tails d c →
      (σ.node i).form.isFinal = false → .node t ∈ tails → Receives σ t j → Receives σ i j

theorem Receives.later {i j : Nat} (h : Receives σ i j) (hl : Later σ τ) : Receives τ i j := by
  induction h with
  | @here i hi hform =>
    have hnode := (hl.node i hi).form
    rw [← hnode.takesLinks_eq, ← hnode.isBridge_eq] at hform
    exact .here (Nat.lt_of_lt_of_le hi hl.size) hform
  | @tail i t j role head tails d c hf hopen ht _ ih =>
    have hi := lt_size_of_isGroup (isGroup_of_form hf)
    have hnode := (hl.node i hi).form
    have hopen' := hnode.isFinal_eq.trans hopen
    rw [hf] at hnode
    obtain ⟨head', tails', d', c', hf', htails⟩ := hnode.group
    exact .tail hf' hopen' (htails ht) ih

/-- Node `j` has been connected to the target with this label. -/
def Store.Carries (s : Store) (j : Nat) (target : Item) (label : Label) : Prop :=
  (∃ answer parent child labels link,
      (s.node j).form = .bridge answer parent child labels link ∧ label ∈ labels) ∨
    (s.node j).form.takesLinks = true ∧
      ∃ l, .link l ∈ (s.node j).links ∧ (s.link l).target = target ∧ label ∈ (s.link l).labels

theorem Store.Carries.later {j : Nat} {target : Item} {label : Label} (h : σ.Carries j target label)
    (hl : Later σ τ) : τ.Carries j target label := by
  rcases h with ⟨answer, parent, child, labels, link, hf, hlabel⟩ |
      ⟨htakes, l, hmem, htarget, hlabel⟩
  · have hj : j < σ.nodes.size := lt_size_of_isBridge (by rw [hf]; rfl)
    have hnode := (hl.node j hj).form
    rw [hf] at hnode
    obtain ⟨child', labels', link', hf', hlabels⟩ := hnode.bridge
    exact .inl ⟨_, _, _, _, _, hf', hlabels hlabel⟩
  · have hnode := hl.node j (lt_size_of_link hmem)
    have hlt := lt_linkCount_of_label hlabel
    exact .inr ⟨hnode.form.takesLinks_eq.trans htakes, l, hnode.links hmem,
      (hl.target l hlt).trans htarget, hl.labels l hlt hlabel⟩

/-- A connection with a label gives it to every node that the connection comes to. -/
theorem connectWithin_carries (fuel : Nat) :
    ∀ {σ τ : Store}, σ.Sound → ∀ {i j : Nat} {target : Item},
    target.Within σ → ∀ {label : Label}, Receives σ i j →
      connectWithin fuel i target [label] σ = .ok () τ → τ.Carries j target label := by
  induction fuel with
  | zero =>
    intro σ τ _ i j target _ label _ hrun
    cases hrun
  | succ fuel ih =>
    intro σ τ hσ i j target ht label hr hrun
    cases hr with
    | here hi hform =>
      rcases hform with htakes | hbridge
      · rw [connectWithin_plain fuel target [label] htakes (hσ.fits i).whole] at hrun
        cases hrun
        have hnode := (σ.pushLink ⟨target, [label]⟩).node_mapNode_self i
          (fun n => { n with links := n.links ++ [.link σ.links.size] }) hi
        have hlink := σ.link_pushLink_size ⟨target, [label]⟩
        refine .inr ⟨?_, σ.links.size, ?_, congrArg Link.target hlink, ?_⟩
        · exact (congrArg (Form.takesLinks ∘ Node.form) hnode).trans htakes
        · exact (congrArg (Item.link σ.links.size ∈ Node.links ·) hnode).mpr (by simp)
        · exact (congrArg (label ∈ Link.labels ·) hlink).mpr (by simp)
      · cases hf : (σ.node i).form with
        | bridge answer parent child old link =>
          rw [connectWithin_bridge fuel target [label] hf] at hrun
          cases hrun
          unfold Store.moveBridge
          rw [hf]
          refine .inl ⟨answer, parent, target, bridgeLabels answer old [label],
            .link σ.links.size, ?_, ?_⟩
          · exact congrArg Node.form ((σ.pushLink _).node_mapNode_self i _ hi)
          · exact (Advance.subset_bridgeLabels answer old [label]).2 (by simp)
        | box shape => rw [hf] at hbridge; cases hbridge
        | decision role yes no => rw [hf] at hbridge; cases hbridge
        | group role head tails d c => rw [hf] at hbridge; cases hbridge
    | @tail _ t _ role head tails d c hf hopen htail hr =>
      rw [connectWithin_group fuel target [label] hf hopen] at hrun
      refine Advances.after_forM hσ (fun item _ υ hυ => ?_) (P := fun υ => υ.Carries j target label)
        (fun _ _ hl hc => hc.later hl.later) htail ?_ hrun
      · cases item with
        | node k =>
          exact ⟨connectWithin_advances fuel hυ.sound k (ht.grown hυ) _,
            connectWithin_keeps fuel hυ.sound k (ht.grown hυ) _⟩
        | nothing => exact ⟨.of_ok rfl (.refl υ), .of_ok rfl (.refl hυ.sound) trivial⟩
        | link l => exact ⟨.of_ok rfl (.refl υ), .of_ok rfl (.refl hυ.sound) trivial⟩
      · intro υ υ' hυ ha hrun'
        exact ih hυ.sound (ht.grown hυ) (hr.later ha.later) hrun'

/-- Where the line of such a connection starts and ends. That of a bridge starts at its parent and
ends where the bridge now leads to. -/
def Store.ends (s : Store) (j : Nat) (target : Item) : Item × Item :=
  match (s.node j).form with
  | .bridge _ parent child _ _ => (parent, child)
  | _ => (.node j, target)

theorem Store.Carries.line (hs : σ.Sound) (ho : σ.Orderly) {j p k : Nat} {target : Item}
    {x : String} (hc : σ.Carries j target (some x)) (hx : x ≠ "")
    (hends : σ.ends j target = (.node p, .node k)) (hk : σ.name k ≠ "") :
    ∃ labels, x ∈ labels ∧ ⟨σ.name p, labels, σ.name k⟩ ∈ σ.linesFrom j := by
  have hline : ∀ labels, σ.lineTo p (.node k) labels
      = some ⟨σ.name p, shownLabels labels, σ.name k⟩ := by
    intro labels
    simp [Store.lineTo, hk]
  rcases hc with ⟨answer, parent, child, labels, link, hf, hlabel⟩ |
      ⟨htakes, l, hmem, htarget, hlabel⟩
  · simp only [Store.ends, hf, Prod.mk.injEq] at hends
    obtain ⟨rfl, rfl⟩ := hends
    obtain ⟨l, rfl, -⟩ := (hs.fits j).links link (by simp [Node.ownLinks, hf])
    have hlabels := ((ho j).bridge _ _ _ _ _ hf).2 hlabel
    refine ⟨shownLabels (σ.link l).labels, mem_shownLabels.2 ⟨hx, hlabels⟩, ?_⟩
    simp [Store.linesFrom, hf, hline]
  · have hnot : ¬∃ answer parent child labels link,
        (σ.node j).form = .bridge answer parent child labels link := by
      rintro ⟨_, _, _, _, _, hf⟩
      rw [hf] at htakes
      cases htakes
    have hdraws : (σ.node j).draws = true := by
      unfold Node.draws
      cases hf : (σ.node j).form with
      | decision role yes no =>
        obtain ⟨rfl, -⟩ := (ho j).decision role yes no hf
        rfl
      | bridge _ _ _ _ _ => exact absurd ⟨_, _, _, _, _, hf⟩ hnot
      | box _ => rfl
      | group _ _ _ _ _ => rfl
    have hown : (Item.node j, target) = (.node p, .node k) := by
      rw [← hends]
      unfold Store.ends
      cases hf : (σ.node j).form with
      | bridge _ _ _ _ _ => exact absurd ⟨_, _, _, _, _, hf⟩ hnot
      | box _ => rfl
      | decision _ _ _ => rfl
      | group _ _ _ _ _ => rfl
    simp only [Prod.mk.injEq, Item.node.injEq] at hown
    obtain ⟨rfl, rfl⟩ := hown
    refine ⟨shownLabels ((σ.link l).labels ++ [(σ.node j).direction]),
      mem_shownLabels.2 ⟨hx, ?_⟩, ?_⟩
    · exact List.mem_append_left _ hlabel
    · rw [linesFrom_of_not_bridge hnot, if_pos hdraws]
      refine List.mem_filterMap.2 ⟨.link l, hmem, ?_⟩
      unfold Store.lineAlong
      dsimp only
      rw [htarget, hline]

end CodeChart.Graph

namespace CodeChart.Session

open CodeChart.Graph Variables

variable {σ : Store} {vars : Variables}

theorem setParam_advances (i : Nat) (key value : String) : Advances σ (setParam i key value) := by
  refine .of_ok rfl (.mapPlain i ?_ ?_ ?_)
  all_goals exact fun n => field_setParam _ (fun _ _ => rfl) n key value

theorem breakAlignment_advances (item : Item) : Advances σ (breakAlignment item) := by
  cases item with
  | node i =>
    refine .of_eq (bind_ok (getNode_run σ i)) ?_
    split
    · exact setParam_advances i _ _
    · exact .lacks _ _
  | nothing => exact .lacks _ _
  | link l => exact .lacks _ _

theorem setTails_advances (i : Nat) {f : List Item → List Item} (hf : ∀ tails, tails ⊆ f tails) :
    Advances σ (setTails i f) :=
  .of_ok (setTails_run i f) (.regroup i fun _ _ tails => ⟨rfl, hf tails⟩)

theorem moveHead_advances (hσ : σ.Sound) (i : Nat) {item : Item} (hitem : item.Within σ) :
    Advances σ (moveHead i item) := by
  have hset : Advances σ (setHead i item) :=
    .of_ok (setHead_run i item) (.regroup i fun _ _ _ => ⟨rfl, List.Subset.refl _⟩)
  have hkeeps := setHead_keeps hσ i hitem
  cases item with
  | nothing => exact .of_ok rfl (.refl σ)
  | node j => exact hset.bind hkeeps fun _ τ _ _ => .of_ok rfl (.refl τ)
  | link l => exact hset.bind hkeeps fun _ τ _ _ => .of_error rfl (.refl τ)

theorem connectBy_advances (hσ : σ.Sound) (i : Nat) (way : Way) {target : Item}
    (ht : target.Within σ) (labels : List Label) : Advances σ (connectBy i way target labels) := by
  cases way with
  | plain => exact connect_advances hσ i ht labels
  | answer a =>
    refine .of_eq (bind_ok (getNode_run σ i)) ?_
    split
    · rename_i hdecision
      have hi := lt_size_of_isDecision hdecision
      refine (connectAnswer_advances hσ i a ht _).bind (connectAnswer_keeps hσ hi a ht _) ?_
      intro _ τ _ _
      exact .of_ok rfl (.refl τ)
    · exact .lacks _ _

theorem makeNode_advances (hσ : σ.Sound) (blueprint : Blueprint) :
    Advances σ (makeNode vars blueprint) := by
  have box : ∀ shape text, Advances σ (Item.node <$> newBox shape text) :=
    fun shape text => .of_ok (map_ok (newBox_run σ shape text none)) (.withBox shape text none)
  have group : ∀ role head tails, Advances σ (Item.node <$> newGroup role head tails) := by
    intro role head tails
    have hnew : Advance σ (σ.withGroup role head tails none) := .withGroup role head tails none
    cases head with
    | link l => exact .of_error (map_error (newGroup_link_run σ role l tails none)) hnew
    | nothing => exact .of_ok (map_ok (newGroup_run σ role (by simp) tails none)) hnew
    | node i => exact .of_ok (map_ok (newGroup_run σ role (by simp) tails none)) hnew
  cases blueprint with
  | blank => exact box _ _
  | start name => exact box _ _
  | finish name => exact box _ _
  | operation text => exact box _ _
  | subroutine text => exact box _ _
  | exchange way text => exact box _ _
  | decision text alignNext =>
    have hnew : Advances σ (newDecision .plain text) :=
      .of_ok (newDecision_run σ .plain text none) (.withDecision text none)
    refine hnew.bind (newDecision_keeps hσ .plain text none) fun i τ hτ _ => ?_
    cases alignNext with
    | true => exact .of_ok rfl (.refl τ)
    | false =>
      refine (breakAlignment_advances (.node i)).bind (breakAlignment_keeps hτ.sound _) ?_
      intro _ υ _ _
      exact .of_ok rfl (.refl υ)
  | bridge parent child labels =>
    exact .of_ok (map_ok (newBridge_run σ false _ _ labels)) (.withBridge false _ _ labels)
  | answer test word target =>
    exact .of_ok (map_ok (newBridge_run σ true _ _ [word])) (.withBridge true _ _ [word])
  | group head tails => exact group .plain _ _
  | chart head => exact group .chart _ _
  | link target labels => exact .of_ok (map_ok (addLink_run σ _ labels)) (.pushLink _)

theorem withNode_advances {α : Type} (item : Item) (field : String) {act : Nat → Action α}
    (h : ∀ i, item = .node i → Advances σ (act i)) : Advances σ (withNode item field act) := by
  cases item with
  | node i => exact h i rfl
  | nothing => exact .lacks _ _
  | link l => exact .lacks _ _

theorem withGroup_advances {α : Type} (item : Item) (field : String) {act : Nat → Action α}
    (h : ∀ i, Advances σ (act i)) : Advances σ (withGroup item field act) := by
  refine withNode_advances item field fun i _ => ?_
  refine .of_eq (bind_ok (getNode_run σ i)) ?_
  split
  · exact h i
  · exact .lacks _ _

theorem reply_advances (hσ : σ.Sound) (item : Item) :
    Advances σ (do return (vars, ← lookAt item)) := by
  obtain ⟨reply, hrun⟩ := lookAt_run hσ item
  exact .of_ok (bind_ok hrun) (.refl σ)

theorem change_advances (item : Item) {act : Action Unit} (h : Advances σ act)
    (hk : Keeps σ act fun _ _ => True) : Advances σ (do return (vars, ← change item act)) := by
  have hrun : (do return (vars, ← change item act) : Action (Variables × Reply)) σ
      = (act >>= fun _ => do return (vars, ← lookAt item)) σ := by
    rw [change, bind_assoc]
  exact .of_eq hrun (h.bind hk fun _ τ hτ _ => reply_advances hτ.sound item)

def Step.NamesNoBridge (state : State) : Step → Prop
  | .setName node _ =>
    ∀ i, state.vars.get node = .node i → (state.store.node i).form.isBridge = false
  | _ => True

theorem Step.NamesNoBridge.congr {state state' : State} (hvars : state'.vars = state.vars)
    (hnode : ∀ i, (state'.store.node i).form.isBridge = (state.store.node i).form.isBridge)
    {step : Step} (h : step.NamesNoBridge state) : step.NamesNoBridge state' := by
  cases step with
  | setName node value =>
    intro i hi
    rw [hnode]
    exact h i (hvars ▸ hi)
  | _ => trivial

/-- A step that builds lets the graph advance, unless it gives a name to a bridge. -/
theorem Step.run_advances (hσ : σ.Sound) (hv : vars.Within σ) {step : Step} (hb : step.Builds vars)
    (hname : step.NamesNoBridge ⟨σ, vars⟩) : Advances σ (step.run vars) := by
  cases step with
  | make var blueprint =>
    refine (makeNode_advances hσ blueprint).bind (makeNode_keeps hσ hv hb) fun item τ hτ _ => ?_
    exact reply_advances hτ.sound item
  | look node => exact reply_advances hσ _
  | connect node way target labels =>
    have ht := within_resolve hv target
    exact change_advances _ (withNode_advances _ _ fun i _ => connectBy_advances hσ i way ht labels)
      (withNode_keeps hσ _ _ fun i _ => connectBy_keeps hσ i way ht labels)
  | setDirection node value =>
    exact change_advances _ (withNode_advances _ _ fun i _ => setDirection_advances i value)
      (withNode_keeps hσ _ _ fun i _ => setDirection_keeps hσ i value)
  | setParam node key value =>
    exact change_advances _ (withNode_advances _ _ fun i _ => setParam_advances i key value)
      (withNode_keeps hσ _ _ fun i _ => setParam_keeps hσ i key value)
  | addLabel node value =>
    simp only [Step.run]
    cases vars.get node with
    | node i => exact .lacks _ _
    | nothing => exact .lacks _ _
    | link l => exact change_advances _ (.of_ok rfl (.addLabel l value)) (addLabel_keeps hσ l value)
  | setName node value =>
    refine change_advances _ (withNode_advances _ _ fun i hi => ?_)
      (withNode_keeps hσ _ _ fun i _ => setName_keeps hσ i value)
    have hnot := hname i hi
    refine .of_ok rfl (.mapNode i ⟨?_, ?_, fun hbridge => ?_⟩ fun _ => .inl ?_)
    · split <;> exact .refl _
    · split <;> exact List.Subset.refl _
    · rw [hnot] at hbridge
      cases hbridge
    · split <;> rfl
  | setText node value =>
    refine change_advances _ (withNode_advances _ _ fun i _ => ?_)
      (withNode_keeps hσ _ _ fun i _ => setText_keeps hσ i value)
    exact .of_ok rfl (.mapPlain i (fun _ => rfl) (fun _ => rfl) fun _ => rfl)
  | setHead node target =>
    have ht := within_resolve hv target
    exact change_advances _ (withGroup_advances _ _ fun i => moveHead_advances hσ i ht)
      (withGroup_keeps hσ _ _ fun i _ => moveHead_keeps hσ i ht)
  | appendTail node target =>
    have ht := List.forall_mem_singleton.2 (within_resolve hv target)
    exact change_advances _ (withGroup_advances _ _ fun i => setTails_advances i fun _ =>
      List.subset_append_left _ _) (withGroup_keeps hσ _ _ fun i _ => appendTails_keeps hσ i ht)
  | extendTails node target =>
    have ht := within_map_resolve hv target
    exact change_advances _ (withGroup_advances _ _ fun i => setTails_advances i fun _ =>
      List.subset_append_left _ _) (withGroup_keeps hσ _ _ fun i _ => appendTails_keeps hσ i ht)
  | _ => exact hb.elim

theorem Step.after_advance {state : State} (hs : state.store.Sound)
    (hv : state.vars.Within state.store) {step : Step} (hb : step.Builds state.vars)
    (hn : step.NamesNoBridge state) :
    Advance state.store (step.after state).store := by
  have hquiet : Advance state.store state.quiet := .of_same rfl rfl
  have hrun : Advances state.quiet (step.run state.vars) :=
    Step.run_advances (sound_quiet hs) hv hb (hn.congr rfl fun _ => rfl)
  cases ha : step.run state.vars state.quiet with
  | ok p τ =>
    rw [(after_of_ok ha).1]
    exact hquiet.trans (hrun.ok _ τ ha)
  | error f τ =>
    rw [(after_of_error ha).1]
    exact hquiet.trans (hrun.error f τ ha)

end CodeChart.Session
