import CodeChart.Proofs.Closing

/-! Changes that leave the wiring alone: parameters, directions, and labels on the links of
decisions, which are not drawn. -/
namespace CodeChart.Chart

open CodeChart.Graph

/-- The two stores have the same nodes and links up to parameters, directions and the labels on the
links of decisions. -/
structure Alike (τ τ' : Store) : Prop where
  size : τ'.nodes.size = τ.nodes.size
  nextId : τ'.nextId = τ.nextId
  form : ∀ i, (τ'.node i).form = (τ.node i).form
  links : ∀ i, (τ'.node i).links = (τ.node i).links
  name : ∀ i, (τ'.node i).name = (τ.node i).name
  target : ∀ l, (τ'.link l).target = (τ.link l).target
  label : ∀ i l, Item.link l ∈ (τ.node i).ownLinks → (τ.node i).form.isDecision = false →
    τ'.link l = τ.link l

variable {σ τ τ' : Store} {xs : List (Vertex Site)} {lo n i : Nat} {E : List Nat}

namespace Alike

theorem refl (τ : Store) : Alike τ τ :=
  ⟨rfl, rfl, fun _ => rfl, fun _ => rfl, fun _ => rfl, fun _ => rfl, fun _ _ _ _ => rfl⟩

theorem headsTo (h : Alike τ τ') {item : Item} {j : Nat} (hh : HeadsTo τ item j) :
    HeadsTo τ' item j := by
  obtain ⟨n, hn⟩ := hh
  induction hn with
  | here hi =>
    refine .of_not_group ?_
    rwa [Node.isGroup, h.form]
  | head hf _ ih => exact .of_group ((h.form _).trans hf) ih

theorem arrives (h : Alike τ τ') {item : Item} {s : Site} (ha : Arrives τ item s) :
    Arrives τ' item s :=
  ⟨h.headsTo ha.1, by rw [h.name]; exact ha.2⟩

theorem leads (h : Alike τ τ') {target : Option Site} {item : Item} (hl : Leads τ target item) :
    Leads τ' target item := by
  cases target with
  | none => exact hl
  | some s => exact h.arrives hl

theorem bridgeAt (h : Alike τ τ') {b v : Nat} {item : Item} {labels : List Label}
    (hb : BridgeAt τ b v item labels) : BridgeAt τ' b v item labels := by
  obtain ⟨hname, answer, l, hf, hl⟩ := hb
  refine ⟨(h.name b).trans hname, answer, l, (h.form b).trans hf, ?_⟩
  rw [h.label b l (by simp [Node.ownLinks, hf]) (by simp [hf, Form.isDecision]), hl]

theorem answerAt (h : Alike τ τ') {s : Site} {b l : Nat} {word : String} {target : Option Site}
    (ha : AnswerAt τ s b l word target) : AnswerAt τ' s b l word target := by
  obtain ⟨⟨item, labels, hb, hword, hleads⟩, hvia⟩ := ha
  refine ⟨⟨item, labels, h.bridgeAt hb, hword, h.leads hleads⟩, ?_⟩
  rw [h.target l]
  rcases hvia with hdirect | ⟨b', hmem, labels', ht, hb'⟩
  · exact .inl hdirect
  · exact .inr ⟨b', hmem, labels', ht, h.bridgeAt hb'⟩

theorem vertexAt (h : Alike τ τ') {x : Vertex Site} (hx : VertexAt τ x)
    (hdir : ∀ s a, x = .box s (some a) →
      (τ'.node s.node).direction = (τ.node s.node).direction) : VertexAt τ' x := by
  cases x with
  | box s out =>
    cases out with
    | none =>
      obtain ⟨shape, hf, hlinks⟩ := hx
      refine ⟨shape, (h.form _).trans hf, ?_⟩
      simpa only [h.links, h.target] using hlinks
    | some a =>
      obtain ⟨shape, item, hf, hshape, hlabels, hleads, hlinks⟩ := hx
      refine ⟨shape, item, (h.form _).trans hf, hshape, ?_, h.leads hleads, ?_⟩
      · rw [hdir s a rfl, hlabels]
      · rcases hlinks with ⟨hitem, hlinks⟩ | ⟨hitem, l, hlinks, hlink⟩
        · exact .inl ⟨hitem, (h.links _).trans hlinks⟩
        · refine .inr ⟨hitem, l, (h.links _).trans hlinks, ?_⟩
          rw [h.label s.node l (by simp [Node.ownLinks, hf, hlinks])
            (by simp [hf, Form.isDecision]),
            hlink]
  | test s yes no =>
    cases yes with
    | none =>
      obtain ⟨role, yesItem, n, hf, hlinks, hanswer⟩ := hx
      exact ⟨role, yesItem, n, (h.form _).trans hf, (h.links _).trans hlinks, h.answerAt hanswer⟩
    | some y =>
      obtain ⟨role, l, n, hf, hlinks, hyes, hno⟩ := hx
      exact ⟨role, l, n, (h.form _).trans hf, (h.links _).trans hlinks, h.answerAt hyes,
        h.answerAt hno⟩

theorem holds (h : Alike τ τ') (hx : Holds σ τ xs)
    (hdir : ∀ s a, Vertex.box s (some a) ∈ xs →
      (τ'.node s.node).direction = (τ.node s.node).direction) : Holds σ τ' xs :=
  hx.rewire (Nat.le_of_eq h.size.symm) (Nat.le_of_eq h.nextId.symm) (fun i _ => h.name i) rfl
    fun x hmem => h.vertexAt (hx.wired x hmem) fun s a he => hdir s a (he ▸ hmem)

theorem endsIn (h : Alike τ τ') (he : EndsIn τ lo n i E) : EndsIn τ' lo n i E :=
  he.transfer (Nat.le_of_eq h.size.symm) (fun j _ _ => by rw [h.form j]) (Nat.le_refl lo)
    (Nat.le_refl n)

theorem mapNode (i : Nat) {f : Node → Node} (hform : ∀ n, (f n).form = n.form)
    (hlinks : ∀ n, (f n).links = n.links) (hname : ∀ n, (f n).name = n.name) :
    Alike τ (τ.mapNode i f) where
  size := τ.size_mapNode i f
  nextId := rfl
  form j := τ.node_mapNode_keeps i j f (P := fun n => n.form = (τ.node j).form) rfl fun _ => hform _
  links j := τ.node_mapNode_keeps i j f (P := fun n => n.links = (τ.node j).links) rfl
    fun _ => hlinks _
  name j := τ.node_mapNode_keeps i j f (P := fun n => n.name = (τ.node j).name) rfl fun _ => hname _
  target _ := rfl
  label _ _ _ _ := rfl

theorem mapLink (hs : τ.Sound) {t l : Nat} {f : Link → Link}
    (ht : (τ.node t).form.isDecision = true) (hl : Item.link l ∈ (τ.node t).ownLinks)
    (hf : ∀ k, (f k).target = k.target) :
    Alike τ (τ.mapLink l f) where
  size := rfl
  nextId := rfl
  form _ := rfl
  links _ := rfl
  name _ := rfl
  target k := by
    by_cases hk : k = l
    · subst hk
      by_cases hlt : k < τ.links.size
      · rw [τ.link_mapLink_self k f hlt, hf]
      · rw [τ.mapLink_of_le k f (by omega)]
    · rw [τ.link_mapLink_of_ne l k f hk]
  label i k hk hd := by
    refine τ.link_mapLink_of_ne l k f ?_
    rintro rfl
    obtain rfl := hs.apart _ _ _ hk hl
    rw [ht] at hd
    cases hd

end Alike

end CodeChart.Chart
