import CodeChart.Proofs.Growth
import CodeChart.Proofs.Rendering

/-! The traces of drawings. A store that has been drawn in between differs from one that has not by
marks, kept texts and labels; every further label is a direction that the drawing node had at the
time. Whatever builds a graph does the same in both stores, and their charts differ at most by these
labels. -/
namespace CodeChart.Graph

variable {σ τ υ : Store} {traces : List Trace}

namespace Store

/-- A further label on a link. -/
def addLabel (s : Store) (l : Nat) (label : Label) : Store :=
  s.mapLink l fun k => { k with labels := k.labels ++ [label] }

variable (s : Store) (l j : Nat) (label : Label)

theorem target_addLabel : ((s.addLabel l label).link j).target = (s.link j).target := by
  unfold addLabel
  by_cases hl : l < s.links.size
  · rw [s.link_mapLink_of_lt l j _ hl]
    split
    next hj => rw [hj]
    next => rfl
  · rw [s.mapLink_of_le l _ (by omega)]

theorem mem_addLabel {d : Label} : d ∈ ((s.addLabel l label).link j).labels ↔
    d ∈ (s.link j).labels ∨ l < s.links.size ∧ j = l ∧ d = label := by
  unfold addLabel
  by_cases hl : l < s.links.size
  · rw [s.link_mapLink_of_lt l j _ hl]
    by_cases hj : j = l
    · simp [hj, hl]
    · simp [hj]
  · rw [s.mapLink_of_le l _ (by omega)]
    simp [hl]

end Store

section

variable (n : Node)

theorem mem_ownLinks_append {n : Node} {item more : Item} (h : item ∈ n.ownLinks) :
    item ∈ { n with links := n.links ++ [more] }.ownLinks := by
  unfold Node.ownLinks at h ⊢
  cases hf : n.form <;> simp_all

theorem bare_addAnswer (answer : Answer) (l : Nat) :
    (n.addAnswer answer l).bare = n.bare.addAnswer answer l := by
  cases answer <;> cases hf : n.form <;>
    simp [Node.addAnswer, Node.setAnswer, Node.bare, Form.bare, Node.restore, hf]

theorem draws_addAnswer (answer : Answer) (l : Nat) : (n.addAnswer answer l).draws = n.draws := by
  cases answer <;> cases hf : n.form <;> simp [Node.addAnswer, Node.setAnswer, Node.draws, hf]

theorem ownLinks_addAnswer (answer : Answer) (l : Nat) :
    (n.addAnswer answer l).ownLinks = { n with links := n.links ++ [Item.link l] }.ownLinks := by
  cases answer <;> cases hf : n.form <;> simp [Node.addAnswer, Node.setAnswer, Node.ownLinks, hf]

theorem bare_setParam (key value : String) :
    (n.setParam key value).bare = n.bare.setParam key value := by
  unfold Node.setParam
  by_cases hempty : (key.isEmpty || value.isEmpty) = true
  · rw [if_pos hempty, if_pos hempty]
  · rw [if_neg hempty, if_neg hempty]
    by_cases hany : (n.params.any fun p => p.1 = key) = true
    · rw [if_pos hany]
      exact (if_pos hany).symm
    · rw [if_neg hany]
      exact (if_neg hany).symm

theorem isFinal_eq_of_bare {n m : Node} (h : n.bare = m.bare) : n.form.isFinal = m.form.isFinal :=
  apply_form_eq_of_bare h Form.isFinal fun role _ _ _ _ _ _ => by cases role <;> rfl

theorem isDecision_eq_of_bare {n m : Node} (h : n.bare = m.bare) :
    n.form.isDecision = m.form.isDecision :=
  apply_form_eq_of_bare h Form.isDecision fun _ _ _ _ _ _ _ => rfl

variable (f : GroupRole → Item → List Item → GroupRole × Item × List Item)

theorem bare_regroup : (n.regroup f).bare = n.bare.regroup f := by
  cases hf : n.form <;> simp [Node.regroup, Node.bare, Form.bare, hf]

theorem draws_regroup : (n.regroup f).draws = n.draws := by
  cases hf : n.form <;> simp [Node.regroup, Node.draws, hf]

theorem ownLinks_regroup : (n.regroup f).ownLinks = n.ownLinks := by
  cases hf : n.form <;> simp [Node.regroup, Node.ownLinks, hf]

end

/-- The second store is the first with the traces of drawings, as far as labels that show are
concerned. Whoever has left a trace still draws the link. -/
structure Traced (traces : List Trace) (σ τ : Store) : Prop where
  size : τ.nodes.size = σ.nodes.size
  linkCount : τ.links.size = σ.links.size
  nextId : τ.nextId = σ.nextId
  bare : ∀ i, (τ.node i).bare = (σ.node i).bare
  target : ∀ l, (τ.link l).target = (σ.link l).target
  labels : ∀ l x, x ≠ "" → (some x ∈ (τ.link l).labels ↔
    some x ∈ (σ.link l).labels ∨ ∃ t ∈ traces, t.link = l ∧ t.label = some x)
  drawn : ∀ t ∈ traces, σ.Draws t.node t.link

namespace Traced

theorem refl (σ : Store) : Traced [] σ σ where
  size := rfl
  linkCount := rfl
  nextId := rfl
  bare _ := rfl
  target _ := rfl
  labels _ _ _ := by simp
  drawn := by simp

theorem traces_eq (h : Traced traces σ τ) (order : List Nat) : τ.traces order = σ.traces order := by
  have hat : τ.tracesAt = σ.tracesAt := by
    funext i
    have halong : τ.traceAlong i = σ.traceAlong i := by
      funext item
      cases item <;> simp only [Store.traceAlong, direction_eq_of_bare (h.bare i)]
    rw [Store.tracesAt, Store.tracesAt, draws_eq_of_bare (h.bare i), ownLinks_eq_of_bare (h.bare i),
      halong]
  rw [Store.traces, Store.traces, hat]

theorem redrawn (h : Traced traces σ τ) {order : List Nat} (hr : Drawn (τ.traces order) τ υ) :
    Traced (σ.traces order ++ traces) σ υ where
  size := hr.size.trans h.size
  linkCount := hr.linkCount.trans h.linkCount
  nextId := hr.nextId.trans h.nextId
  bare i := (hr.bare i).trans (h.bare i)
  target l := (hr.target l).trans (h.target l)
  labels l x hx := by
    rw [hr.left, h.labels l x hx, h.traces_eq]
    simp only [List.mem_append, or_and_right, exists_or]
    rw [or_assoc]
    exact or_congr_right or_comm
  drawn t ht := by
    rcases List.mem_append.1 ht with ht | ht
    · obtain ⟨i, -, hi, he⟩ := mem_traces.1 ht
      rw [he]
      exact hi
    · exact h.drawn t ht

theorem countId (h : Traced traces σ τ) : Traced traces σ.countId τ.countId :=
  { h with nextId := congrArg (· + 1) h.nextId }

theorem pushNode (h : Traced traces σ τ) (n : Node) :
    Traced traces (σ.pushNode n) (τ.pushNode n) where
  size := by simp [h.size]
  linkCount := h.linkCount
  nextId := h.nextId
  bare i := by
    rw [σ.node_pushNode, τ.node_pushNode, h.size]
    split
    · rfl
    · exact h.bare i
  target := h.target
  labels := h.labels
  drawn t ht := by
    have hdraws := h.drawn t ht
    have hne : t.node ≠ σ.nodes.size := by
      intro he
      have hown := hdraws.2
      rw [he, σ.node_eq_default _ (Nat.le_refl _)] at hown
      cases hown
    unfold Store.Draws
    rw [σ.node_pushNode_of_ne t.node n hne]
    exact hdraws

theorem pushLink (h : Traced traces σ τ) (k : Link) :
    Traced traces (σ.pushLink k) (τ.pushLink k) where
  size := h.size
  linkCount := by simp [h.linkCount]
  nextId := h.nextId
  bare := h.bare
  target l := by
    rw [σ.link_pushLink, τ.link_pushLink, h.linkCount]
    split
    · rfl
    · exact h.target l
  labels l x hx := by
    rw [σ.link_pushLink, τ.link_pushLink, h.linkCount]
    split
    next hl =>
      -- a new link has no traces, as the place was empty in both stores
      have hnone : ¬∃ t ∈ traces, t.link = l ∧ t.label = some x := by
        intro ht
        have hmem := (h.labels l x hx).2 (.inr ht)
        rw [τ.link_eq_default l (by rw [hl, h.linkCount])] at hmem
        cases hmem
      simp only [hnone, or_false]
    next => exact h.labels l x hx
  drawn := h.drawn

theorem mapNode (h : Traced traces σ τ) (i : Nat) {f : Node → Node}
    (hf : (f (τ.node i)).bare = (f (σ.node i)).bare)
    (hd : (σ.node i).draws = true → (f (σ.node i)).draws = true ∧
      ∀ item ∈ (σ.node i).ownLinks, item ∈ (f (σ.node i)).ownLinks) :
    Traced traces (σ.mapNode i f) (τ.mapNode i f) where
  size := by simp [h.size]
  linkCount := h.linkCount
  nextId := h.nextId
  bare j := by
    by_cases hi : i < σ.nodes.size
    · rw [σ.node_mapNode_of_lt i j f hi, τ.node_mapNode_of_lt i j f (h.size ▸ hi)]
      split
      · exact hf
      · exact h.bare j
    · rw [σ.mapNode_of_le i f (by omega), τ.mapNode_of_le i f (by have := h.size; omega)]
      exact h.bare j
  target := h.target
  labels := h.labels
  drawn t ht := by
    obtain ⟨hdraws, hown⟩ := h.drawn t ht
    refine σ.node_mapNode_keeps i t.node f (P := fun n =>
      n.draws = true ∧ .link t.link ∈ n.ownLinks)
      ⟨hdraws, hown⟩ ?_
    intro he
    rw [he] at hdraws hown ⊢
    exact ⟨(hd hdraws).1, (hd hdraws).2 _ hown⟩

theorem addLabel (h : Traced traces σ τ) (l : Nat) (label : Label) :
    Traced traces (σ.addLabel l label) (τ.addLabel l label) where
  size := h.size
  linkCount := by simp [Store.addLabel, h.linkCount]
  nextId := h.nextId
  bare := h.bare
  target j := by
    rw [σ.target_addLabel, τ.target_addLabel]
    exact h.target j
  labels j x hx := by
    rw [σ.mem_addLabel, τ.mem_addLabel, h.linkCount, h.labels j x hx, or_right_comm]
  drawn := h.drawn

theorem withBox (h : Traced traces σ τ) (shape : Shape) (text : String) (code : Option Code.Piece) :
    Traced traces (σ.withBox shape text code) (τ.withBox shape text code) := by
  unfold Store.withBox
  rw [h.nextId]
  exact h.countId.pushNode _

theorem withDecision (h : Traced traces σ τ) (role : DecisionRole) (text : String)
    (code : Option Code.Piece) :
    Traced traces (σ.withDecision role text code) (τ.withDecision role text code) := by
  unfold Store.withDecision
  rw [h.nextId]
  exact h.countId.pushNode _

theorem withGroup (h : Traced traces σ τ) (role : GroupRole) (head : Item) (tails : List Item)
    (code : Option Code.Piece) :
    Traced traces (σ.withGroup role head tails code) (τ.withGroup role head tails code) := by
  unfold Store.withGroup
  rw [h.nextId]
  exact h.countId.pushNode _

theorem withBridge (h : Traced traces σ τ) (answer : Bool) (parent child : Item)
    (labels : List Label) :
    Traced traces (σ.withBridge answer parent child labels)
      (τ.withBridge answer parent child labels) := by
  unfold Store.withBridge
  rw [h.nextId, h.linkCount]
  exact (h.countId.pushLink _).pushNode _

theorem withLink (h : Traced traces σ τ) (i : Nat) (target : Item) (labels : List Label) :
    Traced traces (σ.withLink i target labels) (τ.withLink i target labels) := by
  unfold Store.withLink
  rw [h.linkCount]
  refine (h.pushLink ⟨target, labels⟩).mapNode i ?_ fun hdraws => ⟨hdraws, fun item hitem => ?_⟩
  · exact (congrArg (fun n : Node => { n with links := n.links ++ [Item.link σ.links.size] })
      (h.bare i) :)
  · exact mem_ownLinks_append hitem

theorem moveBridge (h : Traced traces σ τ) (i : Nat) (target : Item) (labels : List Label) :
    Traced traces (σ.moveBridge i target labels) (τ.moveBridge i target labels) := by
  unfold Store.moveBridge
  cases hf : (σ.node i).form with
  | bridge answer parent child old link =>
    rw [form_eq_of_bare (h.bare i) (by simp [Node.isGroup, hf, Form.isGroup]), hf, h.linkCount]
    refine (h.pushLink _).mapNode i ?_ fun hdraws => ?_
    · let moved :=
        Form.bridge answer parent target (bridgeLabels answer old labels) (.link σ.links.size)
      exact (congrArg (fun n : Node => { n with form := moved }) (h.bare i) :)
    · rw [σ.node_pushLink, Node.draws, hf] at hdraws
      cases hdraws
  | group role head tails d c =>
    obtain ⟨d', c', hf'⟩ := group_of_bare_eq (h.bare i) hf
    rw [hf']
    exact h
  | box shape =>
    rw [form_eq_of_bare (h.bare i) (by simp [Node.isGroup, hf, Form.isGroup]), hf]
    exact h
  | decision role yes no =>
    rw [form_eq_of_bare (h.bare i) (by simp [Node.isGroup, hf, Form.isGroup]), hf]
    exact h

theorem withAnswer (h : Traced traces σ τ) (i : Nat) (answer : Answer) (target : Item)
    (direction : Label) :
    Traced traces (σ.withAnswer i answer target direction)
      (τ.withAnswer i answer target direction) := by
  have hlink : Traced traces (σ.withAnswerLink i answer target direction)
      (τ.withAnswerLink i answer target direction) := by
    unfold Store.withAnswerLink
    rw [h.size]
    exact (h.withBridge true (.node i) target _).pushLink _
  unfold Store.withAnswer
  rw [h.linkCount]
  refine hlink.mapNode i ?_ fun hdraws => ⟨?_, fun item hitem => ?_⟩
  · rw [bare_addAnswer, bare_addAnswer, hlink.bare i]
  · rwa [draws_addAnswer]
  · rw [ownLinks_addAnswer]
    exact mem_ownLinks_append hitem

theorem regroup (h : Traced traces σ τ) (i : Nat)
    (f : GroupRole → Item → List Item → GroupRole × Item × List Item) :
    Traced traces (σ.mapNode i (·.regroup f)) (τ.mapNode i (·.regroup f)) := by
  refine h.mapNode i ?_ fun hdraws => ⟨?_, fun item hitem => ?_⟩
  · rw [bare_regroup, bare_regroup, h.bare i]
  · rwa [draws_regroup]
  · rwa [ownLinks_regroup]

theorem mapPlain (h : Traced traces σ τ) (i : Nat) {f : Node → Node}
    (hform : ∀ n, (f n).form = n.form) (hlinks : ∀ n, (f n).links = n.links)
    (hbare : ∀ n, (f n).bare = f n.bare) :
    Traced traces (σ.mapNode i f) (τ.mapNode i f) := by
  refine h.mapNode i ?_ fun hdraws => ⟨?_, fun item hitem => ?_⟩
  · rw [hbare, hbare, h.bare i]
  · rwa [Node.draws, hform]
  · rwa [Node.ownLinks, hform, hlinks]

theorem within (h : Traced traces σ τ) {item : Item} (hitem : item.Within σ) : item.Within τ := by
  intro i hi
  rw [h.size]
  exact hitem i hi

end Traced

/-- The two actions end alike, with values in the relation or with one fault, and leave one store
with traces of the other. -/
def Agree {α : Type} (traces : List Trace) (related : α → α → Prop) (σ τ : Store)
    (act act' : Action α) : Prop :=
  match act σ, act' τ with
  | .ok a σ', .ok b τ' => related a b ∧ Traced traces σ' τ'
  | .error f σ', .error f' τ' => f' = f ∧ Traced traces σ' τ'
  | _, _ => False

namespace Agree

variable {α β : Type} {related : α → α → Prop} {related' : β → β → Prop} {σ' τ' : Store}
  {act act' : Action α}

theorem of_ok {a b : α} (h : act σ = .ok a σ') (h' : act' τ = .ok b τ') (hr : related a b)
    (ht : Traced traces σ' τ') : Agree traces related σ τ act act' := by
  unfold Agree
  rw [h, h']
  exact ⟨hr, ht⟩

theorem of_error {f : Fault} (h : act σ = .error f σ') (h' : act' τ = .error f τ')
    (ht : Traced traces σ' τ') : Agree traces related σ τ act act' := by
  unfold Agree
  rw [h, h']
  exact ⟨rfl, ht⟩

theorem of_eq {alt alt' : Action α} (h : act σ = alt σ') (h' : act' τ = alt' τ')
    (ha : Agree traces related σ' τ' alt alt') : Agree traces related σ τ act act' := by
  unfold Agree
  rw [h, h']
  exact ha

theorem cases (h : Agree traces related σ τ act act') :
    (∃ a b σ' τ', act σ = .ok a σ' ∧ act' τ = .ok b τ' ∧ related a b ∧ Traced traces σ' τ') ∨
      ∃ f σ' τ', act σ = .error f σ' ∧ act' τ = .error f τ' ∧ Traced traces σ' τ' := by
  unfold Agree at h
  split at h
  next a σ' b τ' ha hb => exact .inl ⟨a, b, σ', τ', ha, hb, h⟩
  next f σ' f' τ' ha hb =>
    obtain ⟨rfl, ht⟩ := h
    exact .inr ⟨_, σ', τ', ha, hb, ht⟩
  next => exact h.elim

theorem bind {k k' : α → Action β} {post post' : α → Store → Prop}
    (h : Agree traces related σ τ act act') (hk : Keeps σ act post) (hk' : Keeps τ act' post')
    (hnext : ∀ a b σ' τ', related a b → Traced traces σ' τ' → Grown σ σ' → Grown τ τ' →
      Agree traces related' σ' τ' (k a) (k' b)) :
    Agree traces related' σ τ (act >>= k) (act' >>= k') := by
  obtain ⟨a, b, σ', τ', ha, hb, hr, ht⟩ | ⟨f, σ', τ', ha, hb, ht⟩ := h.cases
  · exact of_eq (bind_ok ha) (bind_ok hb) (hnext a b σ' τ' hr ht (hk.ok ha).1 (hk'.ok hb).1)
  · exact of_error (bind_error ha) (bind_error hb) ht

theorem lacks (h : Traced traces σ τ) (item : Item) (part : String) :
    Agree traces related σ τ (Graph.lacks item part) (Graph.lacks item part) := by
  have hrun : (Graph.lacks item part : Action α) τ
      = .error (.noAttribute (σ.kindOf item) part) τ := by
    rw [← kindOf_eq_of_bare h.bare item]
    rfl
  exact of_error rfl hrun h

theorem forM {f : β → Action Unit} (items : List β) (h : Traced traces σ τ)
    (hσ : σ.Sound) (hτ : τ.Sound)
    (hf : ∀ item ∈ items, ∀ σ' τ', Traced traces σ' τ' → Grown σ σ' → Grown τ τ' →
      Agree traces (fun _ _ => True) σ' τ' (f item) (f item) ∧
        Keeps σ' (f item) (fun _ _ => True) ∧ Keeps τ' (f item) fun _ _ => True) :
    Agree traces (fun _ _ => True) σ τ (items.forM f) (items.forM f) := by
  induction items generalizing σ τ with
  | nil => exact of_ok rfl rfl trivial h
  | cons item rest ih =>
    obtain ⟨hagree, hkeeps, hkeeps'⟩ := hf item List.mem_cons_self σ τ h (.refl hσ) (.refl hτ)
    refine hagree.bind hkeeps hkeeps' fun _ _ σ₁ τ₁ _ h₁ hσ₁ hτ₁ => ?_
    refine ih h₁ hσ₁.sound hτ₁.sound fun item' hitem' σ₂ τ₂ h₂ hσ₂ hτ₂ => ?_
    exact hf item' (List.mem_cons_of_mem _ hitem') σ₂ τ₂ h₂ (hσ₁.trans hσ₂) (hτ₁.trans hτ₂)

end Agree

section

variable (h : Traced traces σ τ)
include h

theorem setDirection_agree (i : Nat) (direction : Label) :
    Agree traces (fun _ _ => True) σ τ (setDirection i direction) (setDirection i direction) :=
  .of_ok rfl rfl trivial (h.mapPlain i (fun _ => rfl) (fun _ => rfl) fun _ => rfl)

theorem setParam_agree (i : Nat) (key value : String) :
    Agree traces (fun _ _ => True) σ τ (setParam i key value) (setParam i key value) := by
  refine .of_ok rfl rfl trivial (h.mapPlain i ?_ ?_ fun n => bare_setParam n key value)
  all_goals exact fun n => field_setParam _ (fun _ _ => rfl) n key value

theorem setTails_agree (i : Nat) (f : List Item → List Item) :
    Agree traces (fun _ _ => True) σ τ (setTails i f) (setTails i f) :=
  .of_ok (setTails_run i f) (setTails_run i f) trivial (h.regroup i _)

theorem breakAlignment_agree (item : Item) :
    Agree traces (fun _ _ => True) σ τ (breakAlignment item) (breakAlignment item) := by
  cases item with
  | nothing => exact .lacks h _ _
  | link l => exact .lacks h _ _
  | node i =>
    refine .of_eq (bind_ok (getNode_run σ i)) (bind_ok (getNode_run τ i)) ?_
    rw [isDecision_eq_of_bare (h.bare i)]
    split
    · exact setParam_agree h i _ _
    · exact .lacks h _ _

theorem moveHead_agree (i : Nat) (item : Item) :
    Agree traces (fun _ _ => True) σ τ (moveHead i item) (moveHead i item) := by
  have hset := h.regroup i fun role _ tails => (role, item, tails)
  cases item with
  | nothing => exact .of_ok rfl rfl trivial h
  | node j => exact .of_ok (bind_ok (setHead_run i _)) (bind_ok (setHead_run i _)) trivial hset
  | link l =>
    exact .of_eq (bind_ok (setHead_run i _)) (bind_ok (setHead_run i _)) (.of_error rfl rfl hset)

variable (hσ : σ.Sound) (hτ : τ.Sound)
include hσ hτ

theorem connectAnswer_agree (i : Nat) (answer : Answer) {target : Item} (ht : target.Within σ)
    (direction : Label) :
    Agree traces (fun _ _ => True) σ τ (connectAnswer i answer target direction)
      (connectAnswer i answer target direction) :=
  .of_ok (connectAnswer_run hσ i answer ht direction)
    (connectAnswer_run hτ i answer (h.within ht) direction)
    trivial (h.withAnswer i answer target direction)

end

theorem connectWithin_agree (fuel : Nat) : ∀ {σ τ : Store}, Traced traces σ τ → σ.Sound → τ.Sound →
    ∀ (i : Nat) {target : Item}, target.Within σ → ∀ labels,
      Agree traces (fun _ _ => True) σ τ (connectWithin fuel i target labels)
        (connectWithin fuel i target labels) := by
  induction fuel with
  | zero =>
    intro σ τ h hσ hτ i target _ labels
    exact .of_error rfl rfl h
  | succ fuel ih =>
    intro σ τ h hσ hτ i target ht labels
    by_cases hfinal : (σ.node i).form.isFinal = true
    · exact .of_ok (connectWithin_final fuel target labels hfinal)
        (connectWithin_final fuel target labels ((isFinal_eq_of_bare (h.bare i)).trans hfinal))
          trivial h
    by_cases htakes : (σ.node i).form.takesLinks = true
    · have hform : (τ.node i).form = (σ.node i).form := by
        refine form_eq_of_bare (h.bare i) ?_
        cases hf : (σ.node i).form <;> simp_all [Node.isGroup, Form.isGroup, Form.takesLinks]
      exact .of_ok (connectWithin_plain fuel target labels htakes (hσ.fits i).whole)
        (connectWithin_plain fuel target labels (hform ▸ htakes) (hτ.fits i).whole) trivial
        (h.withLink i target _)
    cases hf : (σ.node i).form with
    | box shape => exact absurd hf (Form.ne_box hfinal htakes shape)
    | decision role yes no =>
      obtain rfl : role = .loop := by simpa [hf, Form.takesLinks] using htakes
      have hf' : (τ.node i).form = .decision .loop yes no :=
        (form_eq_of_bare (h.bare i) (by simp [Node.isGroup, hf, Form.isGroup])).trans hf
      have hi : i < σ.nodes.size := lt_size_of_form hf (by simp)
      have hi' : i < τ.nodes.size := lt_size_of_form hf' (by simp)
      refine .of_eq (connectWithin_loop fuel target labels hf)
        (connectWithin_loop fuel target labels hf') ?_
      split
      · refine (setDirection_agree h i _).bind (setDirection_keeps hσ i _)
          (setDirection_keeps hτ i _) fun _ _ σ₁ τ₁ _ h₁ hσ₁ hτ₁ => ?_
        have ht₁ := ht.grown hσ₁
        refine (connectAnswer_agree h₁ hσ₁.sound hτ₁.sound i .no ht₁ _).bind
          (connectAnswer_keeps hσ₁.sound (Nat.lt_of_lt_of_le hi hσ₁.size) .no ht₁ _)
          (connectAnswer_keeps hτ₁.sound (Nat.lt_of_lt_of_le hi' hτ₁.size) .no (h₁.within ht₁) _)
          fun _ _ σ₂ τ₂ _ h₂ _ _ => ?_
        exact .of_ok rfl rfl trivial h₂
      · refine (connectAnswer_agree h hσ hτ i .no ht _).bind (connectAnswer_keeps hσ hi .no ht _)
          (connectAnswer_keeps hτ hi' .no (h.within ht) _) fun _ _ σ₂ τ₂ _ h₂ _ _ => ?_
        exact .of_ok rfl rfl trivial h₂
    | bridge answer parent child old link =>
      have hf' : (τ.node i).form = .bridge answer parent child old link :=
        (form_eq_of_bare (h.bare i) (by simp [Node.isGroup, hf, Form.isGroup])).trans hf
      exact .of_ok (connectWithin_bridge fuel target labels hf)
        (connectWithin_bridge fuel target labels hf')
        trivial (h.moveBridge i target labels)
    | group role head tails d c =>
      obtain ⟨d', c', hf'⟩ := group_of_bare_eq (h.bare i) hf
      have hopen : (σ.node i).form.isFinal = false := by simpa using hfinal
      refine .of_eq (connectWithin_group fuel target labels hf hopen)
        (connectWithin_group fuel target labels hf'
          ((isFinal_eq_of_bare (h.bare i)).trans hopen)) ?_
      refine .forM tails h hσ hτ fun item _ σ₁ τ₁ h₁ hσ₁ hτ₁ => ?_
      cases item with
      | node j =>
        have ht₁ := ht.grown hσ₁
        exact ⟨ih h₁ hσ₁.sound hτ₁.sound j ht₁ _, connectWithin_keeps fuel hσ₁.sound j ht₁ _,
          connectWithin_keeps fuel hτ₁.sound j (h₁.within ht₁) _⟩
      | nothing =>
        exact ⟨.of_ok rfl rfl trivial h₁, .of_ok rfl (.refl hσ₁.sound) trivial,
          .of_ok rfl (.refl hτ₁.sound) trivial⟩
      | link l =>
        exact ⟨.of_ok rfl rfl trivial h₁, .of_ok rfl (.refl hσ₁.sound) trivial,
          .of_ok rfl (.refl hτ₁.sound) trivial⟩

theorem connect_agree (h : Traced traces σ τ) (hσ : σ.Sound) (hτ : τ.Sound) (i : Nat)
    {target : Item} (ht : target.Within σ) (labels : List Label) :
    Agree traces (fun _ _ => True) σ τ (connect i target labels) (connect i target labels) := by
  have hrun : connect i target labels τ = connectWithin (σ.nodes.size + 1) i target labels τ := by
    rw [← h.size]
    rfl
  exact .of_eq rfl hrun (connectWithin_agree _ h hσ hτ i ht labels)

/-- The store with the labels of the traces on its links. -/
def Store.withTraces (s : Store) (traces : List Trace) : Store :=
  { s with links := s.links.mapIdx fun l k =>
      { k with labels := k.labels ++ (traces.filter (·.link = l)).map (·.label) } }

section

variable (s : Store) (traces : List Trace) (l : Nat)

theorem target_withTraces : ((s.withTraces traces).link l).target = (s.link l).target := by
  by_cases hl : l < s.links.size <;> simp [Store.link, Store.withTraces, hl]

theorem mem_withTraces {d : Label} : d ∈ ((s.withTraces traces).link l).labels ↔
    d ∈ (s.link l).labels ∨ l < s.links.size ∧ ∃ t ∈ traces, t.link = l ∧ t.label = d := by
  by_cases hl : l < s.links.size <;> simp [Store.link, Store.withTraces, hl, and_assoc]

end

section

variable {i : Nat} (hf : ¬∃ answer parent child labels link,
  (σ.node i).form = .bridge answer parent child labels link)
include hf

theorem ownLinks_of_not_bridge : (σ.node i).ownLinks = (σ.node i).links := by
  unfold Node.ownLinks
  split
  next hbridge => exact absurd ⟨_, _, _, _, _, hbridge⟩ hf
  next => rfl

theorem linesFrom_of_not_bridge : σ.linesFrom i = if (σ.node i).draws
    then (σ.node i).links.filterMap (σ.lineAlong i) else [] := by
  unfold Store.linesFrom
  split
  next hbridge => exact absurd ⟨_, _, _, _, _, hbridge⟩ hf
  next hbridge => exact absurd ⟨_, _, _, _, _, hbridge⟩ hf
  next => rfl

end

/-- The link leads to a node without a name, and so there is no line for it. -/
def Store.Veiled (s : Store) (l : Nat) : Prop := ∃ j, (s.link l).target = .node j ∧ s.name j = ""

theorem lineTo_of_unnamed {j : Nat} (hname : σ.name j = "") (source : Nat) (labels : List Label) :
    σ.lineTo source (.node j) labels = none := by
  simp [Store.lineTo, hname]

section

variable (hs : σ.Sound) (hsize : τ.nodes.size = σ.nodes.size)
  (hbare : ∀ i, (τ.node i).bare = (σ.node i).bare)
  (htarget : ∀ l, (τ.link l).target = (σ.link l).target)
  (hkept : ∀ l x, x ≠ "" → some x ∈ (σ.link l).labels → some x ∈ (τ.link l).labels)
  (hadded : ∀ l x, x ≠ "" → some x ∈ (τ.link l).labels → some x ∈ (σ.link l).labels ∨
    (∃ i, σ.Draws i l ∧ (σ.node i).direction = some x) ∨ σ.Veiled l)
include hs hsize hbare htarget hkept hadded

/-- Labels that are in force anyway, or stand where no line is, do not change the lines of a
node. -/
theorem linesFrom_eq_of_labels (i : Nat) : τ.linesFrom i = σ.linesFrom i := by
  have hname := name_eq_of_size hbare hsize
  by_cases hbridge : ∃ answer parent child labels link,
      (σ.node i).form = .bridge answer parent child labels link
  · obtain ⟨answer, parent, child, labels, link, hf⟩ := hbridge
    obtain ⟨p, rfl⟩ := (hs.fits i).parent _ _ _ _ _ hf
    obtain ⟨l, rfl, -⟩ := (hs.fits i).links link (by simp [Node.ownLinks, hf])
    have hf' := (form_eq_of_bare (hbare i) (by simp [Node.isGroup, hf, Form.isGroup])).trans hf
    unfold Store.linesFrom
    rw [hf, hf']
    dsimp only
    by_cases hveiled : σ.Veiled l
    · obtain ⟨j, hj, hunnamed⟩ := hveiled
      obtain rfl := (hs.children i _ _ _ _ l hf).symm.trans hj
      rw [lineTo_of_unnamed hunnamed, lineTo_of_unnamed ((hname j).trans hunnamed)]
    rw [lineTo_congr hname fun x hx => ⟨fun hmem => ?_, hkept l x hx⟩]
    -- no node draws the link of a bridge
    rcases hadded l x hx hmem with hmem | ⟨j, ⟨hdraws, hown⟩, -⟩ | hv
    · exact hmem
    · have hi : Item.link l ∈ (σ.node i).ownLinks := by simp [Node.ownLinks, hf]
      rw [hs.apart j i l hown hi, Node.draws, hf] at hdraws
      cases hdraws
    · exact absurd hv hveiled
  · have hbridge' : ¬∃ answer parent child labels link,
        (τ.node i).form = .bridge answer parent child labels link := by
      rintro ⟨answer, parent, child, labels, link, hf⟩
      obtain heq | ⟨_, _, _, _, _, _, _, hgroup, -⟩ := form_of_bare_eq (hbare i)
      · exact hbridge ⟨_, _, _, _, _, heq.symm.trans hf⟩
      · rw [hgroup] at hf
        cases hf
    rw [linesFrom_of_not_bridge hbridge, linesFrom_of_not_bridge hbridge',
      draws_eq_of_bare (hbare i),
      links_eq_of_bare (hbare i)]
    split
    next hdraws =>
      refine List.filterMap_congr fun item hitem => ?_
      rw [← ownLinks_of_not_bridge hbridge] at hitem
      obtain ⟨l, rfl, -⟩ := (hs.fits i).links item hitem
      unfold Store.lineAlong
      dsimp only
      rw [htarget, direction_eq_of_bare (hbare i)]
      by_cases hveiled : σ.Veiled l
      · obtain ⟨j, hj, hunnamed⟩ := hveiled
        rw [hj, lineTo_of_unnamed hunnamed, lineTo_of_unnamed ((hname j).trans hunnamed)]
      refine lineTo_congr hname fun x hx => ?_
      simp only [List.mem_append, List.mem_singleton]
      constructor
      · rintro (hmem | hdir)
        · rcases hadded l x hx hmem with hmem | ⟨j, ⟨-, hown⟩, hdir⟩ | hv
          · exact .inl hmem
          · rw [hs.apart j i l hown hitem] at hdir
            exact .inr hdir.symm
          · exact absurd hv hveiled
        · exact .inr hdir
      · rintro (hmem | hdir)
        · exact .inl (hkept l x hx hmem)
        · exact .inr hdir
    next => rfl

theorem drawing_eq_of_labels (order : List Nat) : τ.drawing order = σ.drawing order := by
  have hnodes : (τ.drawing order).nodes = (σ.drawing order).nodes :=
    List.filterMap_congr fun i _ => definition?_eq_of_bare (hbare i)
  have hlines : (τ.drawing order).lines = (σ.drawing order).lines :=
    List.flatMap_congr fun i _ => linesFrom_eq_of_labels hs hsize hbare htarget hkept hadded i
  exact congrArg₂ Drawing.mk hnodes hlines

end

/-- Traces of directions that are in force, or stand where no line is, do not show. -/
theorem drawing_withTraces_of_labels (hσ : σ.Sound) (htraces : ∀ t ∈ traces, ∀ x, x ≠ "" →
      t.label = some x → (∃ i, σ.Draws i t.link ∧ (σ.node i).direction = some x) ∨ σ.Veiled t.link)
    (order : List Nat) : (σ.withTraces traces).drawing order = σ.drawing order := by
  apply drawing_eq_of_labels hσ
  · rfl
  · exact fun _ => rfl
  · exact target_withTraces σ traces
  · intro l x _ hmem
    exact (mem_withTraces σ traces l).2 (.inl hmem)
  · intro l x hx hmem
    rcases (mem_withTraces σ traces l).1 hmem with hmem | ⟨-, t, ht, rfl, hlabel⟩
    · exact .inl hmem
    · exact .inr (htraces t ht x hx hlabel)

namespace Traced

variable (h : Traced traces σ τ)
include h

theorem mem_labels (l : Nat) {x : String} (hx : x ≠ "") :
    some x ∈ (τ.link l).labels ↔ some x ∈ ((σ.withTraces traces).link l).labels := by
  rw [h.labels l x hx, mem_withTraces]
  refine or_congr_right ⟨fun ht => ⟨?_, ht⟩, And.right⟩
  by_contra hl
  have hmem := (h.labels l x hx).2 (.inr ht)
  rw [τ.link_eq_default l (by have := h.linkCount; omega)] at hmem
  cases hmem

theorem drawing_eq (hτ : τ.Sound) (order : List Nat) :
    τ.drawing order = (σ.withTraces traces).drawing order := by
  symm
  apply drawing_eq_of_labels hτ
  · exact h.size.symm
  · intro i
    exact (h.bare i).symm
  · intro l
    rw [target_withTraces, h.target]
  · intro l x hx
    exact (h.mem_labels l hx).1
  · intro l x hx hmem
    exact .inl ((h.mem_labels l hx).2 hmem)

theorem drawing_withTraces (hσ : σ.Sound)
    (hforce : ∀ t ∈ traces, isGiven t.label = true → (σ.node t.node).direction = t.label)
    (order : List Nat) : (σ.withTraces traces).drawing order = σ.drawing order := by
  refine drawing_withTraces_of_labels hσ ?_ order
  intro t ht x hx hlabel
  have hgiven : isGiven t.label = true := by simp [hlabel, isGiven, hx]
  exact .inl ⟨t.node, h.drawn t ht, (hforce t ht hgiven).trans hlabel⟩

end Traced

end CodeChart.Graph
