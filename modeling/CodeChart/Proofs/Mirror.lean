import CodeChart.Graph.Simplify
import CodeChart.Proofs.Drawable
import CodeChart.Proofs.Renumber

/-! The same work in two stores. A store mirrors another if it holds a copy of its nodes and links
behind the nodes and links of a third, with greater numbers in the names. An action on nodes of the
first store and the same action on their copies do the same: the stores that they leave mirror each
other, and they fail with the same fault; what lies before the copy stays as it is. Connecting nodes
follows groups for as long as the store is large, so there the copy may get further than the
original. A copy may also do without the marks of alignment, which no action looks at. All stores of
which copies are made can be drawn, and actions keep them so, whether they succeed or fail. -/
namespace CodeChart.Graph

/-- Where a copy lies: behind the nodes and links of `base`, with numbers that go on from its
counter. A copy that is not `marked` need not have the parameters of nodes and the label `right`. -/
structure Offset where
  base : Store
  marked : Bool := true

def Offset.nodes (o : Offset) : Nat := o.base.nodes.size

def Offset.links (o : Offset) : Nat := o.base.links.size

def Offset.ids (o : Offset) : Nat := o.base.nextId

def Item.shift (o : Offset) : Item → Item
  | .nothing => .nothing
  | .node i => .node (o.nodes + i)
  | .link l => .link (o.links + l)

def GroupRole.shift (o : Offset) : GroupRole → GroupRole
  | .function start input head tails finish =>
    .function (start.shift o) (input.shift o) (head.shift o)
      (tails.map (Item.shift o)) (finish.shift o)
  | .loop test => .loop (test.shift o)
  | .branch test => .branch (test.shift o)
  | .returning output finish => .returning (output.shift o) (finish.shift o)
  | .case test => .case (test.shift o)
  | .selection cases => .selection (cases.map (Item.shift o))
  | role => role

def Form.shift (o : Offset) : Form → Form
  | .box shape => .box shape
  | .decision role yes no => .decision role (yes.shift o) (no.shift o)
  | .bridge answer parent child labels link =>
    .bridge answer (parent.shift o) (child.shift o) labels (link.shift o)
  | .group role head tails d c =>
    .group (role.shift o) (head.shift o) (tails.map (Item.shift o)) d c

structure Link.Mirrors (o : Offset) (k k' : Link) : Prop where
  target : k'.target = k.target.shift o
  labels : ∀ x, o.marked = true ∨ x ≠ "right" → (some x ∈ k'.labels ↔ some x ∈ k.labels)

structure Node.Mirrors (o : Offset) (n n' : Node) : Prop where
  form : n'.form = n.form.shift o
  name : n'.name = renumber o.ids n.name
  text : n'.text = n.text
  links : n'.links = n.links.map (Item.shift o)
  params : o.marked = true → n'.params = n.params
  direction : n'.direction = n.direction
  absent : n'.absent = n.absent
  mark : n'.mark = n.mark

/-- The second store holds a copy of the first behind all that the base holds. -/
structure Store.Mirrors (o : Offset) (s s' : Store) : Prop where
  size : s'.nodes.size = o.nodes + s.nodes.size
  linkCount : s'.links.size = o.links + s.links.size
  node : ∀ i, (s.node i).Mirrors o (s'.node (o.nodes + i))
  link : ∀ l, (s.link l).Mirrors o (s'.link (o.links + l))
  nodeBefore : ∀ i < o.nodes, s'.node i = o.base.node i
  linkBefore : ∀ l < o.links, s'.link l = o.base.link l
  nextId : s'.nextId = s.nextId + o.ids
  passes : s'.passes = o.base.passes + s.passes
  drawable : s.Drawable

/-- Where a store begins a copy of the empty store. -/
def Store.offset (s : Store) (marked : Bool := true) : Offset := ⟨s, marked⟩

/-- The node at `j` is the copy of the node at `i`. -/
def Offset.Copies (o : Offset) (i j : Nat) : Prop := j = o.nodes + i

theorem Node.Mirrors.default (o : Offset) : (default : Node).Mirrors o default :=
  ⟨rfl, rfl, rfl, rfl, fun _ => rfl, rfl, rfl, rfl⟩

theorem Link.Mirrors.same (o : Offset) (target : Item) (labels : List Label) :
    Link.Mirrors o ⟨target, labels⟩ ⟨target.shift o, labels⟩ :=
  ⟨rfl, fun _ _ => .rfl⟩

theorem mirrors_empty (s : Store) (marked : Bool := true) :
    Store.Mirrors (s.offset marked) {} s where
  size := rfl
  linkCount := rfl
  node i := by
    rw [s.node_eq_default ((s.offset marked).nodes + i) (Nat.le_add_right _ _)]
    exact .default _
  link l := by
    rw [s.link_eq_default ((s.offset marked).links + l) (Nat.le_add_right _ _)]
    exact .same _ .nothing []
  nodeBefore _ _ := rfl
  linkBefore _ _ := rfl
  nextId := (Nat.zero_add _).symm
  passes := rfl
  drawable := sound_empty.drawable

variable {o : Offset} {s s' : Store}

theorem shift_injective (o : Offset) : Function.Injective (Item.shift o) := by
  intro x y h
  cases x <;> cases y <;> simp_all [Item.shift]

@[simp] theorem shift_eq_nothing {item : Item} : item.shift o = .nothing ↔ item = .nothing := by
  cases item <;> simp [Item.shift]

@[simp] theorem isGroup_shift (form : Form) : (form.shift o).isGroup = form.isGroup := by
  cases form <;> rfl

@[simp] theorem isDecision_shift (form : Form) : (form.shift o).isDecision = form.isDecision := by
  cases form <;> rfl

@[simp] theorem kind_shift (form : Form) : (form.shift o).kind = form.kind := by
  cases form with
  | group role head tails d c => cases role <;> rfl
  | _ => rfl

theorem Store.Mirrors.kindOf (h : s.Mirrors o s') (item : Item) :
    s'.kindOf (item.shift o) = s.kindOf item := by
  cases item with
  | nothing => rfl
  | link l => rfl
  | node i =>
    change (s'.node (o.nodes + i)).form.kind = (s.node i).form.kind
    rw [(h.node i).form, kind_shift]

theorem nameWithin_of_endless {i : Nat} (h : ¬∃ j, HeadsTo s (.node i) j) (fuel : Nat) :
    s.nameWithin fuel i = "" := by
  induction fuel generalizing i with
  | zero => rfl
  | succ fuel ih =>
    unfold Store.nameWithin
    split
    · rename_i hf
      exact ih fun ⟨j, hj⟩ => h ⟨j, .of_group hf hj⟩
    · rfl
    · rename_i hgroup
      refine absurd ⟨i, .of_not_group ?_⟩ h
      cases hf : (s.node i).form with
      | group role head tails d c => exact absurd hf (hgroup role head tails d c)
      | _ => simp [Node.isGroup, hf, Form.isGroup]

theorem nameWithin_of_lt {fuel : Nat} (h : s.nodes.size < fuel) (i : Nat) :
    s.nameWithin fuel i = s.name i := by
  by_cases hends : ∃ j, HeadsTo s (.node i) j
  · obtain ⟨j, n, hn⟩ := hends
    have hle := hn.le_size
    rw [nameWithin_of_headsIn hn i rfl fuel (by omega), HeadsTo.name ⟨n, hn⟩]
  · rw [nameWithin_of_endless hends, Store.name, nameWithin_of_endless hends]

theorem Store.Mirrors.nameWithin (h : s.Mirrors o s') (fuel i : Nat) :
    s'.nameWithin fuel (o.nodes + i) = renumber o.ids (s.nameWithin fuel i) := by
  induction fuel generalizing i with
  | zero => rfl
  | succ fuel ih =>
    unfold Store.nameWithin
    rw [(h.node i).form, (h.node i).name]
    cases (s.node i).form with
    | group role head tails d c =>
      cases head with
      | node j => exact ih j
      | nothing => rfl
      | link l => rfl
    | _ => rfl

theorem Store.Mirrors.name (h : s.Mirrors o s') (i : Nat) :
    s'.name (o.nodes + i) = renumber o.ids (s.name i) := by
  rw [Store.name, h.nameWithin, h.size, nameWithin_of_lt (by omega)]

theorem Store.Mirrors.countId (h : s.Mirrors o s') : s.countId.Mirrors o s'.countId where
  size := h.size
  linkCount := h.linkCount
  node := h.node
  link := h.link
  nodeBefore := h.nodeBefore
  linkBefore := h.linkBefore
  nextId := by
    simp only [Store.nextId_countId, h.nextId]
    omega
  passes := h.passes
  drawable := h.drawable.countId

theorem Store.Mirrors.pushNode (h : s.Mirrors o s') {n n' : Node} (hn : n.Mirrors o n')
    (hd : (s.pushNode n).Drawable) : (s.pushNode n).Mirrors o (s'.pushNode n') where
  size := by
    simp only [Store.size_pushNode, h.size]
    omega
  linkCount := h.linkCount
  node i := by
    rw [Store.node_pushNode, Store.node_pushNode, h.size]
    by_cases hi : i = s.nodes.size
    · rw [if_pos hi, if_pos (by omega)]
      exact hn
    · rw [if_neg hi, if_neg (by omega)]
      exact h.node i
  link := h.link
  nodeBefore i hi := by
    rw [Store.node_pushNode, if_neg (by rw [h.size]; omega)]
    exact h.nodeBefore i hi
  linkBefore := h.linkBefore
  nextId := h.nextId
  passes := h.passes
  drawable := hd

theorem Store.Mirrors.pushLink (h : s.Mirrors o s') {k k' : Link} (hk : k.Mirrors o k') :
    (s.pushLink k).Mirrors o (s'.pushLink k') where
  size := h.size
  linkCount := by
    simp only [Store.linkCount_pushLink, h.linkCount]
    omega
  node := h.node
  link l := by
    rw [Store.link_pushLink, Store.link_pushLink, h.linkCount]
    by_cases hl : l = s.links.size
    · rw [if_pos hl, if_pos (by omega)]
      exact hk
    · rw [if_neg hl, if_neg (by omega)]
      exact h.link l
  nodeBefore := h.nodeBefore
  linkBefore l hl := by
    rw [Store.link_pushLink, if_neg (by rw [h.linkCount]; omega)]
    exact h.linkBefore l hl
  nextId := h.nextId
  passes := h.passes
  drawable := h.drawable.pushLink k

theorem Store.Mirrors.mapNode (h : s.Mirrors o s') (i : Nat) {f f' : Node → Node}
    (hf : ∀ n n', n.Mirrors o n' → (f n).Mirrors o (f' n')) (hd : (s.mapNode i f).Drawable) :
    (s.mapNode i f).Mirrors o (s'.mapNode (o.nodes + i) f') where
  size := by rw [Store.size_mapNode, Store.size_mapNode, h.size]
  linkCount := h.linkCount
  node j := by
    by_cases hi : i < s.nodes.size
    · rw [s.node_mapNode_of_lt i j f hi, s'.node_mapNode_of_lt _ _ f' (by rw [h.size]; omega)]
      by_cases hj : j = i
      · rw [if_pos hj, if_pos (by omega)]
        exact hf _ _ (h.node i)
      · rw [if_neg hj, if_neg (by omega)]
        exact h.node j
    · rw [s.mapNode_of_le i f (by omega), s'.mapNode_of_le _ f' (by rw [h.size]; omega)]
      exact h.node j
  link := h.link
  nodeBefore j hj := by
    rw [s'.node_mapNode_of_ne _ j f' (by omega)]
    exact h.nodeBefore j hj
  linkBefore := h.linkBefore
  nextId := h.nextId
  passes := h.passes
  drawable := hd

theorem Store.Mirrors.mapLink (h : s.Mirrors o s') (l : Nat) {f f' : Link → Link}
    (hf : ∀ k k', k.Mirrors o k' → (f k).Mirrors o (f' k')) :
    (s.mapLink l f).Mirrors o (s'.mapLink (o.links + l) f') where
  size := h.size
  linkCount := by rw [Store.linkCount_mapLink, Store.linkCount_mapLink, h.linkCount]
  node := h.node
  link j := by
    by_cases hl : l < s.links.size
    · rw [s.link_mapLink_of_lt l j f hl, s'.link_mapLink_of_lt _ _ f' (by rw [h.linkCount]; omega)]
      by_cases hj : j = l
      · rw [if_pos hj, if_pos (by omega)]
        exact hf _ _ (h.link l)
      · rw [if_neg hj, if_neg (by omega)]
        exact h.link j
    · rw [s.mapLink_of_le l f (by omega), s'.mapLink_of_le _ f' (by rw [h.linkCount]; omega)]
      exact h.link j
  nodeBefore := h.nodeBefore
  linkBefore j hj := by
    rw [s'.link_mapLink_of_ne _ j f' (by omega)]
    exact h.linkBefore j hj
  nextId := h.nextId
  passes := h.passes
  drawable := h.drawable.mapLink l f

theorem Store.Mirrors.withMessages (h : s.Mirrors o s')
    (printed printed' warnings warnings' : List String) :
    Store.Mirrors o { s with printed, warnings }
      { s' with printed := printed', warnings := warnings' } where
  size := h.size
  linkCount := h.linkCount
  node := h.node
  link := h.link
  nodeBefore := h.nodeBefore
  linkBefore := h.linkBefore
  nextId := h.nextId
  passes := h.passes
  drawable :=
    ⟨h.drawable.apart, h.drawable.whole, h.drawable.inside, h.drawable.bridge, h.drawable.mark⟩

section

variable {α β γ δ : Type}

/-- In mirrored stores the actions do the same, faults included. -/
def Mirrored (o : Offset) (related : α → β → Prop) (act : Action α) (act' : Action β) : Prop :=
  ∀ s s', s.Mirrors o s' →
    (∃ a t b t', act s = .ok a t ∧ act' s' = .ok b t' ∧ related a b ∧ t.Mirrors o t') ∨
      ∃ f t t', act s = .error f t ∧ act' s' = .error f t' ∧ t.Mirrors o t'

/-- In mirrored stores the second action does what the first one does. It need not fail where the
first one follows groups without end, nor where there are no marks. -/
def Followed (o : Offset) (related : α → β → Prop) (act : Action α) (act' : Action β) : Prop :=
  ∀ s s', s.Mirrors o s' →
    (∃ a t b t', act s = .ok a t ∧ act' s' = .ok b t' ∧ related a b ∧ t.Mirrors o t') ∨
      ∃ f t, act s = .error f t ∧
        (o.marked = true → f ≠ .endless → ∃ t', act' s' = .error f t' ∧ t.Mirrors o t')

variable {related : α → β → Prop} {related' : γ → δ → Prop} {act : Action α} {act' : Action β}
  {next : α → Action γ} {next' : β → Action δ}

namespace Mirrored

theorem of_ok {a : Store → α} {b : Store → β} {t : Store → Store} {t' : Store → Store}
    (hact : ∀ s, act s = .ok (a s) (t s)) (hact' : ∀ s, act' s = .ok (b s) (t' s))
    (h : ∀ s s', s.Mirrors o s' → related (a s) (b s') ∧ (t s).Mirrors o (t' s')) :
    Mirrored o related act act' := by
  intro s s' hs
  exact .inl ⟨_, _, _, _, hact s, hact' s', (h s s' hs).1, (h s s' hs).2⟩

theorem pure {a : α} {b : β} (h : related a b) :
    Mirrored o related (Pure.pure a : Action α) (Pure.pure b : Action β) :=
  of_ok (fun _ => rfl) (fun _ => rfl) fun _ _ hs => ⟨h, hs⟩

theorem throw (f : Fault) :
    Mirrored o related (MonadExcept.throw f : Action α) (MonadExcept.throw f : Action β) := by
  intro s s' hs
  exact .inr ⟨f, s, s', rfl, rfl, hs⟩

theorem bind (h : Mirrored o related act act')
    (hnext : ∀ a b, related a b → Mirrored o related' (next a) (next' b)) :
    Mirrored o related' (act >>= next) (act' >>= next') := by
  intro s s' hs
  obtain ⟨a, t, b, t', hrun, hrun', hab, ht⟩ | ⟨f, t, t', hrun, hrun', ht⟩ := h s s' hs
  · rw [bind_ok hrun, bind_ok hrun']
    exact hnext a b hab t t' ht
  · exact .inr ⟨f, t, t', bind_error hrun, bind_error hrun', ht⟩

/-- Going on from a value and its copy. -/
theorem step {f : α → β} (h : Mirrored o (fun a b => b = f a) act act')
    (hnext : ∀ a, Mirrored o related' (next a) (next' (f a))) :
    Mirrored o related' (act >>= next) (act' >>= next') := by
  refine h.bind ?_
  rintro a _ rfl
  exact hnext a

theorem same {act' : Action α} {next' : α → Action δ} (h : Mirrored o Eq act act')
    (hnext : ∀ a, Mirrored o related' (next a) (next' a)) :
    Mirrored o related' (act >>= next) (act' >>= next') := by
  refine h.bind ?_
  rintro a _ rfl
  exact hnext a

theorem tryCatch {handler : Fault → Action α} {handler' : Fault → Action β}
    (h : Mirrored o related act act')
    (hhandler : ∀ f, Mirrored o related (handler f) (handler' f)) :
    Mirrored o related (MonadExcept.tryCatch act handler) (MonadExcept.tryCatch act' handler') := by
  intro s s' hs
  obtain ⟨a, t, b, t', hrun, hrun', hab, ht⟩ | ⟨f, t, t', hrun, hrun', ht⟩ := h s s' hs
  · exact .inl ⟨a, t, b, t', tryCatch_ok hrun, tryCatch_ok hrun', hab, ht⟩
  · rw [tryCatch_error hrun, tryCatch_error hrun']
    exact hhandler f t t' ht

theorem lacks (item : Item) (part : String) :
    Mirrored o related (Graph.lacks item part : Action α)
      (Graph.lacks (item.shift o) part : Action β) := by
  intro s s' hs
  refine .inr ⟨.noAttribute (s.kindOf item) part, s, s', rfl, ?_, hs⟩
  rw [← hs.kindOf item]
  rfl

theorem forM {ε : Type} {f f' : ε → Action Unit} (g : ε → ε) (items : List ε)
    (h : ∀ x ∈ items, Mirrored o Eq (f x) (f' (g x))) :
    Mirrored o Eq (items.forM f) ((items.map g).forM f') := by
  induction items with
  | nil => exact .pure rfl
  | cons x rest ih =>
    obtain ⟨hx, hrest⟩ := List.forall_mem_cons.1 h
    exact hx.same fun _ => ih hrest

theorem ofExcept (value : Except Fault α) :
    Mirrored o Eq (MonadExcept.ofExcept value : Action α)
      (MonadExcept.ofExcept value : Action α) := by
  cases value with
  | ok a => exact pure rfl
  | error f => exact throw f

theorem followed (h : Mirrored o related act act') : Followed o related act act' := by
  intro s s' hs
  obtain hok | ⟨f, t, t', hrun, hrun', ht⟩ := h s s' hs
  · exact .inl hok
  · exact .inr ⟨f, t, hrun, fun _ _ => ⟨t', hrun', ht⟩⟩

end Mirrored

namespace Followed

theorem pure {a : α} {b : β} (h : related a b) :
    Followed o related (Pure.pure a : Action α) (Pure.pure b : Action β) :=
  (Mirrored.pure h).followed

/-- Where the first action succeeds, so does the second. -/
theorem run (h : Followed o related act act') (hs : s.Mirrors o s') {a : α} {t : Store}
    (hrun : act s = .ok a t) : ∃ b t', act' s' = .ok b t' ∧ related a b ∧ t.Mirrors o t' := by
  obtain ⟨a', u, b, t', hrun', hcopy, hab, ht⟩ | ⟨f, u, hrun', -⟩ := h s s' hs
  · rw [hrun] at hrun'
    cases hrun'
    exact ⟨b, t', hcopy, hab, ht⟩
  · rw [hrun] at hrun'
    cases hrun'

theorem fails (h : Followed o related act act') (hs : s.Mirrors o s') (hmarked : o.marked = true)
    {f : Fault} {t : Store} (hrun : act s = .error f t) (hf : f ≠ .endless) :
    ∃ t', act' s' = .error f t' ∧ t.Mirrors o t' := by
  obtain ⟨a, u, b, t', hrun', -⟩ | ⟨f', u, hrun', hcopy⟩ := h s s' hs
  · rw [hrun] at hrun'
    cases hrun'
  · rw [hrun] at hrun'
    cases hrun'
    exact hcopy hmarked hf

theorem bind (h : Followed o related act act')
    (hnext : ∀ a b, related a b → Followed o related' (next a) (next' b)) :
    Followed o related' (act >>= next) (act' >>= next') := by
  intro s s' hs
  obtain ⟨a, t, b, t', hrun, hrun', hab, ht⟩ | ⟨f, t, hrun, hcopy⟩ := h s s' hs
  · rw [bind_ok hrun, bind_ok hrun']
    exact hnext a b hab t t' ht
  · refine .inr ⟨f, t, bind_error hrun, fun hmarked hf => ?_⟩
    obtain ⟨t', hrun', ht⟩ := hcopy hmarked hf
    exact ⟨t', bind_error hrun', ht⟩

theorem step {f : α → β} (h : Followed o (fun a b => b = f a) act act')
    (hnext : ∀ a, Followed o related' (next a) (next' (f a))) :
    Followed o related' (act >>= next) (act' >>= next') := by
  refine h.bind ?_
  rintro a _ rfl
  exact hnext a

theorem same {act' : Action α} {next' : α → Action δ} (h : Followed o Eq act act')
    (hnext : ∀ a, Followed o related' (next a) (next' a)) :
    Followed o related' (act >>= next) (act' >>= next') := by
  refine h.bind ?_
  rintro a _ rfl
  exact hnext a

theorem forM {ε : Type} {f f' : ε → Action Unit} (g : ε → ε) (items : List ε)
    (h : ∀ x ∈ items, Followed o Eq (f x) (f' (g x))) :
    Followed o Eq (items.forM f) ((items.map g).forM f') := by
  induction items with
  | nil => exact .pure rfl
  | cons x rest ih =>
    obtain ⟨hx, hrest⟩ := List.forall_mem_cons.1 h
    exact hx.same fun _ => ih hrest

end Followed

/-- The copy of a store is a copy of what the action leaves as well. -/
def Unseen (o : Offset) (act : Action α) : Prop :=
  ∀ s s', s.Mirrors o s' → ∀ result, act s = result →
    match result with
    | .ok _ t | .error _ t => t.Mirrors o s'

namespace Unseen

variable {act : Action α} {next : α → Action γ}

theorem pure (a : α) : Unseen o (Pure.pure a : Action α) := by
  rintro s s' hs _ rfl
  exact hs

theorem lacks (item : Item) (part : String) : Unseen o (Graph.lacks item part : Action α) := by
  rintro s s' hs _ rfl
  exact hs

theorem bind (h : Unseen o act) (hnext : ∀ a, Unseen o (next a)) : Unseen o (act >>= next) := by
  rintro s s' hs _ rfl
  have hact := h s s' hs _ rfl
  cases hrun : act s with
  | ok a t =>
    rw [hrun] at hact
    rw [bind_ok hrun]
    exact hnext a t s' hact _ rfl
  | error f t =>
    rw [hrun] at hact
    rw [bind_error hrun]
    exact hact

theorem tryCatch {handler : Fault → Action α} (h : Unseen o act)
    (hhandler : ∀ f, Unseen o (handler f)) : Unseen o (MonadExcept.tryCatch act handler) := by
  rintro s s' hs _ rfl
  have hact := h s s' hs _ rfl
  cases hrun : act s with
  | ok a t =>
    rw [hrun] at hact
    rw [tryCatch_ok hrun]
    exact hact
  | error f t =>
    rw [hrun] at hact
    rw [tryCatch_error hrun]
    exact hhandler f t s' hact _ rfl

theorem followed {act : Action Unit} (h : Unseen o act) (hmarked : o.marked = false) :
    Followed o Eq act (Pure.pure ()) := by
  intro s s' hs
  cases hrun : act s with
  | ok a t => exact .inl ⟨a, t, (), s', rfl, rfl, rfl, h s s' hs _ hrun⟩
  | error f t => exact .inr ⟨f, t, rfl, fun hm => by simp [hmarked] at hm⟩

end Unseen

end

variable {α β : Type}

theorem getNode_mirrored (i : Nat) :
    Mirrored o (Node.Mirrors o) (getNode i) (getNode (o.nodes + i)) :=
  .of_ok (fun _ => rfl) (fun _ => rfl) fun _ _ hs => ⟨hs.node i, hs⟩

theorem getLink_mirrored (l : Nat) :
    Mirrored o (Link.Mirrors o) (getLink l) (getLink (o.links + l)) :=
  .of_ok (fun _ => rfl) (fun _ => rfl) fun _ _ hs => ⟨hs.link l, hs⟩

theorem takeId_mirrored : Mirrored o (fun n n' => n' = n + o.ids) takeId takeId :=
  .of_ok (fun _ => rfl) (fun _ => rfl) fun _ _ hs => ⟨hs.nextId, hs.countId⟩

theorem addNode_mirrored {n n' : Node} (h : n.Mirrors o n') (hn : n.Fresh) :
    Mirrored o o.Copies (addNode n) (addNode n') :=
  .of_ok (fun _ => rfl) (fun _ => rfl) fun _ _ hs =>
    ⟨hs.size, hs.pushNode h (hs.drawable.pushFresh hn)⟩

theorem modifyNode_mirrored (i : Nat) {f f' : Node → Node} (hf : ∀ n, (f n).DrawsLike n)
    (h : ∀ n n', n.Mirrors o n' → (f n).Mirrors o (f' n')) :
    Mirrored o Eq (modifyNode i f) (modifyNode (o.nodes + i) f') :=
  .of_ok (fun _ => rfl) (fun _ => rfl) fun _ _ hs => ⟨rfl, hs.mapNode i h (hs.drawable.change i hf)⟩

theorem modifyLink_mirrored (l : Nat) {f f' : Link → Link}
    (h : ∀ k k', k.Mirrors o k' → (f k).Mirrors o (f' k')) :
    Mirrored o Eq (modifyLink l f) (modifyLink (o.links + l) f') :=
  .of_ok (fun _ => rfl) (fun _ => rfl) fun _ _ hs => ⟨rfl, hs.mapLink l h⟩

theorem getNode_unseen (i : Nat) : Unseen o (getNode i) := by
  rintro s s' hs _ rfl
  exact hs

theorem getLink_unseen (l : Nat) : Unseen o (getLink l) := by
  rintro s s' hs _ rfl
  exact hs

theorem modifyNode_unseen (i : Nat) {f : Node → Node} (hf : ∀ n, (f n).DrawsLike n)
    (h : ∀ n n', n.Mirrors o n' → (f n).Mirrors o n') : Unseen o (modifyNode i f) := by
  rintro s s' hs _ rfl
  have hmap : (s.mapNode i f).Mirrors o (s'.mapNode (o.nodes + i) id) :=
    hs.mapNode i h (hs.drawable.change i hf)
  rwa [Store.mapNode_id] at hmap

theorem modifyLink_unseen (l : Nat) {f : Link → Link}
    (h : ∀ k k', k.Mirrors o k' → (f k).Mirrors o k') : Unseen o (modifyLink l f) := by
  rintro s s' hs _ rfl
  have hmap : (s.mapLink l f).Mirrors o (s'.mapLink (o.links + l) id) := hs.mapLink l h
  rwa [Store.mapLink_id] at hmap

theorem print_unseen (message : String) : Unseen o (print message) := by
  rintro s s' hs _ rfl
  exact hs.withMessages _ _ _ _

theorem print_mirrored (message : String) : Mirrored o Eq (print message) (print message) :=
  .of_ok (fun _ => rfl) (fun _ => rfl) fun _ _ hs => ⟨rfl, hs.withMessages _ _ _ _⟩

theorem warn_mirrored (message : String) : Mirrored o Eq (warn message) (warn message) :=
  .of_ok (fun _ => rfl) (fun _ => rfl) fun _ _ hs => ⟨rfl, hs.withMessages _ _ _ _⟩

theorem itemName_mirrored (item : Item) :
    Mirrored o (fun a b => b = renumber o.ids a) (itemName item) (itemName (item.shift o)) := by
  cases item with
  | node i => exact .of_ok (fun _ => rfl) (fun _ => rfl) fun _ _ hs => ⟨hs.name i, hs⟩
  | nothing => exact .lacks .nothing "node_name"
  | link l => exact .lacks (.link l) "node_name"

theorem newBox_mirrored (shape : Shape) (text : String) (code : Option Code.Piece) :
    Mirrored o o.Copies (newBox shape text code) (newBox shape text code) := by
  refine takeId_mirrored.step fun id => addNode_mirrored ?_ ?_
  · exact ⟨rfl, (renumber_nameOf o.ids shape id).symm, rfl, rfl, fun _ => rfl, rfl, rfl, rfl⟩
  · exact ⟨rfl, rfl, rfl, fun _ _ _ _ _ hf => by cases hf⟩

theorem newCodeBox_mirrored (shape : Shape) (code : Code.Piece) (text : Except Fault String) :
    Mirrored o o.Copies (newCodeBox shape code text) (newCodeBox shape code text) := by
  refine takeId_mirrored.step fun _ => (Mirrored.ofExcept text).same fun a => ?_
  exact newBox_mirrored shape a (some code)

theorem newDecision_mirrored (role : DecisionRole) (text : String) (code : Option Code.Piece) :
    Mirrored o o.Copies (newDecision role text code) (newDecision role text code) := by
  refine takeId_mirrored.step fun id => addNode_mirrored ?_ ?_
  · have hname : "cond" ++ toString (id + o.ids) = renumber o.ids ("cond" ++ toString id) :=
      (renumber_number o.ids rfl id).symm
    exact ⟨rfl, hname, rfl, rfl, fun _ => rfl, rfl, rfl, rfl⟩
  · exact ⟨rfl, rfl, rfl, fun _ _ _ _ _ hf => by cases hf⟩

theorem newCodeDecision_mirrored (role : DecisionRole) (code : Code.Piece)
    (text : Except Fault String) :
    Mirrored o o.Copies (newCodeDecision role code text) (newCodeDecision role code text) := by
  refine takeId_mirrored.step fun _ => (Mirrored.ofExcept text).same fun a => ?_
  exact newDecision_mirrored role a (some code)

theorem Store.Mirrors.withBridge (h : s.Mirrors o s') (answer : Bool) (parent : Nat) (child : Item)
    (labels : List Label) : Store.Mirrors o (s.withBridge answer (.node parent) child labels)
      (s'.withBridge answer (.node (o.nodes + parent)) (child.shift o) labels) := by
  refine (h.countId.pushLink (.same o child labels)).pushNode ?_
    (h.drawable.withBridge answer parent child labels)
  refine ⟨?_, rfl, rfl, rfl, fun _ => rfl, rfl, rfl, rfl⟩
  simp only [Form.shift, Item.shift, h.linkCount]

theorem newBridge_mirrored (answer : Bool) (parent : Nat) (child : Item) (labels : List Label) :
    Mirrored o o.Copies (newBridge answer (.node parent) child labels)
      (newBridge answer (.node (o.nodes + parent)) (child.shift o) labels) :=
  .of_ok (fun s => newBridge_run s _ _ _ _) (fun s => newBridge_run s _ _ _ _) fun _ _ hs =>
    ⟨hs.size, hs.withBridge answer parent child labels⟩

theorem newGroup_mirrored (role : GroupRole) (head : Item) (tails : List Item)
    (code : Option Code.Piece) :
    Mirrored o o.Copies (newGroup role head tails code)
      (newGroup (role.shift o) (head.shift o) (tails.map (Item.shift o)) code) := by
  refine takeId_mirrored.step fun _ => (addNode_mirrored ?_ ?_).bind fun g g' hg => ?_
  · exact ⟨rfl, rfl, rfl, rfl, fun _ => rfl, rfl, rfl, rfl⟩
  · exact ⟨rfl, rfl, rfl, fun _ _ _ _ _ hf => by cases hf⟩
  by_cases h : head = .nothing
  · subst h
    exact .pure hg
  · simp only [ne_eq, shift_eq_nothing, h, not_false_eq_true, if_true]
    exact (itemName_mirrored head).step fun _ => .pure hg

theorem present_mirrored (i : Nat) (field : String) (f : α → β) (a : α) :
    Mirrored o (fun x y => y = f x) (present i field a) (present (o.nodes + i) field (f a)) := by
  refine (getNode_mirrored i).bind fun n n' hn => ?_
  rw [hn.absent]
  split
  · exact .lacks (.node i) field
  · exact .pure rfl

theorem present_unseen (i : Nat) (field : String) (a : α) : Unseen o (present i field a) := by
  refine (getNode_unseen i).bind fun n => ?_
  split
  · exact .lacks (.node i) field
  · exact .pure a

theorem linksOf_mirrored (i : Nat) :
    Mirrored o (fun a b => b = a.map (Item.shift o)) (linksOf i) (linksOf (o.nodes + i)) := by
  refine (getNode_mirrored i).bind fun n n' hn => ?_
  rw [hn.form, hn.links]
  cases n.form <;> exact present_mirrored i "connections" (List.map (Item.shift o)) _

theorem yesOf_mirrored (item : Item) :
    Mirrored o (fun a b => b = a.shift o) (yesOf item) (yesOf (item.shift o)) := by
  cases item with
  | node i =>
    refine (getNode_mirrored i).bind fun n n' hn => ?_
    rw [hn.form]
    cases n.form with
    | decision role yes no => exact present_mirrored i "connection_yes" (Item.shift o) yes
    | _ => exact .lacks (.node i) "connection_yes"
  | nothing => exact .lacks .nothing "connection_yes"
  | link l => exact .lacks (.link l) "connection_yes"

theorem noOf_mirrored (item : Item) :
    Mirrored o (fun a b => b = a.shift o) (noOf item) (noOf (item.shift o)) := by
  cases item with
  | node i =>
    refine (getNode_mirrored i).bind fun n n' hn => ?_
    rw [hn.form]
    cases n.form with
    | decision role yes no => exact present_mirrored i "connection_no" (Item.shift o) no
    | _ => exact .lacks (.node i) "connection_no"
  | nothing => exact .lacks .nothing "connection_no"
  | link l => exact .lacks (.link l) "connection_no"

theorem Node.Mirrors.withForm {n n' : Node} (h : n.Mirrors o n') {form form' : Form}
    (hform : form' = form.shift o) : Node.Mirrors o { n with form } { n' with form := form' } :=
  ⟨hform, h.name, h.text, h.links, h.params, h.direction, h.absent, h.mark⟩

theorem Node.Mirrors.restore {n n' : Node} (h : n.Mirrors o n') (field : String) :
    (n.restore field).Mirrors o (n'.restore field) :=
  ⟨h.form, h.name, h.text, h.links, h.params, h.direction, by simp [Node.restore, h.absent], h.mark⟩

theorem Node.Mirrors.setAnswer {n n' : Node} (h : n.Mirrors o n') (answer : Answer) (item : Item) :
    (n.setAnswer answer item).Mirrors o (n'.setAnswer answer (item.shift o)) := by
  unfold Node.setAnswer
  rw [h.form]
  cases n.form with
  | decision role yes no =>
    cases answer with
    | yes => exact (h.restore "connection_yes").withForm rfl
    | no => exact (h.restore "connection_no").withForm rfl
  | _ => cases answer <;> exact h

theorem Node.Mirrors.addAnswer {n n' : Node} (h : n.Mirrors o n') (answer : Answer) (l : Nat) :
    (n.addAnswer answer l).Mirrors o (n'.addAnswer answer (o.links + l)) := by
  have hset := h.setAnswer answer (.link l)
  refine ⟨hset.form, hset.name, hset.text, ?_, hset.params, hset.direction, hset.absent, hset.mark⟩
  simp only [Node.addAnswer, h.links, List.map_append, List.map_cons, List.map_nil, Item.shift]

theorem Node.Mirrors.regroup {n n' : Node} (h : n.Mirrors o n')
    {f f' : GroupRole → Item → List Item → GroupRole × Item × List Item}
    (hf : ∀ role head tails, f' (role.shift o) (head.shift o) (tails.map (Item.shift o))
      = ((f role head tails).1.shift o, (f role head tails).2.1.shift o,
        (f role head tails).2.2.map (Item.shift o))) :
    (n.regroup f).Mirrors o (n'.regroup f') := by
  unfold Node.regroup
  rw [h.form]
  cases n.form with
  | group role head tails d c =>
    simp only [Form.shift, hf]
    exact h.withForm rfl
  | _ => exact h

theorem regroup_mirrored {act act' : Action Unit} (i : Nat)
    {f f' : GroupRole → Item → List Item → GroupRole × Item × List Item}
    (hact : ∀ s, act s = .ok () (s.mapNode i (·.regroup f)))
    (hact' : ∀ s, act' s = .ok () (s.mapNode (o.nodes + i) (·.regroup f')))
    (hf : ∀ role head tails, f' (role.shift o) (head.shift o) (tails.map (Item.shift o))
      = ((f role head tails).1.shift o, (f role head tails).2.1.shift o,
        (f role head tails).2.2.map (Item.shift o))) : Mirrored o Eq act act' :=
  .of_ok hact hact' fun _ _ hs =>
    ⟨rfl, hs.mapNode i (fun _ _ hn => hn.regroup hf) (hs.drawable.change i fun n => .regroup n f)⟩

theorem setHead_mirrored (i : Nat) (item : Item) :
    Mirrored o Eq (setHead i item) (setHead (o.nodes + i) (item.shift o)) :=
  regroup_mirrored i (fun _ => setHead_run i item) (fun _ => setHead_run _ _) fun _ _ _ => rfl

theorem setTails_mirrored (i : Nat) {f f' : List Item → List Item}
    (hf : ∀ tails, f' (tails.map (Item.shift o)) = (f tails).map (Item.shift o)) :
    Mirrored o Eq (setTails i f) (setTails (o.nodes + i) f') :=
  regroup_mirrored i (fun _ => setTails_run i f) (fun _ => setTails_run _ f') fun _ _ tails => by
    rw [hf]

theorem extendTails_mirrored (i : Nat) (added : List Item) :
    Mirrored o Eq (setTails i (· ++ added))
      (setTails (o.nodes + i) (· ++ added.map (Item.shift o))) :=
  setTails_mirrored i fun _ => List.map_append.symm

theorem setRole_mirrored (i : Nat) (role : GroupRole) :
    Mirrored o Eq (setRole i fun _ => role) (setRole (o.nodes + i) fun _ => role.shift o) :=
  regroup_mirrored i (fun _ => setRole_run i _) (fun _ => setRole_run _ _) fun _ _ _ => rfl

theorem setDirection_mirrored (i : Nat) (direction : Label) :
    Mirrored o Eq (setDirection i direction) (setDirection (o.nodes + i) direction) := by
  refine modifyNode_mirrored i (fun _ => .of_eq rfl rfl rfl rfl) fun _ _ hn => ?_
  exact ⟨hn.form, hn.name, hn.text, hn.links, hn.params, rfl, hn.absent, hn.mark⟩

theorem setParam_params {n n' : Node} (h : n'.params = n.params) (key value : String) :
    (n'.setParam key value).params = (n.setParam key value).params := by
  unfold Node.setParam
  rw [h]
  split
  · exact h
  · split <;> rfl

theorem Node.DrawsLike.setParam (n : Node) (key value : String) :
    (n.setParam key value).DrawsLike n := by
  obtain ⟨params, heq⟩ := setParam_eq n key value
  rw [heq]
  exact .of_eq rfl rfl rfl rfl

theorem Node.Mirrors.setParam {n n' : Node} (h : n.Mirrors o n') (key value : String) :
    (n.setParam key value).Mirrors o (n'.setParam key value) := by
  have hparams := fun hmarked => setParam_params (h.params hmarked) key value
  obtain ⟨params, heq⟩ := setParam_eq n key value
  obtain ⟨params', heq'⟩ := setParam_eq n' key value
  rw [heq, heq'] at hparams ⊢
  exact ⟨h.form, h.name, h.text, h.links, hparams, h.direction, h.absent, h.mark⟩

theorem Node.Mirrors.withParam {n n' : Node} (h : n.Mirrors o n') (hmarked : o.marked = false)
    (key value : String) : (n.setParam key value).Mirrors o n' := by
  obtain ⟨params, heq⟩ := setParam_eq n key value
  rw [heq]
  exact ⟨h.form, h.name, h.text, h.links, fun hm =>
    by simp [hmarked] at hm, h.direction, h.absent, h.mark⟩

theorem Link.Mirrors.addLabel {k k' : Link} (h : k.Mirrors o k') (label : Label) :
    Link.Mirrors o { k with labels := k.labels ++ [label] }
      { k' with labels := k'.labels ++ [label] } :=
  ⟨h.target, fun x hx => by simp [h.labels x hx]⟩

theorem Link.Mirrors.addRight {k k' : Link} (h : k.Mirrors o k') (hmarked : o.marked = false) :
    Link.Mirrors o { k with labels := k.labels ++ [some "right"] } k' := by
  refine ⟨h.target, fun x hx => ?_⟩
  have hright : x ≠ "right" := hx.resolve_left (by simp [hmarked])
  simp [h.labels x hx, hright]

theorem breakAlignment_mirrored (item : Item) :
    Mirrored o Eq (breakAlignment item) (breakAlignment (item.shift o)) := by
  cases item with
  | node i =>
    refine (getNode_mirrored i).bind fun n n' hn => ?_
    rw [hn.form, isDecision_shift]
    split
    · exact modifyNode_mirrored i (fun n => .setParam n _ _) fun _ _ hn =>
        hn.setParam "align-next" "no"
    · exact .lacks (.node i) "no_align_next"
  | nothing => exact .lacks .nothing "no_align_next"
  | link l => exact .lacks (.link l) "no_align_next"

theorem groupEnds_mirrored (i : Nat) :
    Mirrored o (fun a b => b = (a.1.shift o, a.2.map (Item.shift o))) (groupEnds i)
      (groupEnds (o.nodes + i)) := by
  refine (getNode_mirrored i).bind fun n n' hn => ?_
  rw [hn.form]
  cases n.form <;> exact .pure rfl

theorem moveHead_mirrored (i j : Nat) :
    Mirrored o Eq (moveHead i (.node j)) (moveHead (o.nodes + i) (.node (o.nodes + j))) := by
  refine (setHead_mirrored i (.node j)).same fun _ => ?_
  exact (itemName_mirrored (.node j)).step fun _ => .pure rfl

end CodeChart.Graph
