import CodeChart.Proofs.Labels
import CodeChart.Proofs.Sound

/-! What drawing changes. A drawing leaves marks, keeps texts in groups and adds directions to
labels. `Redrawn` says that nothing else has changed; the chart of the store is then the same, as
repeated labels are shown once. -/
namespace CodeChart.Graph

def Form.bare : Form → Form
  | .group role head tails _ _ => .group role head tails "" ""
  | form => form

def Node.bare (n : Node) : Node := { n with form := n.form.bare, mark := none }

/-- Whether drawing the node adds its direction to the labels of its links. -/
def Node.draws (n : Node) : Bool :=
  match n.form with
  | .bridge .. => false
  | .decision role .. => !role.drawsNothing
  | _ => true

/-- Node `i` adds its direction to the labels of link `l`. -/
def Store.Draws (s : Store) (i l : Nat) : Prop :=
  (s.node i).draws = true ∧ Item.link l ∈ (s.node i).ownLinks

/-- The second store is the first after some drawing. -/
structure Redrawn (σ τ : Store) : Prop where
  size : τ.nodes.size = σ.nodes.size
  linkCount : τ.links.size = σ.links.size
  bare : ∀ i, (τ.node i).bare = (σ.node i).bare
  target : ∀ l, (τ.link l).target = (σ.link l).target
  labels : ∀ l, ∃ added, (τ.link l).labels = (σ.link l).labels ++ added ∧
    ∀ d ∈ added, ∃ i, σ.Draws i l ∧ d = (σ.node i).direction
  passes : σ.passes ≤ τ.passes
  marks : ∀ i k, (τ.node i).mark = some (.pass k) → (σ.node i).mark = some (.pass k) ∨ k < τ.passes
  nextId : τ.nextId = σ.nextId
  printed : τ.printed = σ.printed
  warnings : τ.warnings = σ.warnings

/-- A label that a node has left on one of its links. -/
structure Trace where
  node : Nat
  link : Nat
  label : Label
  deriving DecidableEq, Repr

namespace Store

def traceAlong (s : Store) (i : Nat) : Item → Option Trace
  | .link l => some ⟨i, l, (s.node i).direction⟩
  | _ => none

def tracesAt (s : Store) (i : Nat) : List Trace :=
  if (s.node i).draws then (s.node i).ownLinks.filterMap (s.traceAlong i) else []

/-- What drawing the nodes of a list leaves. -/
def traces (s : Store) (order : List Nat) : List Trace := order.flatMap s.tracesAt

end Store

/-- The second store is the first after drawings that have left these traces, and no other. -/
structure Drawn (traces : List Trace) (σ τ : Store) : Prop extends Redrawn σ τ where
  left : ∀ l d, d ∈ (τ.link l).labels ↔
    d ∈ (σ.link l).labels ∨ ∃ t ∈ traces, t.link = l ∧ t.label = d

variable {n m : Node} {σ τ υ : Store}

section

variable (h : n.bare = m.bare)
include h

theorem name_eq_of_bare : n.name = m.name := (congrArg Node.name h :)

theorem text_eq_of_bare : n.text = m.text := (congrArg Node.text h :)

theorem params_eq_of_bare : n.params = m.params := (congrArg Node.params h :)

theorem links_eq_of_bare : n.links = m.links := (congrArg Node.links h :)

theorem direction_eq_of_bare : n.direction = m.direction := (congrArg Node.direction h :)

theorem absent_eq_of_bare : n.absent = m.absent := (congrArg Node.absent h :)

theorem form_of_bare_eq : n.form = m.form ∨ ∃ role head tails d c d' c',
    n.form = .group role head tails d c ∧ m.form = .group role head tails d' c' := by
  have hf : n.form.bare = m.form.bare := (congrArg Node.form h :)
  cases hn : n.form <;> cases hm : m.form <;> simp_all [Form.bare]

/-- What does not look at the texts of a group does not tell the two nodes apart. -/
theorem apply_form_eq_of_bare {α : Type} (f : Form → α) (hf : ∀ role head tails d c d' c',
    f (.group role head tails d c) = f (.group role head tails d' c')) : f n.form = f m.form := by
  obtain heq | ⟨role, head, tails, d, c, d', c', hn, hm⟩ := form_of_bare_eq h
  · rw [heq]
  · rw [hn, hm]
    exact hf role head tails d c d' c'

theorem group_of_bare_eq {role head tails d c} (hm : m.form = .group role head tails d c) :
    ∃ d' c', n.form = .group role head tails d' c' := by
  obtain heq | ⟨role', head', tails', d', c', _, _, hn, hm'⟩ := form_of_bare_eq h
  · exact ⟨d, c, heq.trans hm⟩
  · rw [hm] at hm'
    cases hm'
    exact ⟨d', c', hn⟩

theorem form_eq_of_bare (hm : m.isGroup = false) : n.form = m.form := by
  obtain heq | ⟨_, _, _, _, _, _, _, _, hm'⟩ := form_of_bare_eq h
  · exact heq
  · simp [Node.isGroup, hm', Form.isGroup] at hm

theorem isGroup_eq_of_bare : n.isGroup = m.isGroup :=
  apply_form_eq_of_bare h Form.isGroup fun _ _ _ _ _ _ _ => rfl

theorem kind_eq_of_bare : n.kind = m.kind :=
  apply_form_eq_of_bare h (fun f => Node.kind { n with form := f }) fun _ _ _ _ _ _ _ => rfl

theorem draws_eq_of_bare : n.draws = m.draws :=
  apply_form_eq_of_bare h (fun f => Node.draws { n with form := f }) fun _ _ _ _ _ _ _ => rfl

theorem ownLinks_eq_of_bare : n.ownLinks = m.ownLinks := by
  unfold Node.ownLinks
  rw [links_eq_of_bare h]
  obtain heq | ⟨_, _, _, _, _, _, _, hn, hm⟩ := form_of_bare_eq h
  · rw [heq]
  · rw [hn, hm]

end

section

variable (h : ∀ i, (τ.node i).bare = (σ.node i).bare)
include h

theorem nameWithin_eq_of_bare (fuel i : Nat) : τ.nameWithin fuel i = σ.nameWithin fuel i := by
  induction fuel generalizing i with
  | zero => rfl
  | succ fuel ih =>
    unfold Store.nameWithin
    rw [name_eq_of_bare (h i)]
    obtain heq | ⟨_, head, _, _, _, _, _, hn, hm⟩ := form_of_bare_eq (h i)
    · rw [heq]
      simp only [ih]
    · rw [hn, hm]
      cases head <;> simp only [ih]

theorem name_eq_of_size (hsize : τ.nodes.size = σ.nodes.size) (i : Nat) : τ.name i = σ.name i := by
  unfold Store.name
  rw [hsize, nameWithin_eq_of_bare h]

theorem kindOf_eq_of_bare (item : Item) : τ.kindOf item = σ.kindOf item := by
  cases item with
  | nothing => rfl
  | link l => rfl
  | node i => exact kind_eq_of_bare (h i)

theorem entryWithin_eq_of_bare (fuel : Nat) (item : Item) :
    τ.entryWithin fuel item = σ.entryWithin fuel item := by
  induction fuel generalizing item with
  | zero => rfl
  | succ fuel ih =>
    cases item with
    | nothing => rfl
    | link l => rfl
    | node i =>
      unfold Store.entryWithin
      obtain heq | ⟨_, head, _, _, _, _, _, hn, hm⟩ := form_of_bare_eq (h i)
      · rw [heq]
        simp only [ih]
      · rw [hn, hm]
        exact ih head

variable (htarget : ∀ l, (τ.link l).target = (σ.link l).target)
include htarget

theorem successors_eq_of_bare (i : Nat) : τ.successors i = σ.successors i := by
  have hnext : τ.target? = σ.target? := by
    funext item
    cases item with
    | link l => simp only [Store.target?, htarget]
    | nothing => rfl
    | node j => rfl
  unfold Store.successors
  simp only [absent_eq_of_bare (h i), kind_eq_of_bare (h i), links_eq_of_bare (h i), hnext]
  obtain heq | ⟨_, _, _, _, _, _, _, hn, hm⟩ := form_of_bare_eq (h i)
  · rw [heq]
  · rw [hn, hm]

theorem preorderFrom_eq_of_bare (hsize : τ.nodes.size = σ.nodes.size) (go : Nat → Bool)
    (seen : List Nat) (stack : List Item) :
    τ.preorderFrom go seen stack = σ.preorderFrom go seen stack := by
  have hentry : ∀ item, τ.entry item = σ.entry item := by
    intro item
    unfold Store.entry
    rw [hsize]
    exact entryWithin_eq_of_bare h _ item
  have hnext := successors_eq_of_bare h htarget
  fun_induction Store.preorderFrom σ go seen stack with
  | case1 seen => rw [Store.preorderFrom]
  | case2 seen item rest f he => rw [Store.preorderFrom, hentry, he]
  | case3 seen item rest i he hi hgo f hs =>
    rw [Store.preorderFrom, hentry, he]
    simp only [hsize, hi, and_self, dite_true, hgo, if_true, hnext, hs]
  | case4 seen item rest i he hi hgo next hs order f ho ih =>
    rw [Store.preorderFrom, hentry, he]
    simp only [hsize, hi, and_self, dite_true, hgo, if_true, hnext, hs, ih, ho]
  | case5 seen item rest i he hi hgo order f ho ih =>
    rw [Store.preorderFrom, hentry, he]
    simp only [hsize, hi, and_self, dite_true, hgo, Bool.false_eq_true, if_false, ih, ho]
  | case6 seen item rest i he hi ih =>
    rw [Store.preorderFrom, hentry, he]
    simp only [hsize, hi, dite_false, ih]

end

namespace Redrawn

theorem refl (σ : Store) : Redrawn σ σ where
  size := rfl
  linkCount := rfl
  bare _ := rfl
  target _ := rfl
  labels l := ⟨[], by simp, by simp⟩
  passes := Nat.le_refl _
  marks _ _ hk := .inl hk
  nextId := rfl
  printed := rfl
  warnings := rfl

theorem draws (h : Redrawn σ τ) {i l : Nat} : τ.Draws i l ↔ σ.Draws i l := by
  unfold Store.Draws
  rw [draws_eq_of_bare (h.bare i), ownLinks_eq_of_bare (h.bare i)]

theorem direction (h : Redrawn σ τ) (i : Nat) : (τ.node i).direction = (σ.node i).direction :=
  direction_eq_of_bare (h.bare i)

theorem trans (h : Redrawn σ τ) (h' : Redrawn τ υ) : Redrawn σ υ where
  size := h'.size.trans h.size
  linkCount := h'.linkCount.trans h.linkCount
  bare i := (h'.bare i).trans (h.bare i)
  target l := (h'.target l).trans (h.target l)
  labels l := by
    obtain ⟨added, ha, hadded⟩ := h.labels l
    obtain ⟨more, hm, hmore⟩ := h'.labels l
    refine ⟨added ++ more, by rw [hm, ha, List.append_assoc], ?_⟩
    intro d hd
    rcases List.mem_append.1 hd with hd | hd
    · exact hadded d hd
    · obtain ⟨i, hi, hdir⟩ := hmore d hd
      exact ⟨i, h.draws.1 hi, hdir.trans (h.direction i)⟩
  passes := Nat.le_trans h.passes h'.passes
  marks i k hk := by
    rcases h'.marks i k hk with hk | hk
    · rcases h.marks i k hk with hk | hk
      · exact .inl hk
      · exact .inr (Nat.lt_of_lt_of_le hk h'.passes)
    · exact .inr hk
  nextId := h'.nextId.trans h.nextId
  printed := h'.printed.trans h.printed
  warnings := h'.warnings.trans h.warnings

theorem name (h : Redrawn σ τ) (i : Nat) : τ.name i = σ.name i := name_eq_of_size h.bare h.size i

theorem preorderFrom (h : Redrawn σ τ) (go : Nat → Bool) (seen : List Nat) (stack : List Item) :
    τ.preorderFrom go seen stack = σ.preorderFrom go seen stack :=
  preorderFrom_eq_of_bare h.bare h.target h.size go seen stack

theorem sound (h : Redrawn σ τ) (hs : σ.Sound) : τ.Sound where
  fits i := by
    have hi := hs.fits i
    refine ⟨(absent_eq_of_bare (h.bare i)).trans hi.whole, ?_, ?_, ?_, ?_⟩
    · intro k hk
      rcases h.marks i k hk with hk | hk
      · exact Nat.lt_of_lt_of_le (hi.mark k hk) h.passes
      · exact hk
    · rw [ownLinks_eq_of_bare (h.bare i), h.linkCount]
      exact hi.links
    · intro answer parent child labels link hf
      obtain heq | ⟨_, _, _, _, _, _, _, hn, _⟩ := form_of_bare_eq (h.bare i)
      · exact hi.parent _ _ _ _ _ (heq ▸ hf)
      · rw [hn] at hf
        cases hf
    · intro role j tails d c hf
      obtain ⟨d', c', hf'⟩ := group_of_bare_eq (h.bare i).symm hf
      rw [h.size]
      exact hi.head _ _ _ _ _ hf'
  apart i j l hi hj := by
    rw [ownLinks_eq_of_bare (h.bare _)] at hi hj
    exact hs.apart i j l hi hj
  targets l j hl := by
    rw [h.target] at hl
    rw [h.size]
    exact hs.targets l j hl
  children i _ _ _ _ l hf := by
    rw [h.target]
    obtain heq | ⟨_, _, _, _, _, _, _, hn, _⟩ := form_of_bare_eq (h.bare i)
    · exact hs.children i _ _ _ _ l (heq ▸ hf)
    · rw [hn] at hf
      cases hf

theorem of_mapNode {i : Nat} {f : Node → Node} (hf : (f (σ.node i)).bare = (σ.node i).bare)
    (hm : ∀ k, (f (σ.node i)).mark = some (.pass k) →
      (σ.node i).mark = some (.pass k) ∨ k < σ.passes) : Redrawn σ (σ.mapNode i f) where
  size := σ.size_mapNode i f
  linkCount := rfl
  bare j := by
    refine σ.node_mapNode_keeps i j f (P := fun n => n.bare = (σ.node j).bare) rfl ?_
    rintro rfl
    exact hf
  target _ := rfl
  labels l := ⟨[], by simp, by simp⟩
  passes := Nat.le_refl _
  marks j k := by
    refine σ.node_mapNode_keeps i j f (P := fun n => n.mark = some (.pass k) →
      (σ.node j).mark = some (.pass k) ∨ k < σ.passes) .inl ?_
    rintro rfl
    exact hm k
  nextId := rfl
  printed := rfl
  warnings := rfl

theorem of_countPass (σ : Store) : Redrawn σ σ.countPass :=
  { refl σ with passes := Nat.le_succ _, marks := fun _ _ hk => .inl hk }

theorem of_mapLink {i l : Nat} (hd : σ.Draws i l) :
    Redrawn σ (σ.mapLink l fun k => { k with labels := k.labels ++ [(σ.node i).direction] }) where
  size := rfl
  linkCount := σ.linkCount_mapLink l _
  bare _ := rfl
  target j := by
    by_cases hj : j = l
    · by_cases hl : l < σ.links.size
      · rw [σ.link_mapLink_of_lt l j _ hl, if_pos hj, hj]
      · rw [σ.mapLink_of_le l _ (by omega)]
    · rw [σ.link_mapLink_of_ne l j _ hj]
  labels j := by
    by_cases hj : j = l ∧ l < σ.links.size
    · obtain ⟨rfl, hl⟩ := hj
      refine ⟨[(σ.node i).direction], by rw [σ.link_mapLink_self j _ hl], ?_⟩
      intro d hmem
      exact ⟨i, hd, List.mem_singleton.1 hmem⟩
    · refine ⟨[], ?_, by simp⟩
      by_cases hne : j = l
      · rw [σ.mapLink_of_le l _ (by omega), List.append_nil]
      · rw [σ.link_mapLink_of_ne l j _ hne, List.append_nil]
  passes := Nat.le_refl _
  marks _ _ hk := .inl hk
  nextId := rfl
  printed := rfl
  warnings := rfl

end Redrawn

theorem mem_tracesAt {i : Nat} {t : Trace} : t ∈ σ.tracesAt i ↔
    σ.Draws i t.link ∧ t = ⟨i, t.link, (σ.node i).direction⟩ := by
  have halong : ∀ item, σ.traceAlong i item = some t ↔
      item = .link t.link ∧ t = ⟨i, t.link, (σ.node i).direction⟩ := by
    intro item
    unfold Store.traceAlong
    split
    next l =>
      rw [Option.some.injEq, Item.link.injEq]
      constructor
      · rintro rfl
        exact ⟨rfl, rfl⟩
      · rintro ⟨rfl, ht⟩
        exact ht.symm
    next hne =>
      simp only [reduceCtorEq, false_iff]
      rintro ⟨rfl, -⟩
      exact hne _ rfl
  unfold Store.tracesAt Store.Draws
  cases hd : (σ.node i).draws <;> simp [halong]

theorem mem_traces {order : List Nat} {t : Trace} : t ∈ σ.traces order ↔
    ∃ i ∈ order, σ.Draws i t.link ∧ t = ⟨i, t.link, (σ.node i).direction⟩ := by
  unfold Store.traces
  simp only [List.mem_flatMap, mem_tracesAt]

namespace Drawn

variable {a b : List Trace}

theorem of_links (h : Redrawn σ τ) (hlinks : τ.links = σ.links) : Drawn [] σ τ :=
  { h with left := by simp [Store.link, hlinks] }

theorem refl (σ : Store) : Drawn [] σ σ := of_links (.refl σ) rfl

theorem trans (h : Drawn a σ τ) (h' : Drawn b τ υ) : Drawn (a ++ b) σ υ :=
  { h.toRedrawn.trans h'.toRedrawn with
    left := by
      intro l d
      rw [h'.left, h.left]
      simp only [List.mem_append, or_and_right, exists_or, or_assoc] }

/-- Traces are there or not, however often and in whatever order they have been left. -/
theorem congr (h : Drawn a σ τ) (hab : ∀ t, t ∈ a ↔ t ∈ b) : Drawn b σ τ :=
  { h with left := by simpa only [hab] using h.left }

theorem of_mapLink {i l : Nat} (hd : σ.Draws i l) (hl : l < σ.links.size) :
    Drawn [⟨i, l, (σ.node i).direction⟩] σ
      (σ.mapLink l fun k => { k with labels := k.labels ++ [(σ.node i).direction] }) :=
  { Redrawn.of_mapLink hd with
    left := by
      intro j d
      rw [σ.link_mapLink_of_lt l j _ hl]
      by_cases hj : j = l
      · simp [hj, eq_comm]
      · simp [hj, Ne.symm hj] }

end Drawn

end CodeChart.Graph
