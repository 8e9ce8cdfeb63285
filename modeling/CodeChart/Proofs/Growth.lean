import CodeChart.Proofs.Sound

/-! How a store grows. Each action that makes or connects nodes is a change of the store that is
known beforehand, and each such change keeps the store sound. -/
namespace CodeChart.Graph

/-- A decision that keeps the link to an answer under its name. -/
def Node.setAnswer (n : Node) (answer : Answer) (item : Item) : Node :=
  match answer, n.form with
  | .yes, .decision role _ no => { n.restore "connection_yes" with form := .decision role item no }
  | .no, .decision role yes _ => { n.restore "connection_no" with form := .decision role yes item }
  | _, _ => n

/-- A decision with the link to an answer at the end of its links. -/
def Node.addAnswer (n : Node) (answer : Answer) (l : Nat) : Node :=
  { n.setAnswer answer (.link l) with links := n.links ++ [.link l] }

def Node.regroup (n : Node)
    (f : GroupRole → Item → List Item → GroupRole × Item × List Item) : Node :=
  match n.form with
  | .group role head tails d c =>
    let (role', head', tails') := f role head tails
    { n with form := .group role' head' tails' d c }
  | _ => n

namespace Store

def withBox (s : Store) (shape : Shape) (text : String) (code : Option Code.Piece) : Store :=
  s.countId.pushNode
    { form := .box shape, id := s.nextId, name := shape.nameOf s.nextId, text, code }

def withDecision (s : Store) (role : DecisionRole) (text : String) (code : Option Code.Piece) :
    Store :=
  s.countId.pushNode { form := .decision role .nothing .nothing, id := s.nextId,
                       name := "cond" ++ toString s.nextId, text, code }

def withBridge (s : Store) (answer : Bool) (parent child : Item) (labels : List Label) : Store :=
  (s.countId.pushLink ⟨child, labels⟩).pushNode
    { form := .bridge answer parent child labels (.link s.links.size), id := s.nextId }

def withGroup (s : Store) (role : GroupRole) (head : Item) (tails : List Item)
    (code : Option Code.Piece) : Store :=
  s.countId.pushNode { form := .group role head tails "" "", id := s.nextId, code }

def withLink (s : Store) (i : Nat) (target : Item) (labels : List Label) : Store :=
  (s.pushLink ⟨target, labels⟩).mapNode i fun n =>
    { n with links := n.links ++ [.link s.links.size] }

/-- A bridge that leads to a new child over a new link. -/
def moveBridge (s : Store) (i : Nat) (target : Item) (labels : List Label) : Store :=
  match (s.node i).form with
  | .bridge answer parent _ old _ =>
    let all := bridgeLabels answer old labels
    (s.pushLink ⟨target, all⟩).mapNode i fun n =>
      { n with form := .bridge answer parent target all (.link s.links.size) }
  | _ => s

/-- A bridge for an answer and the link that leads to it. -/
def withAnswerLink (s : Store) (i : Nat) (answer : Answer) (target : Item) (direction : Label) :
    Store :=
  (s.withBridge true (.node i) target [some answer.word]).pushLink
    ⟨.node s.nodes.size, [some answer.word, direction]⟩

/-- A decision with a further answer, which leads over a bridge of its own. -/
def withAnswer (s : Store) (i : Nat) (answer : Answer) (target : Item) (direction : Label) :
    Store :=
  (s.withAnswerLink i answer target direction).mapNode i (·.addAnswer answer (s.links.size + 1))

variable (s : Store) (i : Nat) (target : Item) (labels : List Label)

@[simp] theorem size_withBox (shape : Shape) (text : String) (code : Option Code.Piece) :
    (s.withBox shape text code).nodes.size = s.nodes.size + 1 := by simp [withBox]

@[simp] theorem size_withDecision (role : DecisionRole) (text : String)
    (code : Option Code.Piece) :
    (s.withDecision role text code).nodes.size = s.nodes.size + 1 := by simp [withDecision]

@[simp] theorem size_withBridge (answer : Bool) (parent : Item) :
    (s.withBridge answer parent target labels).nodes.size = s.nodes.size + 1 := by
  simp [withBridge]

@[simp] theorem size_withGroup (role : GroupRole) (head : Item) (tails : List Item)
    (code : Option Code.Piece) :
    (s.withGroup role head tails code).nodes.size = s.nodes.size + 1 := by simp [withGroup]

@[simp] theorem size_withLink : (s.withLink i target labels).nodes.size = s.nodes.size := by
  simp [withLink]

@[simp] theorem size_moveBridge : (s.moveBridge i target labels).nodes.size = s.nodes.size := by
  unfold moveBridge
  cases (s.node i).form <;> simp

@[simp] theorem size_withAnswer (answer : Answer) (direction : Label) :
    (s.withAnswer i answer target direction).nodes.size = s.nodes.size + 1 := by
  simp [withAnswer, withAnswerLink]

@[simp] theorem node_withBox (shape : Shape) (text : String) (code : Option Code.Piece) :
    (s.withBox shape text code).node s.nodes.size
      = { form := .box shape, id := s.nextId, name := shape.nameOf s.nextId, text, code } :=
  s.countId.node_pushNode_size _

@[simp] theorem node_withDecision (role : DecisionRole) (text : String)
    (code : Option Code.Piece) : (s.withDecision role text code).node s.nodes.size
      = { form := .decision role .nothing .nothing, id := s.nextId,
          name := "cond" ++ toString s.nextId, text, code } :=
  s.countId.node_pushNode_size _

@[simp] theorem node_withBridge (answer : Bool) (parent : Item) :
    (s.withBridge answer parent target labels).node s.nodes.size
      = { form := .bridge answer parent target labels (.link s.links.size), id := s.nextId } :=
  (s.countId.pushLink ⟨target, labels⟩).node_pushNode_size _

@[simp] theorem node_withGroup (role : GroupRole) (head : Item) (tails : List Item)
    (code : Option Code.Piece) : (s.withGroup role head tails code).node s.nodes.size
      = { form := .group role head tails "" "", id := s.nextId, code } :=
  s.countId.node_pushNode_size _

@[simp] theorem linkCount_withBridge (answer : Bool) (parent : Item) :
    (s.withBridge answer parent target labels).links.size = s.links.size + 1 := by
  simp [withBridge]

@[simp] theorem linkCount_withAnswerLink (answer : Answer) (direction : Label) :
    (s.withAnswerLink i answer target direction).links.size = s.links.size + 2 := by
  simp [withAnswerLink]

end Store

variable {s : Store} {i : Nat}

section

variable (s : Store)

theorem newBox_run (shape : Shape) (text : String) (code : Option Code.Piece) :
    newBox shape text code s = .ok s.nodes.size (s.withBox shape text code) := rfl

theorem newDecision_run (role : DecisionRole) (text : String) (code : Option Code.Piece) :
    newDecision role text code s = .ok s.nodes.size (s.withDecision role text code) := rfl

theorem newBridge_run (answer : Bool) (parent child : Item) (labels : List Label) :
    newBridge answer parent child labels s
      = .ok s.nodes.size (s.withBridge answer parent child labels) := rfl

theorem newGroup_run (role : GroupRole) {head : Item} (hh : ∀ l, head ≠ .link l)
    (tails : List Item) (code : Option Code.Piece) :
    newGroup role head tails code s = .ok s.nodes.size (s.withGroup role head tails code) := by
  cases head with
  | nothing => rfl
  | node j => rfl
  | link l => exact absurd rfl (hh l)

theorem newGroup_link_run (role : GroupRole) (l : Nat) (tails : List Item)
    (code : Option Code.Piece) :
    newGroup role (.link l) tails code s
      = .error (.noAttribute "Connection" "node_name") (s.withGroup role (.link l) tails code) :=
        rfl

theorem connectBridge_run (i : Nat) (target : Item) (labels : List Label) :
    connectBridge i target labels s = .ok () (s.moveBridge i target labels) := by
  unfold connectBridge Store.moveBridge
  rw [bind_ok (getNode_run s i)]
  cases (s.node i).form <;> rfl

end

section

variable (n : Node) (answer : Answer) (item : Item)

theorem ownLinks_setAnswer : (n.setAnswer answer item).ownLinks = n.ownLinks := by
  cases hf : n.form <;> cases answer <;> simp [Node.setAnswer, Node.ownLinks, Node.restore, hf]

theorem mem_ownLinks_addAnswer (l : Nat) :
    ∀ item ∈ (n.addAnswer answer l).ownLinks, item ∈ n.ownLinks ∨ item = .link l := by
  intro item hitem
  unfold Node.addAnswer Node.ownLinks at *
  cases hf : n.form <;> cases answer <;> simp_all [Node.setAnswer]

theorem bridge_setAnswer {answer' parent child labels link} :
    (n.setAnswer answer item).form = .bridge answer' parent child labels link ↔
      n.form = .bridge answer' parent child labels link := by
  cases hf : n.form <;> cases answer <;> simp [Node.setAnswer, hf]

theorem group_setAnswer {role head tails d c} :
    (n.setAnswer answer item).form = .group role head tails d c ↔
      n.form = .group role head tails d c := by
  cases hf : n.form <;> cases answer <;> simp [Node.setAnswer, hf]

theorem mem_items_addAnswer (l : Nat) :
    ∀ item ∈ (n.addAnswer answer l).form.items, item ∈ n.form.items ∨ item = .link l := by
  intro item hitem
  unfold Node.addAnswer Node.setAnswer at hitem
  cases hf : n.form <;> cases answer <;> simp_all [Form.items] <;> tauto

theorem links_setAnswer : (n.setAnswer answer item).links = n.links := by
  cases hf : n.form <;> cases answer <;> simp [Node.setAnswer, Node.restore, hf]

theorem mark_setAnswer : (n.setAnswer answer item).mark = n.mark := by
  cases hf : n.form <;> cases answer <;> simp [Node.setAnswer, Node.restore, hf]

theorem absent_setAnswer (h : n.absent = []) : (n.setAnswer answer item).absent = [] := by
  cases hf : n.form <;> cases answer <;> simp [Node.setAnswer, Node.restore, hf, h]

theorem setYes_run (i : Nat) : setYes i item s = .ok () (s.mapNode i (·.setAnswer .yes item)) := by
  refine modifyNode_congr s i fun n => ?_
  unfold Node.setAnswer
  cases n.form <;> rfl

theorem setNo_run (i : Nat) : setNo i item s = .ok () (s.mapNode i (·.setAnswer .no item)) := by
  refine modifyNode_congr s i fun n => ?_
  unfold Node.setAnswer
  cases n.form <;> rfl

theorem Node.Fits.setAnswer {n : Node} (h : n.Fits s) : (n.setAnswer answer item).Fits s where
  whole := absent_setAnswer n answer item h.whole
  mark k hk := h.mark k (mark_setAnswer n answer item ▸ hk)
  links := (ownLinks_setAnswer n answer item).symm ▸ h.links
  parent _ _ _ _ _ hf := h.parent _ _ _ _ _ ((bridge_setAnswer n answer item).1 hf)
  head _ _ _ _ _ hf := h.head _ _ _ _ _ ((group_setAnswer n answer item).1 hf)

end

section

variable {n : Node} (f : GroupRole → Item → List Item → GroupRole × Item × List Item)

theorem regroup_of_group {role head tails d c} (hf : n.form = .group role head tails d c) :
    n.regroup f = { n with form := .group (f role head tails).1 (f role head tails).2.1
                                     (f role head tails).2.2 d c } := by
  unfold Node.regroup
  rw [hf]

theorem regroup_of_not_group (hg : n.isGroup = false) : n.regroup f = n := by
  unfold Node.regroup
  cases hf : n.form with
  | group role head tails d c => simp [Node.isGroup, hf, Form.isGroup] at hg
  | box shape => rfl
  | decision role yes no => rfl
  | bridge answer parent child labels link => rfl

private theorem modify_regroup {g : Node → Node} (hg : ∀ n : Node, g n = n.regroup f) (i : Nat) :
    modifyNode i g s = .ok () (s.mapNode i (·.regroup f)) := by
  rw [show g = fun n => n.regroup f from funext hg]
  rfl

theorem setHead_run (i : Nat) (item : Item) :
    setHead i item s = .ok () (s.mapNode i (·.regroup fun role _ tails => (role, item, tails))) :=
  modify_regroup _ (fun n => by unfold Node.regroup; cases n.form <;> rfl) i

theorem setTails_run (i : Nat) (g : List Item → List Item) :
    setTails i g s
      = .ok () (s.mapNode i (·.regroup fun role head tails => (role, head, g tails))) :=
  modify_regroup _ (fun n => by unfold Node.regroup; cases n.form <;> rfl) i

theorem setRole_run (i : Nat) (g : GroupRole → GroupRole) :
    setRole i g s = .ok () (s.mapNode i (·.regroup fun role head tails => (g role, head, tails))) :=
  modify_regroup _ (fun n => by unfold Node.regroup; cases n.form <;> rfl) i

end

/-- A node without links, marks and missing fields. -/
structure Node.Fresh (n : Node) : Prop where
  whole : n.absent = []
  unmarked : n.mark = none
  bare : n.ownLinks = []
  parent : ∀ answer parent child labels link, n.form ≠ .bridge answer parent child labels link

namespace Store.Sound

theorem pushFresh (h : s.Sound) {n : Node} (hn : n.Fresh)
    (hh : ∀ role j tails d c, n.form = .group role (.node j) tails d c → j < s.nodes.size) :
    (s.countId.pushNode n).Sound := by
  refine h.countId.pushNode ⟨hn.whole, ?_, ?_, ?_, ?_⟩ ?_ ?_
  · intro k hk
    rw [hn.unmarked] at hk
    cases hk
  · intro item hitem
    rw [hn.bare] at hitem
    cases hitem
  · intro answer parent child labels link hf
    exact absurd hf (hn.parent _ _ _ _ _)
  · intro role j tails d c hf
    have := hh role j tails d c hf
    simp only [size_pushNode, size_countId]
    omega
  · intro l hl
    rw [hn.bare] at hl
    cases hl
  · intro answer parent child labels l hf
    exact absurd hf (hn.parent _ _ _ _ _)

theorem withBox (h : s.Sound) (shape : Shape) (text : String) (code : Option Code.Piece) :
    (s.withBox shape text code).Sound :=
  h.pushFresh ⟨rfl, rfl, rfl, fun _ _ _ _ _ hf => by cases hf⟩ fun _ _ _ _ _ hf => by cases hf

theorem withDecision (h : s.Sound) (role : DecisionRole) (text : String)
    (code : Option Code.Piece) : (s.withDecision role text code).Sound :=
  h.pushFresh ⟨rfl, rfl, rfl, fun _ _ _ _ _ hf => by cases hf⟩ fun _ _ _ _ _ hf => by cases hf

theorem withGroup (h : s.Sound) (role : GroupRole) {head : Item} (hh : head.Within s)
    (tails : List Item) (code : Option Code.Piece) : (s.withGroup role head tails code).Sound := by
  refine h.pushFresh ⟨rfl, rfl, rfl, fun _ _ _ _ _ hf => by cases hf⟩ ?_
  intro role' j tails' d c hf
  cases hf
  exact hh j rfl

theorem withBridge (h : s.Sound) (answer : Bool) (parent : Nat) {child : Item}
    (hc : child.Within s) (labels : List Label) :
    (s.withBridge answer (.node parent) child labels).Sound := by
  have hk : (s.countId.pushLink ⟨child, labels⟩).Sound := h.countId.pushLink hc
  refine hk.pushNode ⟨rfl, ?_, ?_, ?_, ?_⟩ ?_ ?_
  · intro k hk
    cases hk
  · intro item hitem
    obtain rfl := List.mem_singleton.1 hitem
    exact ⟨s.links.size, rfl, by simp⟩
  · intro answer' parent' child' labels' link hf
    cases hf
    exact ⟨parent, rfl⟩
  · intro role j tails d c hf
    cases hf
  · intro l hl
    cases List.mem_singleton.1 hl
    exact h.unowned_of_le (Nat.le_refl _)
  · intro answer' parent' child' labels' l hf
    cases hf
    exact congrArg Link.target (s.countId.link_pushLink_size ⟨child, labels⟩)

theorem appendOwn (h : s.Sound) (i : Nat) {l : Nat} (hl : l < s.links.size) (hu : s.Unowned l) :
    (s.mapNode i fun n => { n with links := n.links ++ [.link l] }).Sound := by
  have hi := h.fits i
  have hown : ∀ item, item ∈ { s.node i with links := (s.node i).links ++ [Item.link l] }.ownLinks →
      item ∈ (s.node i).ownLinks ∨ item = .link l := by
    intro item hitem
    unfold Node.ownLinks at hitem ⊢
    cases hf : (s.node i).form <;> simp_all
  refine h.mapNode (fun _ => ⟨hi.whole, hi.mark, ?_, hi.parent, hi.head⟩) ?_ ?_
  · intro item hitem
    rcases hown item hitem with hitem | rfl
    · exact hi.links item hitem
    · exact ⟨l, rfl, hl⟩
  · intro l' hl' hne
    rcases hown _ hl' with hl' | hl'
    · exact absurd hl' hne
    · cases hl'
      exact hu
  · intro answer parent child labels l' hf
    exact h.children i _ _ _ _ l' hf

theorem mapPlain (h : s.Sound) (i : Nat) {f : Node → Node} (hform : ∀ n, (f n).form = n.form)
    (hlinks : ∀ n, (f n).links = n.links) (hmark : ∀ n, (f n).mark = n.mark)
    (habsent : ∀ n, (f n).absent = n.absent) : (s.mapNode i f).Sound := by
  have hown : (f (s.node i)).ownLinks = (s.node i).ownLinks := by
    unfold Node.ownLinks
    rw [hform, hlinks]
  have hi := h.fits i
  refine h.mapNode_of_ownLinks ⟨?_, ?_, ?_, ?_, ?_⟩ hown ?_
  · exact (habsent _).trans hi.whole
  · rw [hmark]
    exact hi.mark
  · rw [hown]
    exact hi.links
  · rw [hform]
    exact hi.parent
  · rw [hform]
    exact hi.head
  · rw [hform]
    exact fun _ _ _ _ _ hf => hf

theorem regroup (h : s.Sound) (i : Nat)
    {f : GroupRole → Item → List Item → GroupRole × Item × List Item}
    (hh : ∀ role head tails d c, (s.node i).form = .group role head tails d c →
      (f role head tails).2.1.Within s) : (s.mapNode i (·.regroup f)).Sound := by
  have hi := h.fits i
  cases hg : (s.node i).isGroup with
  | false =>
    have hsame := regroup_of_not_group f hg
    refine h.mapNode_of_ownLinks ?_ ?_ ?_
    · rw [hsame]
      exact hi
    · rw [hsame]
    · rw [hsame]
      exact fun _ _ _ _ _ hf => hf
  | true =>
    obtain ⟨role, head, tails, d, c, hf⟩ := form_of_isGroup hg
    have hform := regroup_of_group f hf
    refine h.mapNode_of_ownLinks ⟨?_, ?_, ?_, ?_, ?_⟩ ?_ ?_
    · rw [hform]
      exact hi.whole
    · rw [hform]
      exact hi.mark
    · rw [hform]
      simpa [Node.ownLinks, hf] using hi.links
    · rw [hform]
      exact fun _ _ _ _ _ hf' => by cases hf'
    · intro role' j tails' d' c' hf'
      rw [hform] at hf'
      simp only [Form.group.injEq] at hf'
      exact hh role head tails d c hf j hf'.2.1
    · rw [hform]
      simp [Node.ownLinks, hf]
    · rw [hform]
      exact fun _ _ _ _ _ hf' => by cases hf'

theorem withLink (h : s.Sound) (i : Nat) {target : Item} (ht : target.Within s)
    (labels : List Label) : (s.withLink i target labels).Sound :=
  (h.pushLink (k := ⟨target, labels⟩) ht).appendOwn i (by simp) (h.unowned_of_le (Nat.le_refl _))

theorem moveBridge (h : s.Sound) (i : Nat) {target : Item} (ht : target.Within s)
    (labels : List Label) : (s.moveBridge i target labels).Sound := by
  unfold Store.moveBridge
  cases hf : (s.node i).form with
  | bridge answer parent child old link =>
    obtain ⟨p, rfl⟩ := (h.fits i).parent _ _ _ _ _ hf
    have hk : (s.pushLink ⟨target, bridgeLabels answer old labels⟩).Sound := h.pushLink ht
    have hi := hk.fits i
    refine hk.mapNode (fun _ => ⟨hi.whole, hi.mark, ?_, ?_, ?_⟩) ?_ ?_
    · intro item hitem
      obtain rfl := List.mem_singleton.1 hitem
      exact ⟨s.links.size, rfl, by simp⟩
    · intro answer' parent' child' labels' link' hf'
      cases hf'
      exact ⟨p, rfl⟩
    · intro role j tails d c hf'
      cases hf'
    · intro l hl _
      cases List.mem_singleton.1 hl
      exact h.unowned_of_le (Nat.le_refl _)
    · intro answer' parent' child' labels' l hf'
      cases hf'
      exact congrArg Link.target (s.link_pushLink_size _)
  | box shape => exact h
  | decision role yes no => exact h
  | group role head tails d c => exact h

theorem withAnswerLink (h : s.Sound) (i : Nat) (answer : Answer) {target : Item}
    (ht : target.Within s) (direction : Label) :
    (s.withAnswerLink i answer target direction).Sound := by
  refine (h.withBridge true i ht [some answer.word]).pushLink ?_
  intro j hj
  cases hj
  simp

theorem withAnswer (h : s.Sound) (i : Nat) (answer : Answer) {target : Item}
    (ht : target.Within s) (direction : Label) :
    (s.withAnswer i answer target direction).Sound := by
  have hb := h.withBridge true i ht [some answer.word]
  have hk := h.withAnswerLink i answer ht direction
  have hi := (hk.fits i).setAnswer answer (.link (s.links.size + 1))
  refine hk.mapNode (fun _ => ⟨hi.whole, hi.mark, ?_, hi.parent, hi.head⟩) ?_ ?_
  · intro item hitem
    rcases mem_ownLinks_addAnswer _ answer _ item hitem with hitem | rfl
    · exact (hk.fits i).links item hitem
    · exact ⟨s.links.size + 1, rfl, by simp⟩
  · intro l hl hne
    rcases mem_ownLinks_addAnswer _ answer _ _ hl with hl | hl
    · exact absurd hl hne
    · cases hl
      exact hb.unowned_of_le (by simp)
  · intro answer' parent child labels l hf
    exact hk.children i _ _ _ _ l ((bridge_setAnswer _ _ _).1 hf)

end Store.Sound

namespace Store.Closed

theorem withBox (h : s.Closed) (shape : Shape) (text : String) (code : Option Code.Piece) :
    (s.withBox shape text code).Closed :=
  (h.of_nodes (t := s.countId) rfl).pushNode (List.forall_mem_nil _)

theorem withDecision (h : s.Closed) (role : DecisionRole) (text : String)
    (code : Option Code.Piece) : (s.withDecision role text code).Closed := by
  refine (h.of_nodes (t := s.countId) rfl).pushNode ?_
  simp [Form.items, within_nothing]

theorem withGroup (h : s.Closed) {role : GroupRole} {head : Item} {tails : List Item}
    (hr : ∀ item ∈ role.items, item.Within s) (hh : head.Within s)
    (ht : ∀ item ∈ tails, item.Within s) (code : Option Code.Piece) :
    (s.withGroup role head tails code).Closed := by
  refine (h.of_nodes (t := s.countId) rfl).pushNode ?_
  intro item hitem
  rcases List.mem_cons.1 hitem with rfl | hitem
  · exact hh
  · rcases List.mem_append.1 hitem with hitem | hitem
    · exact ht item hitem
    · exact hr item hitem

theorem withBridge (h : s.Closed) (answer : Bool) {parent child : Item} (hp : parent.Within s)
    (hc : child.Within s) (labels : List Label) :
    (s.withBridge answer parent child labels).Closed := by
  refine (h.of_nodes (t := s.countId.pushLink _) rfl).pushNode ?_
  intro item hitem
  simp only [Form.items, List.mem_cons, List.not_mem_nil, or_false] at hitem
  rcases hitem with rfl | rfl | rfl
  · exact hp
  · exact hc
  · exact within_link s _

theorem withLink (h : s.Closed) (i : Nat) (target : Item) (labels : List Label) :
    (s.withLink i target labels).Closed :=
  (h.of_nodes (t := s.pushLink _) rfl).mapForm rfl

theorem moveBridge (h : s.Closed) (i : Nat) {target : Item} (ht : target.Within s)
    (labels : List Label) : (s.moveBridge i target labels).Closed := by
  unfold Store.moveBridge
  cases hf : (s.node i).form with
  | bridge answer parent child old link =>
    have hparent : parent.Within s := h i parent (by simp [hf, Form.items])
    refine (h.of_nodes (t := s.pushLink _) rfl).mapNode ?_
    intro item hitem
    simp only [Form.items, List.mem_cons, List.not_mem_nil, or_false] at hitem
    rcases hitem with rfl | rfl | rfl
    · exact hparent
    · exact ht
    · exact within_link _ _
  | box shape => exact h
  | decision role yes no => exact h
  | group role head tails d c => exact h

theorem withAnswer (h : s.Closed) {i : Nat} (hi : i < s.nodes.size) (answer : Answer)
    {target : Item} (ht : target.Within s) (direction : Label) :
    (s.withAnswer i answer target direction).Closed := by
  have hb := h.withBridge true (within_node.2 hi) ht [some answer.word]
  have hk : (s.withAnswerLink i answer target direction).Closed := hb.of_nodes rfl
  refine hk.mapNode fun item hitem => ?_
  rcases mem_items_addAnswer _ _ _ item hitem with hitem | rfl
  · exact hk i item hitem
  · exact within_link _ _

theorem regroup (h : s.Closed) (i : Nat)
    {f : GroupRole → Item → List Item → GroupRole × Item × List Item}
    (hf : ∀ role head tails d c, (s.node i).form = .group role head tails d c →
      ∀ item ∈ (Form.group (f role head tails).1 (f role head tails).2.1 (f role head tails).2.2
        "" "").items, item.Within s) : (s.mapNode i (·.regroup f)).Closed := by
  cases hg : (s.node i).isGroup with
  | false => exact h.mapForm (congrArg Node.form (regroup_of_not_group f hg))
  | true =>
    obtain ⟨role, head, tails, d, c, hform⟩ := form_of_isGroup hg
    refine h.mapNode ?_
    rw [regroup_of_group f hform]
    exact hf role head tails d c hform

end Store.Closed

theorem connectAnswer_of_present (i : Nat) (answer : Answer) (target : Item) (direction : Label)
    (h : (((s.withAnswerLink i answer target direction).mapNode i
      (·.setAnswer answer (.link (s.links.size + 1)))).node i).absent.contains "connections"
        = false) :
    connectAnswer i answer target direction s
      = .ok s.nodes.size (s.withAnswer i answer target direction) := by
  let k := s.withAnswerLink i answer target direction
  let l := s.links.size + 1
  have happend := appendLink_of_not_absent _ i (.link l) h
  rw [Store.mapNode_mapNode] at happend
  have hadd : k.mapNode i ((fun n => { n with links := n.links ++ [.link l] })
      ∘ (·.setAnswer answer (.link l))) = s.withAnswer i answer target direction := by
    unfold Store.withAnswer
    congr 1
    funext n
    simp only [Function.comp_apply, Node.addAnswer, links_setAnswer]
    rfl
  rw [hadd] at happend
  have hl : (s.withBridge true (.node i) target [some answer.word]).links.size = l := by simp [l]
  unfold connectAnswer
  rw [bind_ok (newBridge_run s true (.node i) target [some answer.word]),
    bind_ok (addLink_run _ (.node s.nodes.size) [some answer.word, direction]), hl]
  cases answer with
  | yes =>
    refine (bind_ok (setYes_run (s := k) (.link l) i)).trans ?_
    exact bind_ok happend
  | no =>
    refine (bind_ok (setNo_run (s := k) (.link l) i)).trans ?_
    exact bind_ok happend

theorem connectAnswer_run (hs : s.Sound) (i : Nat) (answer : Answer) {target : Item}
    (ht : target.Within s) (direction : Label) : connectAnswer i answer target direction s
      = .ok s.nodes.size (s.withAnswer i answer target direction) := by
  let k := s.withAnswerLink i answer target direction
  have hwhole := ((hs.withAnswerLink i answer ht direction).fits i).whole
  have habsent : ((k.mapNode i (·.setAnswer answer (.link (s.links.size + 1)))).node i).absent
      = [] :=
    k.node_mapNode_keeps i i _ (P := fun n => n.absent = []) hwhole
      fun _ => absent_setAnswer _ _ _ hwhole
  refine connectAnswer_of_present i answer target direction ?_
  rw [habsent]
  rfl

/-- Nodes that get a link of their own for each connection. -/
def Form.takesLinks : Form → Bool
  | .box shape => shape ≠ .jump
  | .decision role .. => role ≠ .loop
  | .bridge .. => false
  | .group .. => false

def Form.isFinal : Form → Bool
  | .box shape => shape = .jump
  | .group (.returning ..) .. => true
  | _ => false

theorem Form.ne_box {f : Form} (hfinal : ¬f.isFinal = true) (htakes : ¬f.takesLinks = true)
    (shape : Shape) : f ≠ .box shape := by
  rintro rfl
  by_cases hjump : shape = .jump
  · exact hfinal (decide_eq_true hjump)
  · exact htakes (decide_eq_true hjump)

section

variable (fuel : Nat) (target : Item) (labels : List Label)

theorem connectWithin_bridge {answer parent child old link}
    (hf : (s.node i).form = .bridge answer parent child old link) :
    connectWithin (fuel + 1) i target labels s = .ok () (s.moveBridge i target labels) := by
  unfold connectWithin
  rw [bind_ok (getNode_run s i), hf]
  exact connectBridge_run s i target labels

theorem connectWithin_final (hf : (s.node i).form.isFinal = true) :
    connectWithin (fuel + 1) i target labels s = .ok () s := by
  unfold connectWithin
  rw [bind_ok (getNode_run s i)]
  revert hf
  cases hform : (s.node i).form with
  | box shape => cases shape <;> first | exact fun _ => rfl | exact fun h => nomatch h
  | group role head tails d c =>
    cases role <;> first | exact fun _ => rfl | exact fun h => nomatch h
  | decision role yes no => simp [Form.isFinal]
  | bridge answer parent child old link => simp [Form.isFinal]

theorem connectWithin_plain (hf : (s.node i).form.takesLinks = true)
    (hw : (s.node i).absent = []) :
    connectWithin (fuel + 1) i target labels s
      = .ok () (s.withLink i target [labels.headD (some "")]) := by
  unfold connectWithin
  rw [bind_ok (getNode_run s i)]
  have hrun : (do let l ← addLink target [labels.headD (some "")]; appendLink i (.link l)
      : Action Unit) s = .ok () (s.withLink i target [labels.headD (some "")]) :=
    appendLink_run (s.pushLink ⟨target, [labels.headD (some "")]⟩) i _ hw
  revert hf
  cases hform : (s.node i).form with
  | box shape =>
    cases shape <;> first | exact fun _ => hrun | exact fun h => nomatch h
  | group role head tails d c => simp [Form.takesLinks]
  | decision role yes no =>
    cases role <;> first | exact fun _ => hrun | exact fun h => nomatch h
  | bridge answer parent child old link => simp [Form.takesLinks]

theorem connectWithin_loop {yes no} (hf : (s.node i).form = .decision .loop yes no) :
    connectWithin (fuel + 1) i target labels s
      = (do if isGiven (labels.headD (some "")) then setDirection i (labels.headD (some ""))
            let _ ← connectAnswer i .no target : Action Unit) s := by
  unfold connectWithin
  rw [bind_ok (getNode_run s i), hf]

theorem connectWithin_group {role head tails d c}
    (hf : (s.node i).form = .group role head tails d c) (hr : (s.node i).form.isFinal = false) :
    connectWithin (fuel + 1) i target labels s = (tails.forM fun t =>
      match t with
      | .node j => connectWithin fuel j target [labels.headD (some "")]
      | _ => pure () : Action Unit) s := by
  rw [connectWithin, bind_ok (getNode_run s i)]
  rw [hf] at hr ⊢
  cases role <;> first | rfl | cases hr

end

structure Grown (σ τ : Store) : Prop where
  sound : τ.Sound
  size : σ.nodes.size ≤ τ.nodes.size
  closed : σ.Closed → τ.Closed

theorem Grown.refl {σ : Store} (h : σ.Sound) : Grown σ σ := ⟨h, Nat.le_refl _, id⟩

/-- A sound store in which nothing refers to the outside. -/
structure Store.Firm (s : Store) : Prop where
  sound : s.Sound
  closed : s.Closed

theorem Grown.firm {σ τ : Store} (h : Grown σ τ) (hσ : σ.Firm) : τ.Firm :=
  ⟨h.sound, h.closed hσ.closed⟩

theorem Grown.trans {σ τ υ : Store} (h : Grown σ τ) (h' : Grown τ υ) : Grown σ υ :=
  ⟨h'.sound, Nat.le_trans h.size h'.size, h'.closed ∘ h.closed⟩

/-- Whatever becomes of the action, the store has only grown; where it succeeds, its value and the
store satisfy `post`. -/
def Keeps {α : Type} (σ : Store) (act : Action α) (post : α → Store → Prop) : Prop :=
  match act σ with
  | .ok a τ => Grown σ τ ∧ post a τ
  | .error _ τ => Grown σ τ

namespace Keeps

variable {α β : Type} {σ τ : Store} {act : Action α} {post : α → Store → Prop}

theorem of_ok {a : α} (h : act σ = .ok a τ) (hg : Grown σ τ) (hp : post a τ) :
    Keeps σ act post := by
  unfold Keeps
  rw [h]
  exact ⟨hg, hp⟩

theorem of_error {f : Fault} (h : act σ = .error f τ) (hg : Grown σ τ) : Keeps σ act post := by
  unfold Keeps
  rw [h]
  exact hg

theorem ok {a : α} (h : Keeps σ act post) (ha : act σ = .ok a τ) : Grown σ τ ∧ post a τ := by
  unfold Keeps at h
  rwa [ha] at h

theorem error {f : Fault} (h : Keeps σ act post) (ha : act σ = .error f τ) : Grown σ τ := by
  unfold Keeps at h
  rwa [ha] at h

/-- What is kept from a grown store on is kept from the store before it. -/
theorem after {act' : Action α} (hg : Grown σ τ) (h : Keeps τ act' post)
    (hrun : act σ = act' τ) : Keeps σ act post := by
  cases ha : act' τ with
  | ok a υ => exact of_ok (hrun.trans ha) (hg.trans (h.ok ha).1) (h.ok ha).2
  | error f υ => exact of_error (hrun.trans ha) (hg.trans (h.error ha))

theorem bind {k : α → Action β} {post' : β → Store → Prop} (h : Keeps σ act post)
    (hk : ∀ a τ, Grown σ τ → post a τ → Keeps τ (k a) post') : Keeps σ (act >>= k) post' := by
  cases ha : act σ with
  | error f τ => exact of_error (bind_error ha) (h.error ha)
  | ok a τ =>
    obtain ⟨hg, hp⟩ := h.ok ha
    exact after hg (hk a τ hg hp) (bind_ok ha)

theorem mono {post' : α → Store → Prop} (h : Keeps σ act post)
    (hp : ∀ a τ, post a τ → post' a τ) : Keeps σ act post' := by
  cases ha : act σ with
  | error f τ => exact of_error ha (h.error ha)
  | ok a τ => exact of_ok ha (h.ok ha).1 (hp a τ (h.ok ha).2)

theorem of_eq {act' : Action α} (h : act σ = act' σ) (hk : Keeps σ act' post) :
    Keeps σ act post := by
  unfold Keeps
  rw [h]
  exact hk

theorem forM {f : β → Action Unit} (items : List β) (hσ : σ.Sound)
    (hf : ∀ item ∈ items, ∀ τ, Grown σ τ → Keeps τ (f item) fun _ _ => True) :
    Keeps σ (items.forM f) fun _ _ => True := by
  induction items generalizing σ with
  | nil => exact of_ok rfl (.refl hσ) trivial
  | cons item rest ih =>
    have hfirst := hf item List.mem_cons_self σ (.refl hσ)
    refine bind hfirst ?_
    intro _ τ hτ _
    refine ih hτ.sound ?_
    intro item' hitem' υ hυ
    exact hf item' (List.mem_cons_of_mem _ hitem') υ (hτ.trans hυ)

end Keeps

theorem Item.Within.grown {σ τ : Store} {item : Item} (h : item.Within σ) (hg : Grown σ τ) :
    item.Within τ :=
  h.mono hg.size

theorem setDirection_keeps {σ : Store} (hσ : σ.Sound) (i : Nat) (direction : Label) :
    Keeps σ (setDirection i direction) fun _ _ => True :=
  .of_ok rfl ⟨hσ.mapPlain i (fun _ => rfl) (fun _ => rfl) (fun _ => rfl) (fun _ => rfl),
    Nat.le_of_eq (σ.size_mapNode i _).symm, fun hc => hc.mapForm rfl⟩ trivial

theorem connectAnswer_keeps {σ : Store} (hσ : σ.Sound) {i : Nat} (hi : i < σ.nodes.size)
    (answer : Answer) {target : Item} (ht : target.Within σ) (direction : Label) :
    Keeps σ (connectAnswer i answer target direction) fun b τ => b < τ.nodes.size :=
  .of_ok (connectAnswer_run hσ i answer ht direction)
    ⟨hσ.withAnswer i answer ht direction, by simp, fun hc => hc.withAnswer hi answer ht direction⟩
    (by simp)

theorem lt_size_of_form {s : Store} {i : Nat} {f : Form} (h : (s.node i).form = f)
    (hf : f ≠ .box .blank) : i < s.nodes.size := by
  by_contra hle
  rw [s.node_eq_default i (by omega)] at h
  exact hf h.symm

theorem lt_size_of_isDecision {s : Store} {i : Nat} (h : (s.node i).form.isDecision = true) :
    i < s.nodes.size :=
  lt_size_of_form rfl fun hf => by simp [hf, Form.isDecision] at h

theorem connectWithin_keeps (fuel : Nat) : ∀ {σ : Store}, σ.Sound → ∀ (i : Nat) {target : Item},
    target.Within σ → ∀ labels,
      Keeps σ (connectWithin fuel i target labels) fun _ _ => True := by
  induction fuel with
  | zero =>
    intro σ hσ i target _ labels
    exact .of_error rfl (.refl hσ)
  | succ fuel ih =>
    intro σ hσ i target ht labels
    by_cases hfinal : (σ.node i).form.isFinal = true
    · exact .of_ok (connectWithin_final fuel target labels hfinal) (.refl hσ) trivial
    by_cases htakes : (σ.node i).form.takesLinks = true
    · exact .of_ok (connectWithin_plain fuel target labels htakes (hσ.fits i).whole)
        ⟨hσ.withLink i ht _, by simp, fun hc => hc.withLink i target _⟩ trivial
    cases hf : (σ.node i).form with
    | box shape => exact absurd hf (Form.ne_box hfinal htakes shape)
    | decision role yes no =>
      obtain rfl : role = .loop := by simpa [hf, Form.takesLinks] using htakes
      have hi : i < σ.nodes.size := lt_size_of_form hf (by simp)
      refine .of_eq (connectWithin_loop fuel target labels hf) ?_
      split
      · refine (setDirection_keeps hσ i _).bind ?_
        intro _ τ hτ _
        refine (connectAnswer_keeps hτ.sound (Nat.lt_of_lt_of_le hi hτ.size) .no
          (ht.grown hτ) _).bind ?_
        intro _ υ hυ _
        exact .of_ok rfl (.refl hυ.sound) trivial
      · refine (connectAnswer_keeps hσ hi .no ht _).bind ?_
        intro _ υ hυ _
        exact .of_ok rfl (.refl hυ.sound) trivial
    | bridge answer parent child old link =>
      exact .of_ok (connectWithin_bridge fuel target labels hf)
        ⟨hσ.moveBridge i ht labels, by simp, fun hc => hc.moveBridge i ht labels⟩ trivial
    | group role head tails d c =>
      refine .of_eq (connectWithin_group fuel target labels hf (by simpa using hfinal)) ?_
      refine .forM tails hσ ?_
      intro item _ τ hτ
      cases item with
      | node j => exact ih hτ.sound j (ht.grown hτ) _
      | nothing => exact .of_ok rfl (.refl hτ.sound) trivial
      | link l => exact .of_ok rfl (.refl hτ.sound) trivial

theorem connect_keeps {σ : Store} (hσ : σ.Sound) (i : Nat) {target : Item}
    (ht : target.Within σ) (labels : List Label) :
    Keeps σ (connect i target labels) fun _ _ => True :=
  connectWithin_keeps (σ.nodes.size + 1) hσ i ht labels

end CodeChart.Graph
