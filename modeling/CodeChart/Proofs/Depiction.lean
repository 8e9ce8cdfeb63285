import CodeChart.Proofs.Rendering
import CodeChart.Proofs.Rows

/-! Drawings of flows. Where a store holds the vertices of a flow, a walk from the entry visits the
places that arrows lead to, each once, and draws each of their arrows as one line. -/
namespace CodeChart.Chart

open CodeChart.Graph

variable {V W : Type}

inductive Reached (xs : List (Vertex V)) (entry : V) : V → Prop where
  | entry : Reached xs entry entry
  | arrow {x a w} : Reached xs entry x.place → x ∈ xs → a ∈ x.arrows → a.target = some w →
      Reached xs entry w

/-- A box with the name of its node. -/
structure Named where
  name : String
  box : Box

/-- The word for a box in a chart. -/
def Box.word (b : Box) : String := (b.shape.map Shape.word).getD "condition"

def Named.definition (v : Named) : Definition := ⟨v.name, v.box.params, v.box.word, v.box.text⟩

/-- A drawing shows the part of a graph that is reached from its entry: each place once, the entry
first, and each arrow that leads somewhere once. -/
structure Depicts (xs : List (Vertex V)) (entry : V) (f : V → Named) (d : Drawing) : Prop where
  first : d.nodes.head? = some (f entry).definition
  names : (d.nodes.map Definition.name).Nodup
  nodes : ∀ n, n ∈ d.nodes ↔ ∃ v, Reached xs entry v ∧ n = (f v).definition
  once : d.lines.Nodup
  lines : ∀ k, k ∈ d.lines ↔ ∃ x ∈ xs, Reached xs entry x.place ∧ ∃ a ∈ x.arrows, ∃ w,
    a.target = some w ∧ k = ⟨(f x.place).name, a.labels, (f w).name⟩

theorem Reached.mem {xs : List (Vertex V)} {entry v : V}
    (htargets : Flow.TargetsIn (· ∈ xs.map Vertex.place) xs) (hentry : entry ∈ xs.map Vertex.place)
    (hv : Reached xs entry v) : v ∈ xs.map Vertex.place := by
  induction hv with
  | entry => exact hentry
  | arrow _ hx ha hw _ => exact htargets _ hx _ ha _ hw

theorem digits_name {a : String} (ha : a ∈ ["st", "e", "op", "io", "sub", "cond"]) (n : Nat) :
    (a ++ toString n).toList.filter Char.isDigit = Nat.toDigits 10 n := by
  have hletters : a.toList.filter Char.isDigit = [] := by
    revert a
    decide
  have hdigits : ∀ c ∈ Nat.toDigits 10 n, c.isDigit = true := fun _ hc =>
    Nat.isDigit_of_mem_toDigits (by decide) (by decide) hc
  rw [String.toList_append, List.filter_append, hletters, Nat.toString_eq_repr, Nat.toList_repr,
    List.filter_eq_self.2 hdigits, List.nil_append]

theorem number_of_name {a b : String} (ha : a ∈ ["st", "e", "op", "io", "sub", "cond"])
    (hb : b ∈ ["st", "e", "op", "io", "sub", "cond"]) {n m : Nat}
    (h : a ++ toString n = b ++ toString m) : n = m := by
  have hdigits : Nat.toDigits 10 n = Nat.toDigits 10 m := by
    rw [← digits_name ha, ← digits_name hb, h]
  calc n = Nat.ofDigitChars 10 (Nat.toDigits 10 n) 0 := Nat.ofDigitChars_ten_toDigits.symm
    _ = Nat.ofDigitChars 10 (Nat.toDigits 10 m) 0 := by rw [hdigits]
    _ = m := Nat.ofDigitChars_ten_toDigits

variable {σ τ : Store} {xs : List (Vertex Site)}

def namedAt (τ : Store) (s : Site) : Named := ⟨(τ.node s.node).name, boxAt τ s⟩

theorem Holds.eq_of_name (h : Holds σ τ xs) {x y : Vertex Site} (hx : x ∈ xs) (hy : y ∈ xs)
    (hname : (τ.node x.place.node).name = (τ.node y.place.node).name) : x = y := by
  obtain ⟨a, ha, hna⟩ := h.named x hx
  obtain ⟨b, hb, hnb⟩ := h.named y hy
  rw [hna, hnb] at hname
  exact List.inj_on_of_nodup_map h.numbers hx hy (number_of_name ha hb hname)

/-- An answer of a test: the word, the bridge that carries it and where it leads. -/
structure Answering where
  word : String
  bridge : Nat
  target : Option Site

def Vertex.answers : Vertex Site → List Answering
  | .box _ _ => []
  | .test s yes no => yes.toList.map (⟨"yes", s.yes, ·⟩) ++ [⟨"no", s.no, no⟩]

def Meets (τ : Store) (x : Vertex Site) (i : Nat) : Prop :=
  i = x.place.node ∨ ∃ a ∈ x.answers, i = a.bridge ∨
    ∃ labels, BridgeAt τ i x.place.node (.node a.bridge) labels

theorem VertexAt.answers {s : Site} {yes : Option (Option Site)} {no : Option Site}
    (h : VertexAt τ (.test s yes no)) :
    (∃ role y n, (τ.node s.node).form = .decision role y n) ∧
    (∀ a ∈ (Vertex.test s yes no).answers, ∃ l, Item.link l ∈ (τ.node s.node).links ∧
      AnswerAt τ s a.bridge l a.word a.target) ∧
    ∀ item ∈ (τ.node s.node).links, ∃ l, item = .link l ∧
      ∃ a ∈ (Vertex.test s yes no).answers, AnswerAt τ s a.bridge l a.word a.target := by
  cases yes with
  | none =>
    obtain ⟨role, y, n, hf, hlinks, hno⟩ := h
    refine ⟨⟨_, _, _, hf⟩, ?_, ?_⟩
    · simpa [Vertex.answers, hlinks] using hno
    · simpa [Vertex.answers, hlinks] using hno
  | some yes =>
    obtain ⟨role, y, n, hf, hlinks, hyes, hno⟩ := h
    refine ⟨⟨_, _, _, hf⟩, ?_, ?_⟩
    · simpa [Vertex.answers, hlinks] using ⟨.inl hyes, .inr hno⟩
    · simpa [Vertex.answers, hlinks] using ⟨.inl hyes, .inr hno⟩

theorem mem_arrows_of_answer {x : Vertex Site} {a : Answering} (h : a ∈ x.answers) :
    (⟨[a.word], a.target⟩ : Arrow Site) ∈ x.arrows := by
  cases x with
  | box s out => cases h
  | test s yes no =>
    rw [Flow.mem_arrows_test]
    simp only [Vertex.answers, List.mem_append, List.mem_map, List.mem_singleton,
      Option.mem_toList] at h
    rcases h with ⟨y, hy, rfl⟩ | rfl
    · exact .inl ⟨y, hy, rfl⟩
    · exact .inr rfl

theorem answer_of_mem_arrows {s : Site} {yes : Option (Option Site)} {no : Option Site}
    {a : Arrow Site} (h : a ∈ (Vertex.test s yes no).arrows) :
    ∃ b ∈ (Vertex.test s yes no).answers, a = ⟨[b.word], b.target⟩ := by
  rcases Flow.mem_arrows_test.1 h with ⟨y, rfl, rfl⟩ | rfl
  · exact ⟨⟨"yes", s.yes, y⟩, by simp [Vertex.answers], rfl⟩
  · exact ⟨⟨"no", s.no, no⟩, by simp [Vertex.answers], rfl⟩

theorem Arrives.node_of {item : Item} {s : Site} (h : Arrives τ item s) : ∃ k, item = .node k := by
  obtain ⟨⟨n, hn⟩, -⟩ := h
  cases hn <;> exact ⟨_, rfl⟩

theorem mem_nextItems {i : Nat} {item : Item} : item ∈ τ.nextItems i ↔
    ∃ l, Item.link l ∈ (τ.node i).ownLinks ∧ (τ.link l).target = item ∧ ∃ k, item = .node k := by
  unfold Store.nextItems
  rw [List.mem_filterMap]
  constructor
  · rintro ⟨link, hmem, htarget⟩
    cases link with
    | link l =>
      refine ⟨l, hmem, ?_⟩
      simp only [Store.target?] at htarget
      cases ht : (τ.link l).target with
      | node k =>
        rw [ht] at htarget
        cases htarget
        exact ⟨rfl, k, rfl⟩
      | nothing => rw [ht] at htarget; cases htarget
      | link k => rw [ht] at htarget; cases htarget
    | nothing => cases htarget
    | node j => cases htarget
  · rintro ⟨l, hmem, ht, k, rfl⟩
    exact ⟨.link l, hmem, by simp [Store.target?, ht]⟩

theorem BridgeAt.nextItems {b parent : Nat} {item : Item} {labels : List Label}
    (h : BridgeAt τ b parent item labels) {next : Item} :
    next ∈ τ.nextItems b ↔ next = item ∧ ∃ k, next = .node k := by
  obtain ⟨-, answer, l, hf, hl⟩ := h
  rw [mem_nextItems]
  constructor
  · rintro ⟨l', hmem, ht, hk⟩
    simp only [Node.ownLinks, hf, List.mem_singleton, Item.link.injEq] at hmem
    subst hmem
    rw [hl] at ht
    exact ⟨ht.symm, hk⟩
  · rintro ⟨rfl, hk⟩
    exact ⟨l, by simp [Node.ownLinks, hf], by rw [hl], hk⟩

theorem BridgeAt.not_group {b parent : Nat} {item : Item} {labels : List Label}
    (h : BridgeAt τ b parent item labels) : (τ.node b).isGroup = false := by
  obtain ⟨-, answer, l, hf, -⟩ := h
  rw [Node.isGroup, hf]
  rfl

theorem ownLinks_of_decision {i : Nat} {role y n} (hf : (τ.node i).form = .decision role y n) :
    (τ.node i).ownLinks = (τ.node i).links := by
  simp [Node.ownLinks, hf]

theorem ownLinks_of_box {i : Nat} {shape} (hf : (τ.node i).form = .box shape) :
    (τ.node i).ownLinks = (τ.node i).links := by
  simp [Node.ownLinks, hf]

theorem VertexAt.not_group {x : Vertex Site} (h : VertexAt τ x) :
    (τ.node x.place.node).isGroup = false := by
  unfold Node.isGroup
  rcases x with ⟨s, _ | a⟩ | ⟨s, yes, no⟩
  · obtain ⟨shape, hf, -⟩ := h
    exact congrArg Form.isGroup hf
  · obtain ⟨shape, item, hf, -⟩ := h
    exact congrArg Form.isGroup hf
  · obtain ⟨⟨role, y, n, hf⟩, -⟩ := h.answers
    exact congrArg Form.isGroup hf

/-- Where a walk goes on from a vertex: to a bridge of the vertex or along an arrow. -/
theorem VertexAt.next {x : Vertex Site} (h : VertexAt τ x) {i : Nat} (hi : Meets τ x i)
    {item : Item} (hitem : item ∈ τ.nextItems i) : ∃ j, HeadsTo τ item j ∧
      (Meets τ x j ∨ ∃ a ∈ x.arrows, ∃ w, a.target = some w ∧ j = w.node) := by
  rcases hi with rfl | ⟨a, ha, hi⟩
  · rcases x with ⟨s, _ | a⟩ | ⟨s, yes, no⟩
    · obtain ⟨shape, hf, hlinks⟩ := h
      obtain ⟨l, hmem, ht, k, rfl⟩ := mem_nextItems.1 hitem
      rw [Vertex.place, ownLinks_of_box hf] at hmem
      rcases hlinks with hlinks | ⟨l', hlinks, hnothing⟩
      · rw [hlinks] at hmem
        cases hmem
      · rw [hlinks, List.mem_singleton, Item.link.injEq] at hmem
        rw [hmem, hnothing] at ht
        cases ht
    · obtain ⟨shape, target, hf, -, -, hleads, hlinks⟩ := h
      obtain ⟨l, hmem, ht, k, rfl⟩ := mem_nextItems.1 hitem
      rw [Vertex.place, ownLinks_of_box hf] at hmem
      rcases hlinks with ⟨-, hlinks⟩ | ⟨hne, l', hlinks, hlink⟩
      · rw [hlinks] at hmem
        cases hmem
      · rw [hlinks, List.mem_singleton, Item.link.injEq] at hmem
        rw [hmem, hlink] at ht
        subst ht
        cases htarget : a.target with
        | none =>
          rw [htarget] at hleads
          exact absurd hleads hne
        | some w =>
          rw [htarget] at hleads
          exact ⟨w.node, hleads.1, .inr ⟨a, by simp [Vertex.arrows], w, htarget, rfl⟩⟩
    · obtain ⟨⟨role, y, n, hf⟩, -, hback⟩ := h.answers
      obtain ⟨l, hmem, ht, k, rfl⟩ := mem_nextItems.1 hitem
      rw [Vertex.place, ownLinks_of_decision hf] at hmem
      obtain ⟨l', hl', a, ha, ⟨child, labels, hb, -⟩, hvia⟩ := hback _ hmem
      cases hl'
      rw [ht] at hvia
      rcases hvia with hdirect | ⟨b, -, labels', hdirect, hb'⟩
      · cases hdirect
        exact ⟨a.bridge, .of_not_group hb.not_group, .inl (.inr ⟨a, ha, .inl rfl⟩)⟩
      · cases hdirect
        exact ⟨k, .of_not_group hb'.not_group, .inl (.inr ⟨a, ha, .inr ⟨labels', hb'⟩⟩)⟩
  · rcases x with _ | ⟨s, yes, no⟩
    · cases ha
    obtain ⟨-, hanswers, -⟩ := h.answers
    obtain ⟨l, -, ⟨child, labels, hb, -, hleads⟩, -⟩ := hanswers a ha
    rcases hi with rfl | ⟨labels', hb'⟩
    · obtain ⟨rfl, k, rfl⟩ := hb.nextItems.1 hitem
      cases htarget : a.target with
      | none =>
        rw [htarget] at hleads
        cases hleads
      | some w =>
        rw [htarget] at hleads
        exact ⟨w.node, hleads.1, .inr ⟨_, mem_arrows_of_answer ha, w, htarget, rfl⟩⟩
    · obtain ⟨rfl, -⟩ := hb'.nextItems.1 hitem
      exact ⟨a.bridge, .of_not_group hb.not_group, .inl (.inr ⟨a, ha, .inl rfl⟩)⟩

variable {start : Item}

theorem reachable_step {i j : Nat} {item : Item} (h : τ.Reachable start i)
    (hitem : item ∈ τ.nextItems i) (hj : HeadsTo τ item j) : τ.Reachable start j :=
  .step h rfl hitem hj List.not_mem_nil

theorem VertexAt.answer_reachable {x : Vertex Site} (h : VertexAt τ x)
    (hx : τ.Reachable start x.place.node) {a : Answering} (ha : a ∈ x.answers) :
    τ.Reachable start a.bridge := by
  rcases x with _ | ⟨s, yes, no⟩
  · cases ha
  obtain ⟨⟨role, y, n, hf⟩, hanswers, -⟩ := h.answers
  obtain ⟨l, hl, ⟨child, labels, hb, -⟩, hvia⟩ := hanswers a ha
  have hown : Item.link l ∈ (τ.node s.node).ownLinks := by rwa [ownLinks_of_decision hf]
  rcases hvia with hdirect | ⟨b, -, labels', hdirect, hb'⟩
  · exact reachable_step hx (mem_nextItems.2 ⟨l, hown, hdirect, _, rfl⟩)
      (.of_not_group hb.not_group)
  · have hb'' : τ.Reachable start b :=
      reachable_step hx (mem_nextItems.2 ⟨l, hown, hdirect, _, rfl⟩) (.of_not_group hb'.not_group)
    exact reachable_step hb'' (hb'.nextItems.2 ⟨rfl, _, rfl⟩) (.of_not_group hb.not_group)

theorem VertexAt.arrow_reachable {x : Vertex Site} (h : VertexAt τ x)
    (hx : τ.Reachable start x.place.node) {a : Arrow Site} (ha : a ∈ x.arrows) {w : Site}
    (hw : a.target = some w) : τ.Reachable start w.node := by
  cases x with
  | box s out =>
    obtain rfl := Option.mem_toList.1 ha
    obtain ⟨shape, item, hf, -, -, hleads, hlinks⟩ := h
    rw [hw] at hleads
    obtain ⟨k, rfl⟩ := Arrives.node_of hleads
    rcases hlinks with ⟨hnothing, -⟩ | ⟨-, l, hlinks, hlink⟩
    · cases hnothing
    · refine reachable_step hx (mem_nextItems.2 ⟨l, ?_, by rw [hlink], k, rfl⟩) hleads.1
      simp [Vertex.place, ownLinks_of_box hf, hlinks]
  | test s yes no =>
    obtain ⟨b, hb, rfl⟩ := answer_of_mem_arrows ha
    obtain ⟨-, hanswers, -⟩ := h.answers
    obtain ⟨l, -, ⟨child, labels, hbridge, -, hleads⟩, -⟩ := hanswers b hb
    simp only at hw
    rw [hw] at hleads
    exact reachable_step (h.answer_reachable hx hb)
      (hbridge.nextItems.2 ⟨rfl, Arrives.node_of hleads⟩) hleads.1

variable {entry : Site}

theorem Holds.meets (h : Holds σ τ xs) (htargets : Flow.TargetsIn (· ∈ xs.map Vertex.place) xs)
    (hentry : entry ∈ xs.map Vertex.place) (hstart : HeadsTo τ start entry.node) {i : Nat}
    (hi : τ.Reachable start i) : ∃ x ∈ xs, Reached xs entry x.place ∧ Meets τ x i := by
  induction hi with
  | entry hh _ =>
    obtain rfl := hh.unique hstart
    obtain ⟨x, hx, rfl⟩ := List.mem_map.1 hentry
    exact ⟨x, hx, .entry, .inl rfl⟩
  | step _ _ hitem hj _ ih =>
    obtain ⟨x, hx, hreached, hmeets⟩ := ih
    obtain ⟨j, hj', hcases⟩ := (h.wired x hx).next hmeets hitem
    obtain rfl := hj'.unique hj
    rcases hcases with hmeets | ⟨a, ha, w, hw, rfl⟩
    · exact ⟨x, hx, hreached, hmeets⟩
    · obtain ⟨y, hy, rfl⟩ := List.mem_map.1 (htargets x hx a ha w hw)
      exact ⟨y, hy, .arrow hreached hx ha hw, .inl rfl⟩

theorem Holds.reachable (h : Holds σ τ xs) (hstart : HeadsTo τ start entry.node) {v : Site}
    (hv : Reached xs entry v) : τ.Reachable start v.node := by
  induction hv with
  | entry => exact .entry hstart List.not_mem_nil
  | arrow _ hx ha hw ih => exact (h.wired _ hx).arrow_reachable ih ha hw

theorem Holds.walkable (hs : τ.Sound) (h : Holds σ τ xs)
    (htargets : Flow.TargetsIn (· ∈ xs.map Vertex.place) xs) (hentry : entry ∈ xs.map Vertex.place)
    (hw : start.Within τ) (hstart : HeadsTo τ start entry.node) : Walkable τ start := by
  refine hs.walkable hw ⟨_, hstart⟩ ?_
  intro i hi item hitem
  obtain ⟨x, hx, -, hmeets⟩ := h.meets htargets hentry hstart hi
  obtain ⟨j, hj, -⟩ := (h.wired x hx).next hmeets hitem
  exact ⟨j, hj⟩

theorem VertexAt.definition {x : Vertex Site} (h : VertexAt τ x) :
    (τ.node x.place.node).definition? = some (namedAt τ x.place).definition := by
  have hboxed : ∀ {i : Nat} {shape : Shape}, (τ.node i).form = .box shape →
      (τ.node i).definition?
        = some ⟨(τ.node i).name, (τ.node i).params, shape.word, (τ.node i).text⟩ := by
    intro i shape hf
    unfold Node.definition?
    rw [hf]
    rfl
  rcases x with ⟨s, _ | a⟩ | ⟨s, yes, no⟩
  · obtain ⟨shape, hf, -⟩ := h
    rw [Vertex.place, hboxed hf, Named.definition, namedAt, Box.word, boxAt, hf]
    rfl
  · obtain ⟨shape, item, hf, -⟩ := h
    rw [Vertex.place, hboxed hf, Named.definition, namedAt, Box.word, boxAt, hf]
    rfl
  · obtain ⟨⟨role, y, n, hf⟩, -⟩ := h.answers
    unfold Node.definition?
    rw [Vertex.place, Named.definition, namedAt, Box.word, boxAt, hf]
    rfl

theorem BridgeAt.definition {b parent : Nat} {item : Item} {labels : List Label}
    (h : BridgeAt τ b parent item labels) : (τ.node b).definition? = none := by
  obtain ⟨-, answer, l, hf, -⟩ := h
  unfold Node.definition?
  rw [hf]

theorem VertexAt.definition_of_meets {x : Vertex Site} (h : VertexAt τ x) {i : Nat}
    (hi : Meets τ x i) {n : Definition} (hn : (τ.node i).definition? = some n) :
    i = x.place.node ∧ n = (namedAt τ x.place).definition := by
  rcases hi with rfl | ⟨a, ha, hi⟩
  · rw [h.definition] at hn
    cases hn
    exact ⟨rfl, rfl⟩
  · rcases x with _ | ⟨s, yes, no⟩
    · cases ha
    obtain ⟨-, hanswers, -⟩ := h.answers
    obtain ⟨l, -, ⟨child, labels, hb, -⟩, -⟩ := hanswers a ha
    rcases hi with rfl | ⟨labels', hb'⟩
    · rw [hb.definition] at hn
      cases hn
    · rw [hb'.definition] at hn
      cases hn

def lineOf (τ : Store) (s : Site) (a : Arrow Site) : Option Line :=
  a.target.map fun w => ⟨(τ.node s.node).name, a.labels, (τ.node w.node).name⟩

theorem lineTo_eq {source : Nat} (hs : (τ.node source).isGroup = false) {target : Option Site}
    {item : Item} (h : Leads τ target item) (labels : List Label) :
    τ.lineTo source item labels
      = target.map fun w => ⟨(τ.node source).name, shownLabels labels, (τ.node w.node).name⟩ := by
  cases target with
  | none =>
    obtain rfl : item = .nothing := h
    rfl
  | some w =>
    obtain ⟨k, rfl⟩ := Arrives.node_of h
    have hname : τ.name k = (τ.node w.node).name := h.1.name
    have hne : (τ.node w.node).name.isEmpty = false := by simpa using h.2
    simp only [Store.lineTo, hname, (HeadsTo.of_not_group hs).name, hne]
    rfl

theorem BridgeAt.linesFrom {b parent : Nat} (hs : (τ.node parent).isGroup = false) {item : Item}
    {labels : List Label} (h : BridgeAt τ b parent item labels) {target : Option Site}
    (hleads : Leads τ target item) : τ.linesFrom b
      = (target.map fun w =>
        ⟨(τ.node parent).name, shownLabels labels, (τ.node w.node).name⟩).toList := by
  obtain ⟨-, answer, l, hf, hl⟩ := h
  unfold Store.linesFrom
  rw [hf]
  simp only [hl]
  rw [lineTo_eq hs hleads]

theorem lineTo_unnamed {source b : Nat} (hg : (τ.node b).isGroup = false)
    (hb : (τ.node b).name = "") (labels : List Label) :
    τ.lineTo source (.node b) labels = none := by
  simp [Store.lineTo, (HeadsTo.of_not_group hg).name, hb]

theorem linesFrom_box {s : Site} {a : Arrow Site} (h : VertexAt τ (.box s (some a))) :
    τ.linesFrom s.node = (lineOf τ s a).toList := by
  have hgroup : (τ.node s.node).isGroup = false := h.not_group
  obtain ⟨shape, item, hf, -, hlabels, hleads, hlinks⟩ := h
  have hdraws : (τ.node s.node).draws = true := by simp [Node.draws, hf]
  have hfrom : τ.linesFrom s.node = (τ.node s.node).links.filterMap (τ.lineAlong s.node) := by
    unfold Store.linesFrom
    rw [hf]
    simp only [hdraws, if_true]
  rw [hfrom]
  rcases hlinks with ⟨rfl, hlinks⟩ | ⟨-, l, hlinks, hlink⟩
  · have htarget : a.target = none := by
      cases ht : a.target with
      | none => rfl
      | some w =>
        rw [ht] at hleads
        obtain ⟨k, hk⟩ := Arrives.node_of hleads
        cases hk
    rw [hlinks, lineOf, htarget]
    rfl
  · have hline : τ.lineAlong s.node (.link l) = lineOf τ s a := by
      simp only [Store.lineAlong, hlink]
      rw [lineTo_eq hgroup hleads, lineOf, hlabels]
      rfl
    rw [hlinks, List.filterMap_cons, hline]
    cases lineOf τ s a <;> rfl

theorem linesFrom_final {s : Site} (h : VertexAt τ (.box s none)) : τ.linesFrom s.node = [] := by
  obtain ⟨shape, hf, hlinks⟩ := h
  unfold Store.linesFrom
  rw [hf]
  simp only
  split
  · rcases hlinks with hlinks | ⟨l, hlinks, ht⟩
    · simp [hlinks]
    · simp [hlinks, Store.lineAlong, Store.lineTo, ht]
  · rfl

theorem linesFrom_test {s : Site} {yes : Option (Option Site)} {no : Option Site}
    (h : VertexAt τ (.test s yes no)) : τ.linesFrom s.node = [] := by
  obtain ⟨⟨role, y, n, hf⟩, -, hback⟩ := h.answers
  have hnone : ∀ item ∈ (τ.node s.node).links, τ.lineAlong s.node item = none := by
    intro item hitem
    obtain ⟨l, rfl, a, -, ⟨child, labels, hb, -⟩, hvia⟩ := hback item hitem
    simp only [Store.lineAlong]
    rcases hvia with hdirect | ⟨b, -, labels', hdirect, hb'⟩
    · rw [hdirect]
      exact lineTo_unnamed hb.not_group hb.1 _
    · rw [hdirect]
      exact lineTo_unnamed hb'.not_group hb'.1 _
  unfold Store.linesFrom
  rw [hf]
  simp only
  split
  · exact List.filterMap_eq_nil_iff.2 hnone
  · rfl

def Carries (x : Vertex Site) (a : Arrow Site) (i : Nat) : Prop :=
  match x with
  | .box s _ => i = s.node
  | .test .. => ∃ b ∈ x.answers, i = b.bridge ∧ a = ⟨[b.word], b.target⟩

theorem VertexAt.linesFrom {x : Vertex Site} (h : VertexAt τ x) {a : Arrow Site} (ha : a ∈ x.arrows)
    {i : Nat} (hi : Carries x a i) : τ.linesFrom i = (lineOf τ x.place a).toList := by
  cases x with
  | box s out =>
    obtain rfl := Option.mem_toList.1 ha
    obtain rfl : i = s.node := hi
    exact linesFrom_box h
  | test s yes no =>
    have hgroup : (τ.node s.node).isGroup = false := h.not_group
    obtain ⟨b, hb, rfl, rfl⟩ := hi
    obtain ⟨-, hanswers, -⟩ := h.answers
    obtain ⟨l, -, ⟨child, labels, hbridge, hword, hleads⟩, -⟩ := hanswers b hb
    rw [hbridge.linesFrom hgroup hleads, hword]
    rfl

theorem VertexAt.carries {x : Vertex Site} (h : VertexAt τ x) {i : Nat} (hi : Meets τ x i)
    {k : Line} (hk : k ∈ τ.linesFrom i) : ∃ a ∈ x.arrows, Carries x a i := by
  cases x with
  | box s out =>
    obtain rfl : i = s.node := by
      rcases hi with rfl | ⟨a, ha, -⟩
      · rfl
      · cases ha
    cases out with
    | none =>
      rw [linesFrom_final h] at hk
      cases hk
    | some a => exact ⟨a, by simp [Vertex.arrows], rfl⟩
  | test s yes no =>
    rcases hi with rfl | ⟨b, hb, rfl | ⟨labels, hb'⟩⟩
    · rw [Vertex.place, linesFrom_test h] at hk
      cases hk
    · exact ⟨_, mem_arrows_of_answer hb, b, hb, rfl, rfl⟩
    · obtain ⟨-, hanswers, -⟩ := h.answers
      obtain ⟨l, -, ⟨child, labels', hbridge, -⟩, -⟩ := hanswers b hb
      obtain ⟨-, answer, l', hf, hl'⟩ := hb'
      unfold Store.linesFrom at hk
      rw [hf] at hk
      simp only [Vertex.place, hl'] at hk
      rw [lineTo_unnamed hbridge.not_group hbridge.1] at hk
      cases hk

theorem Carries.unique {x : Vertex Site} {a b : Arrow Site} {i j : Nat} (hi : Carries x a i)
    (hj : Carries x b j) (hlabels : a.labels = b.labels) : i = j := by
  cases x with
  | box s out => exact hi.trans hj.symm
  | test s yes no =>
    obtain ⟨c, hc, rfl, rfl⟩ := hi
    obtain ⟨d, hd, rfl, rfl⟩ := hj
    have hword : c.word = d.word := by simpa using hlabels
    simp only [Vertex.answers, List.mem_append, List.mem_map, List.mem_singleton] at hc hd
    rcases hc with ⟨y, -, rfl⟩ | rfl <;> rcases hd with ⟨z, -, rfl⟩ | rfl
    · rfl
    · simp at hword
    · simp at hword
    · rfl

theorem lineOf_eq_some {s : Site} {a : Arrow Site} {k : Line} : lineOf τ s a = some k ↔
    ∃ w, a.target = some w ∧ k = ⟨(namedAt τ s).name, a.labels, (namedAt τ w).name⟩ := by
  unfold lineOf namedAt
  rw [Option.map_eq_some_iff]
  exact exists_congr fun w => and_congr_right fun _ => eq_comm

/-- A walk from the entry of vertices that the store holds. -/
structure Walked (σ τ : Store) (xs : List (Vertex Site)) (start : Item) (entry : Site)
    (order : List Nat) : Prop where
  holds : Holds σ τ xs
  targets : Flow.TargetsIn (· ∈ xs.map Vertex.place) xs
  entered : entry ∈ xs.map Vertex.place
  heads : HeadsTo τ start entry.node
  walk : DepthFirst τ (fun _ => true) [] [start] order

namespace Walked

variable {order : List Nat} (h : Walked σ τ xs start entry order)
include h

theorem meets {i : Nat} (hi : i ∈ order) : ∃ x ∈ xs, Reached xs entry x.place ∧ Meets τ x i :=
  h.holds.meets h.targets h.entered h.heads (h.walk.mem_iff_reachable.1 hi)

theorem visits {v : Site} (hv : Reached xs entry v) : v.node ∈ order :=
  h.walk.mem_iff_reachable.2 (h.holds.reachable h.heads hv)

theorem defined {i : Nat} (hi : i ∈ order) {n : Definition} (hn : (τ.node i).definition? = some n) :
    ∃ x ∈ xs, Reached xs entry x.place ∧ i = x.place.node ∧ n = (namedAt τ x.place).definition := by
  obtain ⟨x, hx, hreached, hmeet⟩ := h.meets hi
  obtain ⟨hplace, hn⟩ := (h.holds.wired x hx).definition_of_meets hmeet hn
  exact ⟨x, hx, hreached, hplace, hn⟩

theorem drawn {i : Nat} (hi : i ∈ order) {k : Line} (hk : k ∈ τ.linesFrom i) :
    ∃ x ∈ xs, Reached xs entry x.place ∧ ∃ a ∈ x.arrows, Carries x a i ∧
      lineOf τ x.place a = some k := by
  obtain ⟨x, hx, hreached, hmeet⟩ := h.meets hi
  obtain ⟨a, ha, hcarries⟩ := (h.holds.wired x hx).carries hmeet hk
  rw [(h.holds.wired x hx).linesFrom ha hcarries, Option.mem_toList] at hk
  exact ⟨x, hx, hreached, a, ha, hcarries, hk⟩

theorem first : (τ.drawing order).nodes.head? = some (namedAt τ entry).definition := by
  obtain ⟨x, hx, rfl⟩ := List.mem_map.1 h.entered
  cases h.walk with
  | skip _ hmem _ => cases hmem
  | stop _ _ hgo _ => cases hgo
  | visit hi _ _ _ _ =>
    obtain rfl := hi.unique h.heads
    simp [Store.drawing, (h.holds.wired x hx).definition]

theorem names : ((τ.drawing order).nodes.map Definition.name).Nodup := by
  simp only [Store.drawing, List.map_filterMap]
  rw [List.Nodup, List.pairwise_filterMap]
  refine h.walk.nodup.imp_of_mem ?_
  intro i j hi hj hne a ha b hb hab
  obtain ⟨n, hn, rfl⟩ := Option.map_eq_some_iff.1 ha
  obtain ⟨m, hm, rfl⟩ := Option.map_eq_some_iff.1 hb
  obtain ⟨x, hx, -, rfl, rfl⟩ := h.defined hi hn
  obtain ⟨y, hy, -, rfl, rfl⟩ := h.defined hj hm
  exact hne (by rw [h.holds.eq_of_name hx hy hab])

theorem mem_nodes {n : Definition} : n ∈ (τ.drawing order).nodes ↔
    ∃ v, Reached xs entry v ∧ n = (namedAt τ v).definition := by
  simp only [Store.drawing, List.mem_filterMap]
  constructor
  · rintro ⟨i, hi, hn⟩
    obtain ⟨x, -, hreached, -, rfl⟩ := h.defined hi hn
    exact ⟨x.place, hreached, rfl⟩
  · rintro ⟨v, hv, rfl⟩
    obtain ⟨x, hx, rfl⟩ := List.mem_map.1 (hv.mem h.targets h.entered)
    exact ⟨x.place.node, h.visits hv, (h.holds.wired x hx).definition⟩

theorem nodup_linesFrom {i : Nat} (hi : i ∈ order) : (τ.linesFrom i).Nodup := by
  obtain ⟨x, hx, -, hmeet⟩ := h.meets hi
  cases hlines : τ.linesFrom i with
  | nil => exact List.nodup_nil
  | cons k rest =>
    obtain ⟨a, ha, hcarries⟩ := (h.holds.wired x hx).carries hmeet (k := k) (by simp [hlines])
    rw [← hlines, (h.holds.wired x hx).linesFrom ha hcarries]
    cases lineOf τ x.place a <;> simp

theorem once : (τ.drawing order).lines.Nodup := by
  refine List.nodup_flatMap.2 ⟨fun i hi => h.nodup_linesFrom hi, h.walk.nodup.imp_of_mem ?_⟩
  intro i j hi hj hne k hki hkj
  obtain ⟨x, hx, -, a, ha, hcarries, hk⟩ := h.drawn hi hki
  obtain ⟨y, hy, -, b, hb, hcarries', hk'⟩ := h.drawn hj hkj
  obtain ⟨w, -, rfl⟩ := lineOf_eq_some.1 hk
  obtain ⟨w', -, heq⟩ := lineOf_eq_some.1 hk'
  simp only [Line.mk.injEq] at heq
  obtain rfl := h.holds.eq_of_name hx hy heq.1
  exact hne (hcarries.unique hcarries' heq.2.1)

theorem mem_lines {k : Line} : k ∈ (τ.drawing order).lines ↔ ∃ x ∈ xs, Reached xs entry x.place ∧
    ∃ a ∈ x.arrows, ∃ w, a.target = some w ∧
      k = ⟨(namedAt τ x.place).name, a.labels, (namedAt τ w).name⟩ := by
  simp only [Store.drawing, List.mem_flatMap]
  constructor
  · rintro ⟨i, hi, hk⟩
    obtain ⟨x, hx, hreached, a, ha, -, hk⟩ := h.drawn hi hk
    exact ⟨x, hx, hreached, a, ha, lineOf_eq_some.1 hk⟩
  · rintro ⟨x, hx, hreached, a, ha, hk⟩
    obtain ⟨i, hcarries, hi⟩ : ∃ i, Carries x a i ∧ i ∈ order := by
      have hnode := h.holds.reachable h.heads hreached
      cases x with
      | box s out => exact ⟨s.node, rfl, h.visits hreached⟩
      | test s yes no =>
        obtain ⟨b, hb, rfl⟩ := answer_of_mem_arrows ha
        exact ⟨b.bridge, ⟨b, hb, rfl, rfl⟩, h.walk.mem_iff_reachable.2
          ((h.holds.wired _ hx).answer_reachable hnode hb)⟩
    refine ⟨i, hi, ?_⟩
    rw [(h.holds.wired x hx).linesFrom ha hcarries, Option.mem_toList]
    exact lineOf_eq_some.2 hk

theorem depicts : Depicts xs entry (namedAt τ) (τ.drawing order) :=
  ⟨h.first, h.names, fun _ => h.mem_nodes, h.once, fun _ => h.mem_lines⟩

end Walked

end CodeChart.Chart
