import CodeChart.Proofs.Flow
import CodeChart.Proofs.Growth
import CodeChart.Proofs.Labels

/-! Flows in a store. The place of a flow is a site: the node of a box, or the nodes of a test and
of the bridges that carry its answers. `Holds` says that a store contains a list of vertices
exactly: every node is there with its arrows and without any other link, nodes and numbers are not
used twice, and an arrow without a target leads to nothing. -/
namespace CodeChart.Chart

open CodeChart.Graph

/-- Where a place of a flow stands. The bridges of a test lead on after `yes` and `no`; `rest` are
bridges on the way there. -/
structure Site where
  node : Nat
  /-- The number in the name of the node. -/
  number : Nat
  yes : Nat := 0
  no : Nat := 0
  rest : List Nat := []

namespace Vertex

/-- All nodes of a vertex. -/
def nodes : Vertex Site → List Nat
  | .box s _ => [s.node]
  | .test s yes _ => s.node :: s.no :: (s.rest ++ (yes.toList.map fun _ => s.yes))

/-- The nodes of a vertex that wait for a connection. -/
def ends : Vertex Site → List Nat
  | .box s (some ⟨_, none⟩) => [s.node]
  | .box _ _ => []
  | .test s (some none) none => [s.yes, s.no]
  | .test s (some none) (some _) => [s.yes]
  | .test s _ none => [s.no]
  | .test _ _ (some _) => []

end Vertex

/-- A walk that enters at the item comes to the site, which has a name. -/
def Arrives (τ : Store) (item : Item) (s : Site) : Prop :=
  HeadsTo τ item s.node ∧ (τ.node s.node).name ≠ ""

/-- The item leads to the entry of the target, or is empty if there is none. -/
def Leads (τ : Store) (target : Option Site) (item : Item) : Prop :=
  match target with
  | none => item = .nothing
  | some s => Arrives τ item s

def BridgeAt (τ : Store) (b parent : Nat) (item : Item) (labels : List Label) : Prop :=
  (τ.node b).name = "" ∧ ∃ answer l,
    (τ.node b).form = .bridge answer (.node parent) item labels (.link l) ∧
    τ.link l = ⟨item, labels⟩

/-- An answer of a test: link `l` leads to bridge `b`, directly or over another bridge. -/
def AnswerAt (τ : Store) (s : Site) (b l : Nat) (word : String) (target : Option Site) : Prop :=
  (∃ item labels, BridgeAt τ b s.node item labels ∧ shownLabels labels = [word] ∧
    Leads τ target item) ∧
  ((τ.link l).target = .node b ∨ ∃ b' ∈ s.rest, ∃ labels,
    (τ.link l).target = .node b' ∧ BridgeAt τ b' s.node (.node b) labels)

/-- The store contains the vertex, with no more arrows than it has. -/
def VertexAt (τ : Store) : Vertex Site → Prop
  | .box s none => ∃ shape, (τ.node s.node).form = .box shape ∧
      ((τ.node s.node).links = [] ∨
        ∃ l, (τ.node s.node).links = [.link l] ∧ (τ.link l).target = .nothing)
  | .box s (some a) => ∃ shape item, (τ.node s.node).form = .box shape ∧ shape ≠ .jump ∧
      a.labels = shownLabels [some "", (τ.node s.node).direction] ∧ Leads τ a.target item ∧
      (item = .nothing ∧ (τ.node s.node).links = [] ∨
        item ≠ .nothing ∧ ∃ l, (τ.node s.node).links = [.link l] ∧ τ.link l = ⟨item, [some ""]⟩)
  | .test s none no => ∃ role yesItem n, (τ.node s.node).form = .decision role yesItem (.link n) ∧
      (τ.node s.node).links = [.link n] ∧ AnswerAt τ s s.no n "no" no
  | .test s (some yes) no => ∃ role y n,
      (τ.node s.node).form = .decision role (.link y) (.link n) ∧
      (τ.node s.node).links = [.link y, .link n] ∧ AnswerAt τ s s.yes y "yes" yes ∧
      AnswerAt τ s s.no n "no" no

def Numbered (τ : Store) (s : Site) : Prop :=
  ∃ letters ∈ ["st", "e", "op", "io", "sub", "cond"],
    (τ.node s.node).name = letters ++ toString s.number

/-- The store `τ` contains the vertices, all made since the store `σ`. -/
structure Holds (σ τ : Store) (xs : List (Vertex Site)) : Prop where
  wired : ∀ x ∈ xs, VertexAt τ x
  named : ∀ x ∈ xs, Numbered τ x.place
  nodes : (xs.flatMap Vertex.nodes).Nodup
  inside : ∀ x ∈ xs, ∀ i ∈ x.nodes, σ.nodes.size ≤ i ∧ i < τ.nodes.size
  numbers : (xs.map fun x => x.place.number).Nodup
  counted : ∀ x ∈ xs, σ.nextId ≤ x.place.number ∧ x.place.number < τ.nextId

/-- The store has grown and only the nodes of `E` have changed. No name has changed, and chains of
heads that come to a named node do so still. -/
structure Grows (E : List Nat) (τ τ' : Store) : Prop where
  sound : τ'.Sound
  size : τ.nodes.size ≤ τ'.nodes.size
  linkCount : τ.links.size ≤ τ'.links.size
  nextId : τ.nextId ≤ τ'.nextId
  node : ∀ i, i < τ.nodes.size → i ∉ E → τ'.node i = τ.node i
  link : ∀ l, l < τ.links.size → τ'.link l = τ.link l
  name : ∀ i, i < τ.nodes.size → (τ'.node i).name = (τ.node i).name
  heads : ∀ {item j}, item.Within τ → HeadsTo τ item j → (τ.node j).name ≠ "" → HeadsTo τ' item j
  passes : τ'.passes = τ.passes
  printed : τ'.printed = τ.printed
  warnings : τ'.warnings = τ.warnings

variable {σ τ τ' : Store} {E : List Nat} {xs ys : List (Vertex Site)}

theorem Grows.refl (h : τ.Sound) : Grows [] τ τ where
  sound := h
  size := Nat.le_refl _
  linkCount := Nat.le_refl _
  nextId := Nat.le_refl _
  node _ _ _ := rfl
  link _ _ := rfl
  name _ _ := rfl
  heads _ hh _ := hh
  passes := rfl
  printed := rfl
  warnings := rfl

theorem Grows.silent (h : Grows E τ τ') : Silent τ τ' := ⟨h.printed, h.warnings⟩

theorem Grows.within (h : Grows E τ τ') {item : Item} (hi : item.Within τ) : item.Within τ' :=
  fun i he => Nat.lt_of_lt_of_le (hi i he) h.size

theorem lt_size_of_named {i : Nat} (h : (τ.node i).name ≠ "") : i < τ.nodes.size := by
  by_contra hi
  exact h (by rw [τ.node_eq_default i (by omega)]; rfl)

theorem Grows.arrives (h : Grows E τ τ') {item : Item} {s : Site} (hi : item.Within τ)
    (ha : Arrives τ item s) : Arrives τ' item s :=
  ⟨h.heads hi ha.1 ha.2, by rw [h.name s.node (lt_size_of_named ha.2)]; exact ha.2⟩

theorem Grows.trans {E' : List Nat} {τ'' : Store} (h : Grows E τ τ') (h' : Grows E' τ' τ'') :
    Grows (E ++ E') τ τ'' where
  sound := h'.sound
  size := Nat.le_trans h.size h'.size
  linkCount := Nat.le_trans h.linkCount h'.linkCount
  nextId := Nat.le_trans h.nextId h'.nextId
  node i hi hne := by
    simp only [List.mem_append, not_or] at hne
    rw [h'.node i (Nat.lt_of_lt_of_le hi h.size) hne.2, h.node i hi hne.1]
  link l hl := by rw [h'.link l (Nat.lt_of_lt_of_le hl h.linkCount), h.link l hl]
  name i hi := by rw [h'.name i (Nat.lt_of_lt_of_le hi h.size), h.name i hi]
  heads hi hh hn := h'.heads (h.within hi) (h.heads hi hh hn)
    (by rwa [h.name _ (lt_size_of_named hn)])
  passes := h'.passes.trans h.passes
  printed := h'.printed.trans h.printed
  warnings := h'.warnings.trans h.warnings

theorem Grows.restrict {E' : List Nat} (h : Grows E τ τ')
    (hE : ∀ i ∈ E, i ∈ E' ∨ τ.nodes.size ≤ i) : Grows E' τ τ' :=
  { h with
    node := fun i hi hne => h.node i hi fun hmem => by
      rcases hE i hmem with hmem | hle
      · exact hne hmem
      · omega }

theorem Grows.drop (h : Grows E τ τ') (hE : ∀ i ∈ E, τ.nodes.size ≤ i) : Grows [] τ τ' :=
  h.restrict fun i hi => .inr (hE i hi)

theorem Leads.grow (hg : Grows E τ τ') {target : Option Site} {item : Item}
    (h : Leads τ target item) (hw : item.Within τ) : Leads τ' target item := by
  cases target with
  | none => exact h
  | some s => exact hg.arrives hw h

theorem BridgeAt.grow (hs : τ.Sound) (hg : Grows E τ τ') {b v : Nat} {item : Item}
    {labels : List Label} (h : BridgeAt τ b v item labels) (hb : b ∉ E)
    (hlt : b < τ.nodes.size) : BridgeAt τ' b v item labels := by
  obtain ⟨hname, answer, l, hf, hl⟩ := h
  have hllt := hs.bridge_link_lt hf
  unfold BridgeAt
  rw [hg.node b hlt hb]
  exact ⟨hname, answer, l, hf, (hg.link l hllt).trans hl⟩

theorem BridgeAt.within (hs : τ.Sound) {b v : Nat} {item : Item} {labels : List Label}
    (h : BridgeAt τ b v item labels) : item.Within τ := by
  obtain ⟨-, answer, l, -, hl⟩ := h
  intro j hj
  exact hs.targets l j (by rw [hl, hj])

theorem AnswerAt.grow (hs : τ.Sound) (hg : Grows E τ τ') {s : Site} {b l : Nat} {word : String}
    {target : Option Site} (h : AnswerAt τ s b l word target)
    (hok : ∀ i, i = b ∨ i ∈ s.rest → i ∉ E ∧ i < τ.nodes.size) (hl : l < τ.links.size) :
    AnswerAt τ' s b l word target := by
  obtain ⟨⟨item, labels, hb, hword, hleads⟩, hvia⟩ := h
  have hbok := hok b (.inl rfl)
  refine ⟨⟨item, labels, hb.grow hs hg hbok.1 hbok.2, hword, hleads.grow hg (hb.within hs)⟩, ?_⟩
  rw [hg.link l hl]
  rcases hvia with hdirect | ⟨b', hmem, labels', ht, hb'⟩
  · exact .inl hdirect
  · have hok' := hok b' (.inr hmem)
    exact .inr ⟨b', hmem, labels', ht, hb'.grow hs hg hok'.1 hok'.2⟩

theorem VertexAt.grow (hs : τ.Sound) (hg : Grows E τ τ') {x : Vertex Site} (h : VertexAt τ x)
    (hok : ∀ i ∈ x.nodes, i ∉ E ∧ i < τ.nodes.size) : VertexAt τ' x := by
  have hown : ∀ {i l : Nat}, Item.link l ∈ (τ.node i).ownLinks → l < τ.links.size := by
    intro i l hmem
    obtain ⟨l', he, hlt⟩ := (hs.fits i).links _ hmem
    cases he
    exact hlt
  cases x with
  | box s out =>
    have hnode := hok s.node (by simp [Vertex.nodes])
    have hsame := hg.node s.node hnode.2 hnode.1
    cases out with
    | none =>
      obtain ⟨shape, hf, hlinks⟩ := h
      refine ⟨shape, by rw [hsame, hf], ?_⟩
      rw [hsame]
      rcases hlinks with hlinks | ⟨l, hlinks, ht⟩
      · exact .inl hlinks
      · have hl : l < τ.links.size := hown (i := s.node) (by simp [Node.ownLinks, hf, hlinks])
        exact .inr ⟨l, hlinks, by rw [hg.link l hl, ht]⟩
    | some a =>
      obtain ⟨shape, item, hf, hshape, hlabels, hleads, hlinks⟩ := h
      rcases hlinks with ⟨rfl, hlinks⟩ | ⟨hne, l, hlinks, hlink⟩
      · refine ⟨shape, .nothing, by rw [hsame, hf], hshape, by rw [hsame, hlabels],
          hleads.grow hg (fun _ hj => by cases hj), .inl ⟨rfl, by rw [hsame, hlinks]⟩⟩
      · have hl : l < τ.links.size := hown (i := s.node) (by simp [Node.ownLinks, hf, hlinks])
        have hw : item.Within τ := fun j hj => hs.targets l j (by rw [hlink, hj])
        exact ⟨shape, item, by rw [hsame, hf], hshape, by rw [hsame, hlabels], hleads.grow hg hw,
          .inr ⟨hne, l, by rw [hsame, hlinks], by rw [hg.link l hl, hlink]⟩⟩
  | test s yes no =>
    have hnode := hok s.node (by simp [Vertex.nodes])
    have hsame := hg.node s.node hnode.2 hnode.1
    have hno : ∀ i, i = s.no ∨ i ∈ s.rest → i ∉ E ∧ i < τ.nodes.size := by
      intro i hi
      apply hok
      rcases hi with rfl | hi <;> simp [Vertex.nodes, *]
    cases yes with
    | none =>
      obtain ⟨role, yesItem, n, hf, hlinks, hanswer⟩ := h
      have hn : n < τ.links.size := hown (i := s.node) (by simp [Node.ownLinks, hf, hlinks])
      exact ⟨role, yesItem, n, by rw [hsame, hf], by rw [hsame, hlinks],
        hanswer.grow hs hg hno hn⟩
    | some y =>
      obtain ⟨role, l, n, hf, hlinks, hyes, hanswer⟩ := h
      have hl : l < τ.links.size := hown (i := s.node) (by simp [Node.ownLinks, hf, hlinks])
      have hn : n < τ.links.size := hown (i := s.node) (by simp [Node.ownLinks, hf, hlinks])
      have hok' : ∀ i, i = s.yes ∨ i ∈ s.rest → i ∉ E ∧ i < τ.nodes.size := by
        intro i hi
        apply hok
        rcases hi with rfl | hi <;> simp [Vertex.nodes, *]
      exact ⟨role, l, n, by rw [hsame, hf], by rw [hsame, hlinks], hyes.grow hs hg hok' hl,
        hanswer.grow hs hg hno hn⟩

theorem place_mem_nodes (x : Vertex Site) : x.place.node ∈ x.nodes := by
  cases x <;> simp [Vertex.nodes, Vertex.place]

theorem Holds.nil (σ τ : Store) : Holds σ τ [] := by
  constructor <;> simp

theorem Holds.rewire (h : Holds σ τ xs) (hsize : τ.nodes.size ≤ τ'.nodes.size)
    (hid : τ.nextId ≤ τ'.nextId)
    (hname : ∀ i, i < τ.nodes.size → (τ'.node i).name = (τ.node i).name)
    (hsame : ys.map (fun y => (y.place, y.nodes)) = xs.map fun x => (x.place, x.nodes))
    (hy : ∀ y ∈ ys, VertexAt τ' y) : Holds σ τ' ys := by
  have hold : ∀ y ∈ ys, ∃ x ∈ xs, x.place = y.place ∧ x.nodes = y.nodes := by
    intro y hmem
    have hpair := List.mem_map_of_mem (f := fun y => (y.place, y.nodes)) hmem
    rw [hsame] at hpair
    obtain ⟨x, hx, he⟩ := List.mem_map.1 hpair
    exact ⟨x, hx, (Prod.mk.inj he).1, (Prod.mk.inj he).2⟩
  have hnodes : ys.map Vertex.nodes = xs.map Vertex.nodes := by
    simpa [Function.comp_def] using congrArg (List.map Prod.snd) hsame
  have hplaces : ys.map Vertex.place = xs.map Vertex.place := by
    simpa [Function.comp_def] using congrArg (List.map Prod.fst) hsame
  refine ⟨hy, ?_, ?_, ?_, ?_, ?_⟩
  · intro y hmem
    obtain ⟨x, hx, hplace, -⟩ := hold y hmem
    unfold Numbered
    rw [← hplace, hname _ (h.inside x hx _ (place_mem_nodes x)).2]
    exact h.named x hx
  · have hnodup := h.nodes
    rwa [List.flatMap_def, ← hnodes, ← List.flatMap_def] at hnodup
  · intro y hmem i hi
    obtain ⟨x, hx, -, he⟩ := hold y hmem
    rw [← he] at hi
    exact ⟨(h.inside x hx i hi).1, Nat.lt_of_lt_of_le (h.inside x hx i hi).2 hsize⟩
  · have hnumbers : ys.map (fun y => y.place.number) = xs.map fun x => x.place.number := by
      simpa [Function.comp_def] using congrArg (List.map Site.number) hplaces
    rw [hnumbers]
    exact h.numbers
  · intro y hmem
    obtain ⟨x, hx, hplace, -⟩ := hold y hmem
    rw [← hplace]
    exact ⟨(h.counted x hx).1, Nat.lt_of_lt_of_le (h.counted x hx).2 hid⟩

theorem Holds.grow (hs : τ.Sound) (hg : Grows E τ τ') (h : Holds σ τ xs)
    (hE : ∀ x ∈ xs, ∀ i ∈ x.nodes, i ∉ E) : Holds σ τ' xs :=
  h.rewire hg.size hg.nextId hg.name rfl fun x hx =>
    (h.wired x hx).grow hs hg fun i hi => ⟨hE x hx i hi, (h.inside x hx i hi).2⟩

theorem Holds.base (h : Holds τ τ' xs) (hn : σ.nodes.size ≤ τ.nodes.size)
    (hi : σ.nextId ≤ τ.nextId) : Holds σ τ' xs :=
  { h with
    inside := fun x hx i hmem =>
      ⟨Nat.le_trans hn (h.inside x hx i hmem).1, (h.inside x hx i hmem).2⟩
    counted := fun x hx => ⟨Nat.le_trans hi (h.counted x hx).1, (h.counted x hx).2⟩ }

theorem Holds.append {F : List Nat} (hσ : Grows F σ τ) (hg : Grows E τ τ')
    (hE : ∀ i ∈ E, i < σ.nodes.size) (hx : Holds σ τ xs) (hy : Holds τ τ' ys) :
    Holds σ τ' (xs ++ ys) := by
  have hx' : Holds σ τ' xs := hx.grow hσ.sound hg fun x hmem i hi hiE => by
    have := hE i hiE
    have := (hx.inside x hmem i hi).1
    omega
  refine ⟨?_, ?_, ?_, ?_, ?_, ?_⟩
  · intro x hmem
    rcases List.mem_append.1 hmem with hmem | hmem
    · exact hx'.wired x hmem
    · exact hy.wired x hmem
  · intro x hmem
    rcases List.mem_append.1 hmem with hmem | hmem
    · exact hx'.named x hmem
    · exact hy.named x hmem
  · rw [List.flatMap_append]
    refine List.nodup_append.2 ⟨hx.nodes, hy.nodes, ?_⟩
    rintro a ha b hb rfl
    obtain ⟨x, hxs, hax⟩ := List.mem_flatMap.1 ha
    obtain ⟨y, hys, hay⟩ := List.mem_flatMap.1 hb
    have := (hx.inside x hxs a hax).2
    have := (hy.inside y hys a hay).1
    omega
  · intro x hmem i hi
    rcases List.mem_append.1 hmem with hmem | hmem
    · exact hx'.inside x hmem i hi
    · exact ⟨Nat.le_trans hσ.size (hy.inside x hmem i hi).1, (hy.inside x hmem i hi).2⟩
  · rw [List.map_append]
    refine List.nodup_append.2 ⟨hx.numbers, hy.numbers, ?_⟩
    rintro a ha b hb rfl
    obtain ⟨x, hxs, rfl⟩ := List.mem_map.1 ha
    obtain ⟨y, hys, hay⟩ := List.mem_map.1 hb
    have := (hx.counted x hxs).2
    have := (hy.counted y hys).1
    omega
  · intro x hmem
    rcases List.mem_append.1 hmem with hmem | hmem
    · exact hx'.counted x hmem
    · exact ⟨Nat.le_trans hσ.nextId (hy.counted x hmem).1, (hy.counted x hmem).2⟩

theorem Holds.perm (h : Holds σ τ xs) (hp : xs.Perm ys) : Holds σ τ ys where
  wired x hx := h.wired x (hp.mem_iff.2 hx)
  named x hx := h.named x (hp.mem_iff.2 hx)
  nodes := (hp.flatMap_right Vertex.nodes).nodup_iff.1 h.nodes
  inside x hx := h.inside x (hp.mem_iff.2 hx)
  numbers := (hp.map _).nodup_iff.1 h.numbers
  counted x hx := h.counted x (hp.mem_iff.2 hx)

theorem Holds.cons {x : Vertex Site} (h : Holds σ τ xs) (hx : VertexAt τ x)
    (hname : Numbered τ x.place) (hnodes : x.nodes.Nodup)
    (hinside : ∀ i ∈ x.nodes, σ.nodes.size ≤ i ∧ i < τ.nodes.size)
    (hapart : ∀ y ∈ xs, ∀ i ∈ y.nodes, i ∉ x.nodes)
    (hcounted : σ.nextId ≤ x.place.number ∧ x.place.number < τ.nextId)
    (hnumber : ∀ y ∈ xs, y.place.number ≠ x.place.number) : Holds σ τ (x :: xs) where
  wired := List.forall_mem_cons.2 ⟨hx, h.wired⟩
  named := List.forall_mem_cons.2 ⟨hname, h.named⟩
  nodes := by
    rw [List.flatMap_cons]
    refine List.nodup_append.2 ⟨hnodes, h.nodes, ?_⟩
    rintro a ha b hb rfl
    obtain ⟨y, hy, hay⟩ := List.mem_flatMap.1 hb
    exact hapart y hy a hay ha
  inside := List.forall_mem_cons.2 ⟨hinside, h.inside⟩
  numbers := by
    rw [List.map_cons]
    refine List.nodup_cons.2 ⟨?_, h.numbers⟩
    intro hmem
    obtain ⟨y, hy, he⟩ := List.mem_map.1 hmem
    exact hnumber y hy he
  counted := List.forall_mem_cons.2 ⟨hcounted, h.counted⟩

theorem heads_of_forms (hs : τ.Sound) (τ' : Store)
    (h : ∀ i, i < τ.nodes.size → (τ'.node i).form.head? = (τ.node i).form.head?)
    {item : Item} {j : Nat} (hw : item.Within τ) (hh : HeadsTo τ item j) : HeadsTo τ' item j := by
  obtain ⟨n, hn⟩ := hh
  induction hn with
  | @here i hi =>
    exact .of_not_group (head?_eq_none_iff.1 ((h i (hw i rfl)).trans (head?_eq_none_iff.2 hi)))
  | @head n i j role head tails d c hf hn ih =>
    have hhead : (τ'.node i).form.head? = some head := (h i (hw i rfl)).trans (by rw [hf]; rfl)
    obtain ⟨role', tails', d', c', hf'⟩ := head?_eq_some_iff.1 hhead
    exact .of_group hf' (ih fun k hk => (hs.fits i).head _ _ _ _ _ (hk ▸ hf))

theorem Grows.of_later {ρ : Store} (hs : σ.Sound) (h : Grows [] σ τ) (h' : ρ.Sound)
    (hsize : τ.nodes.size ≤ ρ.nodes.size) (hlinks : τ.links.size ≤ ρ.links.size)
    (hid : τ.nextId ≤ ρ.nextId) (hnode : ∀ i, i < σ.nodes.size → ρ.node i = τ.node i)
    (hlink : ∀ l, l < σ.links.size → ρ.link l = τ.link l) (hpasses : ρ.passes = τ.passes)
    (hprinted : ρ.printed = τ.printed) (hwarnings : ρ.warnings = τ.warnings) : Grows [] σ ρ := by
  have hsame : ∀ i, i < σ.nodes.size → ρ.node i = σ.node i := fun i hi =>
    (hnode i hi).trans (h.node i hi (by simp))
  exact {
    sound := h'
    size := Nat.le_trans h.size hsize
    linkCount := Nat.le_trans h.linkCount hlinks
    nextId := Nat.le_trans h.nextId hid
    node := fun i hi _ => hsame i hi
    link := fun l hl => (hlink l hl).trans (h.link l hl)
    name := fun i hi => by rw [hsame i hi]
    heads := fun hw hh _ => heads_of_forms hs ρ (fun i hi => by rw [hsame i hi]) hw hh
    passes := hpasses.trans h.passes
    printed := hprinted.trans h.printed
    warnings := hwarnings.trans h.warnings }

theorem grows_countId (hs : τ.Sound) : Grows [] τ τ.countId :=
  { Grows.refl hs with
    sound := hs.countId
    nextId := Nat.le_succ _
    heads := fun hw hh _ => heads_of_forms hs τ.countId (fun _ _ => rfl) hw hh }

theorem grows_pushNode (hs : τ.Sound) {n : Node} (h : (τ.pushNode n).Sound) :
    Grows [] τ (τ.pushNode n) where
  sound := h
  size := by simp
  linkCount := Nat.le_refl _
  nextId := Nat.le_refl _
  node i hi _ := τ.node_pushNode_of_ne i n (Nat.ne_of_lt hi)
  link _ _ := rfl
  name i hi := by rw [τ.node_pushNode_of_ne i n (Nat.ne_of_lt hi)]
  heads hw hh _ := heads_of_forms hs _
    (fun i hi => by rw [τ.node_pushNode_of_ne i n (Nat.ne_of_lt hi)]) hw hh
  passes := rfl
  printed := rfl
  warnings := rfl

theorem grows_mapNode (hs : τ.Sound) {i : Nat} {f : Node → Node} (h : (τ.mapNode i f).Sound)
    (hname : (f (τ.node i)).name = (τ.node i).name)
    (hf : (f (τ.node i)).form.head? = (τ.node i).form.head?) :
    Grows [i] τ (τ.mapNode i f) where
  sound := h
  size := Nat.le_of_eq (τ.size_mapNode i f).symm
  linkCount := Nat.le_refl _
  nextId := Nat.le_refl _
  node j _ hne := τ.node_mapNode_of_ne i j f (by simpa using hne)
  link _ _ := rfl
  name j _ := τ.node_mapNode_keeps i j f (P := fun n => n.name = (τ.node j).name) rfl
    (by rintro rfl; exact hname)
  heads hw hh _ := heads_of_forms hs _ (fun j _ =>
    τ.node_mapNode_keeps i j f (P := fun n => n.form.head? = (τ.node j).form.head?) rfl
      (by rintro rfl; exact hf)) hw hh
  passes := rfl
  printed := rfl
  warnings := rfl

theorem grows_pushLink (hs : τ.Sound) {k : Link} (h : (τ.pushLink k).Sound) :
    Grows [] τ (τ.pushLink k) where
  sound := h
  size := Nat.le_refl _
  linkCount := by simp
  nextId := Nat.le_refl _
  node _ _ _ := rfl
  link l hl := τ.link_pushLink_of_ne l k (Nat.ne_of_lt hl)
  name _ _ := rfl
  heads hw hh _ := heads_of_forms hs (τ.pushLink k) (fun _ _ => rfl) hw hh
  passes := rfl
  printed := rfl
  warnings := rfl

theorem name_regroup (n : Node) (f : GroupRole → Item → List Item → GroupRole × Item × List Item) :
    (n.regroup f).name = n.name := by
  unfold Node.regroup
  cases n.form <;> rfl

theorem grows_regroup (hs : τ.Sound) {g : Nat}
    {f : GroupRole → Item → List Item → GroupRole × Item × List Item}
    (hf : ∀ role head tails, (f role head tails).2.1 = head) :
    Grows [g] τ (τ.mapNode g (·.regroup f)) := by
  refine grows_mapNode hs (hs.regroup g ?_) (name_regroup _ f) ?_
  · intro role head tails d c hform
    rw [hf]
    rintro j rfl
    exact (hs.fits g).head _ _ _ _ _ hform
  · cases hform : (τ.node g).form with
    | group role head tails d c =>
      rw [regroup_of_group _ hform]
      exact congrArg some (hf role head tails)
    | box shape => rw [regroup_of_not_group _ (by simp [Node.isGroup, hform, Form.isGroup]), hform]
    | decision role yes no =>
      rw [regroup_of_not_group _ (by simp [Node.isGroup, hform, Form.isGroup]), hform]
    | bridge answer parent child labels link =>
      rw [regroup_of_not_group _ (by simp [Node.isGroup, hform, Form.isGroup]), hform]

theorem headsTo_mapNode {g j : Nat} {f : Node → Node} {item : Item} (h : HeadsTo τ item j)
    (hfree : ¬HeadsTo τ (.node g) j) : HeadsTo (τ.mapNode g f) item j := by
  obtain ⟨n, hn⟩ := h
  induction hn with
  | @here i hi =>
    have hne : i ≠ g := fun he => hfree (he ▸ .of_not_group hi)
    refine .of_not_group ?_
    rwa [τ.node_mapNode_of_ne g i f hne]
  | @head n i j role head tails d c hf hn ih =>
    have hne : i ≠ g := fun he => hfree (he ▸ .of_group hf ⟨n, hn⟩)
    rw [← τ.node_mapNode_of_ne g i f hne] at hf
    exact .of_group hf (ih hfree)

theorem grows_setHead (hs : τ.Sound) {g : Nat} {item : Item} (hi : item.Within τ)
    (hfree : ∀ j, HeadsTo τ (.node g) j → (τ.node j).name = "") :
    Grows [g] τ (τ.mapNode g (·.regroup fun role _ tails => (role, item, tails))) where
  sound := hs.regroup g fun _ _ _ _ _ _ => hi
  size := Nat.le_of_eq (τ.size_mapNode g _).symm
  linkCount := Nat.le_refl _
  nextId := Nat.le_refl _
  node j _ hne := τ.node_mapNode_of_ne g j _ (by simpa using hne)
  link _ _ := rfl
  name j _ := τ.node_mapNode_keeps g j _ (P := fun n => n.name = (τ.node j).name) rfl
    fun _ => name_regroup _ _
  heads _ hh hn := headsTo_mapNode hh fun hg => hn (hfree _ hg)
  passes := rfl
  printed := rfl
  warnings := rfl

section

variable (hs : τ.Sound)
include hs

theorem grows_withBox (shape : Shape) (text : String) (code : Option Code.Piece) :
    Grows [] τ (τ.withBox shape text code) :=
  (grows_countId hs).trans (grows_pushNode hs.countId (hs.withBox shape text code))

theorem grows_withDecision (role : DecisionRole) (text : String) (code : Option Code.Piece) :
    Grows [] τ (τ.withDecision role text code) :=
  (grows_countId hs).trans (grows_pushNode hs.countId (hs.withDecision role text code))

theorem grows_withGroup (role : GroupRole) {head : Item} (hh : head.Within τ) (tails : List Item)
    (code : Option Code.Piece) : Grows [] τ (τ.withGroup role head tails code) :=
  (grows_countId hs).trans (grows_pushNode hs.countId (hs.withGroup role hh tails code))

theorem grows_withBridge (answer : Bool) (parent : Nat) {child : Item} (hc : child.Within τ)
    (labels : List Label) : Grows [] τ (τ.withBridge answer (.node parent) child labels) := by
  have hlink : (τ.countId.pushLink ⟨child, labels⟩).Sound := hs.countId.pushLink hc
  exact ((grows_countId hs).trans (grows_pushLink hs.countId hlink)).trans
    (grows_pushNode hlink (hs.withBridge answer parent hc labels))

theorem grows_withLink (i : Nat) {target : Item} (ht : target.Within τ) (labels : List Label) :
    Grows [i] τ (τ.withLink i target labels) := by
  have hlink : (τ.pushLink ⟨target, labels⟩).Sound := hs.pushLink ht
  exact (grows_pushLink hs hlink).trans (grows_mapNode hlink (hs.withLink i ht labels) rfl rfl)

theorem grows_moveBridge (i : Nat) {target : Item} (ht : target.Within τ) (labels : List Label) :
    Grows [i] τ (τ.moveBridge i target labels) := by
  have hmoved := hs.moveBridge i ht labels
  unfold Store.moveBridge at hmoved ⊢
  cases hf : (τ.node i).form with
  | bridge answer parent child old link =>
    rw [hf] at hmoved
    have hlink : (τ.pushLink ⟨target, bridgeLabels answer old labels⟩).Sound := hs.pushLink ht
    refine (grows_pushLink hs hlink).trans (grows_mapNode hlink hmoved rfl ?_)
    rw [Store.node_pushLink, hf]
    rfl
  | box shape => exact (Grows.refl hs).restrict (by simp)
  | decision role yes no => exact (Grows.refl hs).restrict (by simp)
  | group role head tails d c => exact (Grows.refl hs).restrict (by simp)

theorem grows_withAnswer (i : Nat) (answer : Answer) {target : Item} (ht : target.Within τ)
    (direction : Label) : Grows [i] τ (τ.withAnswer i answer target direction) := by
  have hlink := hs.withAnswerLink i answer ht direction
  have hbridge := grows_withBridge hs true i ht [some answer.word]
  refine (hbridge.trans (grows_pushLink hbridge.sound hlink)).trans
    (grows_mapNode hlink (hs.withAnswer i answer ht direction) ?_ ?_)
  all_goals
    unfold Node.addAnswer Node.setAnswer
    cases hf : ((τ.withAnswerLink i answer target direction).node i).form <;> cases answer <;>
      simp [Form.head?, Node.restore, hf]

end

end CodeChart.Chart
