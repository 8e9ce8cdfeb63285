import CodeChart.Proofs.Leaves
import CodeChart.Proofs.Outline

/-! Rows of statements in a store. A row says how far a list of statements has been built: its flows
stand in the store, a walk enters them at the first node, and a connection from the last node closes
exactly the exits of the list, which are among its leaves. -/
namespace CodeChart.Graph

def Form.shape? : Form → Option Shape
  | .box shape => some shape
  | _ => none

end CodeChart.Graph

namespace CodeChart.Chart

open CodeChart.Graph

def boxAt (τ : Store) (s : Site) : Box :=
  ⟨(τ.node s.node).form.shape?, (τ.node s.node).text, (τ.node s.node).params⟩

/-- A node made since `σ` at which a flow is entered. -/
structure Enters (σ τ : Store) (g : Nat) (t : Flow Site) : Prop where
  heads : Arrives τ (.node g) t.entry
  plain : g = t.entry.node ↔ t.isPlain = true
  inside : σ.nodes.size ≤ g ∧ g < τ.nodes.size
  jump : ∀ v, t = .jump v → (τ.node g).form = .box .jump ∧ (τ.node g).links = []

/-- A connection from node `g` closes exactly the exits of the vertices. -/
def Exits (σ τ : Store) (g : Nat) (xs : List (Vertex Site)) : Prop :=
  ∃ E, EndsIn τ σ.nodes.size (τ.nodes.size - σ.nodes.size) g E ∧ E.Nodup ∧
    ∀ e, e ∈ E ↔ e ∈ xs.flatMap Vertex.ends

/-- A group keeps the test of a branch at hand, which stands between `lo` and `hi`. -/
def TestAt (lo hi : Nat) (τ : Store) (g j : Nat) : Prop :=
  lo ≤ j ∧ j < hi ∧ (τ.node j).form.isDecision = true ∧
    ∃ head tails d c, (τ.node g).form = .group (.branch (.node j)) head tails d c

/-- The group of a branch, and no other node, keeps a test at hand. A branch that is drawn as one
box has a test that is not drawn. -/
def Tagged (lo hi : Nat) (τ : Store) (g : Nat) (t : Flow Site) : Prop :=
  match t with
  | .branch s _ _ => TestAt lo hi τ g s.node ∧ (τ.node s.node).params = []
  | .merged true s => ∃ j, TestAt lo hi τ g j ∧ s.node ≠ j
  | _ => ∀ item head tails d c, (τ.node g).form ≠ .group (.branch item) head tails d c

/-- A list of statements, the last of which is `t`, built since `σ`. -/
structure Row (σ τ : Store) (first last : Nat) (front : List (Flow Site)) (t : Flow Site) :
    Prop where
  holds : Holds σ τ (Flow.verticesAll [] (front ++ [t]))
  enter : ∃ u ∈ (front ++ [t]).head?, Enters σ τ first u
  leave : Enters σ τ last t
  exits : Exits σ τ last (Flow.vertices [] t)
  leaves : Unfolded σ τ false [.node last]
  tag : ∃ lo hi, σ.nodes.size ≤ lo ∧ hi ≤ τ.nodes.size ∧
    (∀ s ∈ Flow.placesAll front, s.node < lo) ∧ Tagged lo hi τ last t

variable {σ τ τ' : Store} {E : List Nat} {first last g lo hi : Nat} {front : List (Flow Site)}
  {t u : Flow Site} {xs ys : List (Vertex Site)}

theorem Grows.node_of_le (hg : Grows E τ τ') (hE : ∀ i ∈ E, i < lo) {i : Nat} (hlo : lo ≤ i)
    (hi : i < τ.nodes.size) : τ'.node i = τ.node i :=
  hg.node i hi fun hmem => by have := hE i hmem; omega

theorem Enters.grow (hg : Grows E τ τ') (hE : ∀ i ∈ E, i < σ.nodes.size) (h : Enters σ τ g t) :
    Enters σ τ' g t where
  heads := hg.arrives (by rintro i ⟨⟩; exact h.inside.2) h.heads
  plain := h.plain
  inside := ⟨h.inside.1, Nat.lt_of_lt_of_le h.inside.2 hg.size⟩
  jump v hv := by
    rw [hg.node_of_le hE h.inside.1 h.inside.2]
    exact h.jump v hv

theorem Exits.grow (hg : Grows E τ τ') (hE : ∀ i ∈ E, i < σ.nodes.size) (h : Exits σ τ g xs) :
    Exits σ τ' g xs := by
  obtain ⟨F, hF, hnodup, hmem⟩ := h
  have hsize := hg.size
  refine ⟨F, hF.transfer hsize ?_ (Nat.le_refl _) (by omega), hnodup, hmem⟩
  intro i hlo hi
  rw [hg.node_of_le hE hlo hi]

theorem Tagged.transfer
    (hgroup : ∀ role head tails d c, (τ'.node g).form = .group role head tails d c ↔
      (τ.node g).form = .group role head tails d c)
    (hparams : ∀ s body orelse, t = .branch s body orelse →
      (τ'.node s.node).params = (τ.node s.node).params)
    (hform : ∀ i, lo ≤ i → i < hi → (τ.node i).form.isDecision = true →
      (τ'.node i).form.isDecision = true) (h : Tagged lo hi τ g t) : Tagged lo hi τ' g t := by
  have htest : ∀ {j}, TestAt lo hi τ g j → TestAt lo hi τ' g j := by
    rintro j ⟨hlo, hj, hd, head, tails, d, c, hf⟩
    exact ⟨hlo, hj, hform j hlo hj hd, head, tails, d, c, (hgroup _ _ _ _ _).2 hf⟩
  cases t with
  | branch s body orelse => exact ⟨htest h.1, (hparams _ _ _ rfl).trans h.2⟩
  | merged isBranch s =>
    cases isBranch with
    | true =>
      obtain ⟨j, hj, hne⟩ := h
      exact ⟨j, htest hj, hne⟩
    | false => exact fun item head tails d c hf => h item head tails d c ((hgroup _ _ _ _ _).1 hf)
  | _ => exact fun item head tails d c hf => h item head tails d c ((hgroup _ _ _ _ _).1 hf)

theorem test_mem (s : Site) (body orelse : List (Flow Site)) :
    Vertex.test s (some (Flow.entryOf body)) (Flow.entryOf orelse)
      ∈ Flow.vertices [] (.branch s body orelse) := List.mem_cons_self

theorem mem_verticesAll_last {x : Vertex Site} (h : x ∈ Flow.vertices [] t) :
    x ∈ Flow.verticesAll [] (front ++ [t]) := by
  rw [Flow.verticesAll_append [] front (by simp)]
  exact List.mem_append_right _ h

theorem Holds.place_bound (h : Holds σ τ xs) {s : Site} (hs : s ∈ xs.map Vertex.place) :
    σ.nodes.size ≤ s.node ∧ s.node < τ.nodes.size := by
  obtain ⟨x, hx, rfl⟩ := List.mem_map.1 hs
  exact h.inside x hx _ (place_mem_nodes x)

theorem Holds.place_inside {ts : List (Flow Site)} (h : Holds σ τ (Flow.verticesAll [] ts))
    {s : Site} (hs : s ∈ Flow.placesAll ts) : σ.nodes.size ≤ s.node ∧ s.node < τ.nodes.size := by
  rw [← Flow.map_place_verticesAll []] at hs
  exact h.place_bound hs

theorem Row.grow (hs : τ.Sound) (hg : Grows E τ τ') (hE : ∀ i ∈ E, i < σ.nodes.size)
    (h : Row σ τ first last front t) : Row σ τ' first last front t where
  holds := h.holds.grow hs hg fun x hx i hi hmem => by
    have := hE i hmem
    have := (h.holds.inside x hx i hi).1
    omega
  enter := by
    obtain ⟨u, hu, henters⟩ := h.enter
    exact ⟨u, hu, henters.grow hg hE⟩
  leave := h.leave.grow hg hE
  exits := h.exits.grow hg hE
  leaves := h.leaves.grow hg hE
  tag := by
    obtain ⟨lo, hi, hσ, hτ, hfront, htag⟩ := h.tag
    refine ⟨lo, hi, hσ, Nat.le_trans hτ hg.size, hfront, htag.transfer ?_ ?_ ?_⟩
    · rw [hg.node_of_le hE h.leave.inside.1 h.leave.inside.2]
      exact fun _ _ _ _ _ => Iff.rfl
    · rintro s body orelse rfl
      have hin := h.holds.inside _ (mem_verticesAll_last (test_mem s body orelse)) s.node
        (place_mem_nodes _)
      rw [hg.node_of_le hE hin.1 hin.2]
    · intro i hlo hi hd
      rwa [hg.node_of_le hE (Nat.le_trans hσ hlo) (Nat.lt_of_lt_of_le hi hτ)]

theorem Row.first_cons (h : Row σ τ first last front t) :
    ∃ f rest, front ++ [t] = f :: rest ∧ Enters σ τ first f := by
  obtain ⟨f, hf, henters⟩ := h.enter
  cases hcons : front ++ [t] with
  | nil => simp at hcons
  | cons w rest =>
    rw [hcons] at hf
    cases hf
    exact ⟨f, rest, rfl, henters⟩

theorem mapAll_boxAt {ts : List (Flow Site)}
    (h : ∀ s ∈ Flow.placesAll ts, σ.nodes.size ≤ s.node ∧ s.node < τ.nodes.size)
    (hsame : ∀ i, σ.nodes.size ≤ i → i < τ.nodes.size →
      (τ'.node i).form.shape? = (τ.node i).form.shape? ∧ (τ'.node i).text = (τ.node i).text ∧
        (τ'.node i).params = (τ.node i).params) :
    Flow.mapAll (boxAt τ') ts = Flow.mapAll (boxAt τ) ts := by
  refine Flow.mapAll_congr ts fun s hs => ?_
  obtain ⟨hlo, hi⟩ := h s hs
  obtain ⟨hshape, htext, hparams⟩ := hsame s.node hlo hi
  rw [boxAt, boxAt, hshape, htext, hparams]

theorem mapAll_boxAt_grow {ts : List (Flow Site)} (hg : Grows E τ τ')
    (hE : ∀ i ∈ E, i < σ.nodes.size)
    (h : ∀ s ∈ Flow.placesAll ts, σ.nodes.size ≤ s.node ∧ s.node < τ.nodes.size) :
    Flow.mapAll (boxAt τ') ts = Flow.mapAll (boxAt τ) ts := by
  refine mapAll_boxAt h fun i hlo hi => ?_
  rw [hg.node_of_le hE hlo hi]
  exact ⟨rfl, rfl, rfl⟩

theorem Row.boxes_grow (h : Row σ τ first last front t) (hg : Grows E τ τ')
    (hE : ∀ i ∈ E, i < σ.nodes.size) :
    Flow.mapAll (boxAt τ') (front ++ [t]) = Flow.mapAll (boxAt τ) (front ++ [t]) :=
  mapAll_boxAt_grow hg hE fun _ hs => h.holds.place_inside hs

theorem ends_lead (w : Site) (x : Vertex Site) : (x.lead (some w)).ends = [] := by
  rcases x with ⟨s, _ | ⟨labels, _ | v⟩⟩ | ⟨s, _ | _ | y, _ | z⟩ <;> rfl

theorem flatMap_ends_lead (w : Site) (xs : List (Vertex Site)) :
    (xs.map (Vertex.lead (some w))).flatMap Vertex.ends = [] := by
  rw [List.flatMap_eq_nil_iff]
  intro x hx
  obtain ⟨y, -, rfl⟩ := List.mem_map.1 hx
  exact ends_lead w y

theorem ends_verticesAll (direction : List String) (front : List (Flow Site)) (t : Flow Site) :
    (Flow.verticesAll direction (front ++ [t])).flatMap Vertex.ends
      = (Flow.vertices [] t).flatMap Vertex.ends := by
  rw [Flow.verticesAll_append direction front (by simp), List.flatMap_append, Flow.entryOf_cons,
    flatMap_ends_lead, List.nil_append]
  cases t with
  | halt output finish => cases output <;> rfl
  | _ => rfl

theorem Closed.shows {target : Item} (hc : Closed E target τ τ')
    (hE : ∀ i ∈ E, ending (τ.node i).form = .leaf) {i : Nat} (hi : i < τ.nodes.size) :
    (τ'.node i).form.shape? = (τ.node i).form.shape? ∧ (τ'.node i).text = (τ.node i).text ∧
      (τ'.node i).params = (τ.node i).params := by
  obtain hnode | ⟨shape, links, hf, hnode⟩ | ⟨_, _, _, _, _, _, _, _, hf, hnode⟩ :=
    hc.node_cases hE hi
  · simp [hnode]
  · simp [hnode]
  · simp [hnode, hf, Form.shape?]

theorem Enters.closed {target : Item} (hc : Closed E target τ τ')
    (hE : ∀ i ∈ E, ending (τ.node i).form = .leaf) (h : Enters σ τ g t) : Enters σ τ' g t where
  heads := hc.grows.arrives (by rintro i ⟨⟩; exact h.inside.2) h.heads
  plain := h.plain
  inside := hc.size ▸ h.inside
  jump v hv := by
    obtain ⟨hform, hlinks⟩ := h.jump v hv
    have hfinal : g ∉ E := fun hmem => by
      have hleaf := hE g hmem
      rw [hform] at hleaf
      cases hleaf
    rw [hc.grows.node g h.inside.2 hfinal]
    exact ⟨hform, hlinks⟩

theorem Tagged.closed {target : Item} (hc : Closed E target τ τ')
    (hE : ∀ i ∈ E, ending (τ.node i).form = .leaf) (hg : g < τ.nodes.size)
    (hhi : hi ≤ τ.nodes.size) (hs : ∀ s ∈ t.places, s.node < τ.nodes.size)
    (h : Tagged lo hi τ g t) : Tagged lo hi τ' g t := by
  refine h.transfer ?_ ?_ ?_
  · intro role head tails d c
    obtain hnode | ⟨shape, links, hf, hnode⟩ | ⟨_, _, _, _, _, _, _, _, hf, hnode⟩ :=
      hc.node_cases hE hg
    · rw [hnode]
    · rw [hnode]
    · simp [hnode, hf]
  · rintro s body orelse rfl
    exact (hc.shows hE (hs s List.mem_cons_self)).2.2
  · intro i _ hi hd
    obtain hnode | ⟨shape, links, hf, hnode⟩ | ⟨_, _, _, _, _, _, _, _, hf, hnode⟩ :=
      hc.node_cases hE (Nat.lt_of_lt_of_le hi hhi)
    · rwa [hnode]
    · rwa [hnode]
    · rw [hf] at hd
      cases hd

theorem Enters.base (h : Enters τ τ' g t) (hσ : σ.nodes.size ≤ τ.nodes.size) : Enters σ τ' g t :=
  { h with inside := ⟨Nat.le_trans hσ h.inside.1, h.inside.2⟩ }

theorem Exits.base (h : Exits τ τ' g xs) (hσ : σ.nodes.size ≤ τ.nodes.size) : Exits σ τ' g xs := by
  obtain ⟨F, hF, hnodup, hmem⟩ := h
  exact ⟨F, hF.transfer (Nat.le_refl _) (fun _ _ _ => rfl) hσ (by omega), hnodup, hmem⟩

theorem Row.join {τ₁ : Store} {next : Nat} (hσ : Grows E σ τ) (h : Row σ τ first last front t)
    (hg : Grows [] τ τ₁) (hu : Row τ τ₁ next next [] u) :
    ∃ τ₂, connect last (.node next) [] τ₁ = .ok () τ₂ ∧ Grows E σ τ₂ ∧
      Row σ τ₂ first next (front ++ [t]) u ∧ Flow.mapAll (boxAt τ₂) (front ++ [t] ++ [u])
        = Flow.mapAll (boxAt τ) (front ++ [t]) ++ [u.map (boxAt τ₁)] ∧
      (∀ s ∈ u.places, τ.nodes.size ≤ s.node) ∧
      (∀ lo hi, hi ≤ τ.nodes.size → Tagged lo hi τ last t → Tagged lo hi τ₂ last t) ∧
      τ₂.nextId = τ₁.nextId ∧
      ∀ i, i < σ.nodes.size ∨ τ.nodes.size ≤ i → i < τ₁.nodes.size → τ₂.node i = τ₁.node i := by
  obtain ⟨F, hF, hnodup, hmem⟩ := h.exits
  have hin : ∀ i ∈ F, σ.nodes.size ≤ i ∧ i < τ.nodes.size := fun i hi => (hF.leaves i hi).1
  have hF₁ : EndsIn τ₁ σ.nodes.size (τ.nodes.size - σ.nodes.size) last F :=
    hF.transfer hg.size (fun i _ hi => by rw [hg.node i hi (by simp)])
      (Nat.le_refl _) (Nat.le_refl _)
  have hleaf : ∀ i ∈ F, ending (τ₁.node i).form = .leaf := fun i hi => (hF₁.leaves i hi).2
  have hnext : (Item.node next).Within τ₁ := by
    rintro i ⟨⟩
    exact hu.leave.inside.2
  have hsize := hg.size
  obtain ⟨τ₂, hrun, hc⟩ := connect_closes hg.sound hnext hF₁ hnodup (by omega)
  have hu₂ : Row τ τ₂ next next [] u := hu.grow hg.sound hc.grows fun i hi => (hin i hi).2
  refine ⟨τ₂, hrun, ?_, ⟨?_, ?_, ?_, ?_, ?_, ?_⟩, ?_, ?_, ?_, hc.nextId, ?_⟩
  · refine ((hσ.trans hg).trans hc.grows).restrict fun i hi => ?_
    rcases List.mem_append.1 hi with hi | hi
    · exact .inl (by simpa using hi)
    · exact .inr (hin i hi).1
  · have hall := Holds.append hσ hg (by simp) h.holds hu.holds
    have hled := hall.lead hg.sound hc (by simpa only [ends_verticesAll] using hmem) hnext
      (by simp) hu.leave.heads
    rwa [Flow.verticesAll_append [] (front ++ [t]) (by simp), Flow.entryOf_cons]
  · obtain ⟨v, hv, henters⟩ := h.enter
    refine ⟨v, ?_, (henters.grow hg (by simp)).closed hc hleaf⟩
    rw [List.head?_append, hv]
    rfl
  · exact hu₂.leave.base hσ.size
  · exact hu₂.exits.base hσ.size
  · exact hu₂.leaves.base hσ.size
  · obtain ⟨lo, hi, hlo, hτ, -, htag⟩ := hu₂.tag
    refine ⟨lo, hi, Nat.le_trans hσ.size hlo, hτ, ?_, htag⟩
    intro s hs
    have := (h.holds.place_inside hs).2
    omega
  · rw [Flow.mapAll_append]
    congr 1
    · refine mapAll_boxAt (fun _ hs => h.holds.place_inside hs) fun i _ hi => ?_
      rw [← hg.node i hi (by simp)]
      exact hc.shows hleaf (by omega)
    · have hboxes := hu.boxes_grow hc.grows fun i hi => (hin i hi).2
      simpa [Flow.mapAll] using hboxes
  · intro s hs
    exact (hu.holds.place_inside (by simpa [Flow.placesAll] using hs)).1
  · intro lo hi hτ htag
    have htag₁ : Tagged lo hi τ₁ last t := by
      refine htag.transfer ?_ ?_ ?_
      · rw [hg.node last h.leave.inside.2 (by simp)]
        exact fun _ _ _ _ _ => Iff.rfl
      · rintro s body orelse rfl
        have hs := h.holds.inside _ (mem_verticesAll_last (test_mem s body orelse)) s.node
          (place_mem_nodes _)
        rw [hg.node s.node hs.2 (by simp)]
      · intro i _ hi hd
        rwa [hg.node i (Nat.lt_of_lt_of_le hi hτ) (by simp)]
    refine htag₁.closed hc hleaf (by have := h.leave.inside.2; omega) (by omega) ?_
    intro s hs
    have := (h.holds.place_inside (s := s)
      (by rw [Flow.placesAll_append]; simp [Flow.placesAll, hs])).2
    omega
  · intro i hout hi
    refine hc.grows.node i hi fun hmem => ?_
    have := hin i hmem
    omega

theorem Holds.place_nodup {ts : List (Flow Site)} (h : Holds σ τ (Flow.verticesAll [] ts)) :
    ((Flow.placesAll ts).map Site.node).Nodup := by
  rw [← Flow.map_place_verticesAll [], List.map_map, List.Nodup, List.pairwise_map]
  refine (List.nodup_flatMap.1 h.nodes).2.imp ?_
  intro x y hapart he
  have hy : x.place.node ∈ y.nodes := by
    rw [show x.place.node = y.place.node from he]
    exact place_mem_nodes y
  exact hapart (place_mem_nodes x) hy

theorem boxes_mapNode {ts : List (Flow Site)} {j : Nat} {f : Node → Node}
    (h : ∀ s ∈ Flow.placesAll ts, s.node ≠ j) :
    Flow.mapAll (boxAt (τ.mapNode j f)) ts = Flow.mapAll (boxAt τ) ts := by
  refine Flow.mapAll_congr ts fun s hs => ?_
  rw [boxAt, boxAt, τ.node_mapNode_of_ne j s.node f (h s hs)]

theorem Enters.alike (ha : Alike τ τ') (h : Enters σ τ g t) : Enters σ τ' g t where
  heads := ha.arrives h.heads
  plain := h.plain
  inside := ha.size ▸ h.inside
  jump v hv := by
    rw [ha.form, ha.links]
    exact h.jump v hv

theorem Exits.alike (ha : Alike τ τ') (h : Exits σ τ g xs) : Exits σ τ' g xs := by
  obtain ⟨F, hF, hnodup, hmem⟩ := h
  exact ⟨F, ha.size ▸ ha.endsIn hF, hnodup, hmem⟩

theorem Row.alike (ha : Alike τ τ') (h : Row σ τ first last front t)
    (hdir : ∀ i, (τ'.node i).direction = (τ.node i).direction)
    (hparams : ∀ s ∈ t.places, (τ'.node s.node).params = (τ.node s.node).params) :
    Row σ τ' first last front t where
  holds := ha.holds h.holds fun s _ _ => hdir s.node
  enter := by
    obtain ⟨u, hu, henters⟩ := h.enter
    exact ⟨u, hu, henters.alike ha⟩
  leave := h.leave.alike ha
  exits := h.exits.alike ha
  leaves := h.leaves.alike ha
  tag := by
    obtain ⟨lo, hi, hσ, hτ, hfront, htag⟩ := h.tag
    refine ⟨lo, hi, hσ, ha.size ▸ hτ, hfront, htag.transfer ?_ ?_ ?_⟩
    · rw [ha.form]
      exact fun _ _ _ _ _ => Iff.rfl
    · rintro s body orelse rfl
      exact hparams s List.mem_cons_self
    · intro i _ _ hd
      rwa [ha.form]

theorem alignBranch_run (hs : τ.Sound) {j : Nat} {head tails d c}
    (hf : (τ.node g).form = .group (.branch (.node j)) head tails d c)
    (hd : (τ.node j).form.isDecision = true) :
    alignBranch g τ = .ok () (τ.mapNode j (·.setParam "align-next" "no")) := by
  unfold alignBranch
  rw [bind_ok (getNode_run τ g), hf]
  refine (bind_ok (present_run τ g "cond_node" (Item.node j) (hs.fits g).whole)).trans ?_
  unfold breakAlignment
  refine (bind_ok (getNode_run τ j)).trans ?_
  rw [hd]
  rfl

/-- Marking the test of a branch that is not the last of its row. -/
theorem Row.align {next : Nat} (hg : Grows [] σ τ) (h : Row σ τ first next (front ++ [t]) u)
    (htag : Tagged lo hi τ last t) (hb : t.isBranch = true) (hlo : σ.nodes.size ≤ lo)
    (hfront : ∀ s ∈ Flow.placesAll front, s.node < lo) (hu : ∀ s ∈ u.places, hi ≤ s.node) :
    ∃ τ', alignBranch last τ = .ok () τ' ∧ Grows [] σ τ' ∧ τ'.nextId = τ.nextId ∧
      Row σ τ' first next (front ++ [t]) u ∧ Flow.mapAll (boxAt τ') (front ++ [t] ++ [u])
        = Flow.mapAll (boxAt τ) front ++ [(t.map (boxAt τ)).align, u.map (boxAt τ)] := by
  have hnodup := h.holds.place_nodup
  have hinside := fun s hs => h.holds.place_inside (s := s) hs
  simp only [Flow.placesAll_append, List.mem_append, List.map_append, Flow.placesAll,
    List.append_nil] at hnodup hinside
  -- the marked test stands behind the front and before the last statement
  obtain ⟨j, ⟨hjlo, hjhi, hd, head, tails, d, c, hf⟩, hbox⟩ : ∃ j, TestAt lo hi τ last j ∧
      t.map (boxAt (τ.mapNode j (·.setParam "align-next" "no"))) = (t.map (boxAt τ)).align := by
    cases t with
    | branch s body orelse =>
      refine ⟨s.node, htag.1, ?_⟩
      have hown : ∀ v ∈ Flow.placesAll body ++ Flow.placesAll orelse, v.node ≠ s.node := by
        intro v hv he
        have hpart := (List.nodup_append.1 (List.nodup_append.1 hnodup).1).2.1
        exact (List.nodup_cons.1 hpart).1 (List.mem_map.2 ⟨v, hv, he⟩)
      have hbody := boxes_mapNode (τ := τ) (f := (·.setParam "align-next" "no"))
        fun v hv => hown v (List.mem_append_left _ hv)
      have horelse := boxes_mapNode (τ := τ) (f := (·.setParam "align-next" "no"))
        fun v hv => hown v (List.mem_append_right _ hv)
      have htest : boxAt (τ.mapNode s.node (·.setParam "align-next" "no")) s
          = { boxAt τ s with params := [("align-next", "no")] } := by
        unfold boxAt
        rw [τ.node_mapNode_self s.node _ (hinside s (.inl (.inr List.mem_cons_self))).2]
        simp [Node.setParam, htag.2]
      rw [Flow.map, hbody, horelse, htest]
      rfl
    | merged isBranch s =>
      obtain rfl : isBranch = true := hb
      obtain ⟨j, hj, hne⟩ := htag
      refine ⟨j, hj, ?_⟩
      rw [Flow.map, boxAt, τ.node_mapNode_of_ne j s.node _ hne]
      rfl
    | _ => cases hb
  have hj : σ.nodes.size ≤ j := Nat.le_trans hlo hjlo
  have hjfront : ∀ s ∈ Flow.placesAll front, s.node ≠ j := fun s hs => by
    have := hfront s hs
    omega
  have hju : ∀ s ∈ Flow.placesAll [u], s.node ≠ j := fun s hs => by
    have := hu s (by simpa [Flow.placesAll] using hs)
    omega
  have hplain : ∀ {α : Type} (field : Node → α), (∀ n params, field { n with params } = field n) →
      ∀ n : Node, field (n.setParam "align-next" "no") = field n := fun field hfield n =>
    field_setParam field hfield n _ _
  have hform := hplain Node.form fun _ _ => rfl
  have hlinks := hplain Node.links fun _ _ => rfl
  have hsound := hg.sound.mapPlain j hform hlinks (hplain Node.mark fun _ _ => rfl)
    (hplain Node.absent fun _ _ => rfl)
  refine ⟨_, alignBranch_run hg.sound hf hd, ?_, rfl, ?_, ?_⟩
  · exact (hg.trans (grows_mapNode hg.sound hsound
      (hplain Node.name (fun _ _ => rfl) _) (by rw [hform]))).drop (by simpa using hj)
  · refine h.alike (.mapNode j hform hlinks (hplain Node.name fun _ _ => rfl)) ?_ ?_
    · intro i
      exact τ.node_mapNode_keeps j i _ (P := fun n => n.direction = (τ.node i).direction) rfl
        fun _ => hplain Node.direction (fun _ _ => rfl) _
    · intro s hs
      rw [τ.node_mapNode_of_ne j s.node _ (hju s (by simpa [Flow.placesAll] using hs))]
  · rw [Flow.mapAll_append, Flow.mapAll_append, boxes_mapNode hjfront, boxes_mapNode hju]
    simp [Flow.mapAll, hbox]

theorem vertices_direction (direction : List String) (h : ∀ v, t ≠ .step v) :
    Flow.vertices direction t = Flow.vertices [] t := by
  cases t with
  | step v => exact absurd rfl (h v)
  | halt output finish => cases output <;> rfl
  | _ => rfl

theorem Enters.plain_of_box (h : Enters σ τ g t) (hbox : (τ.node g).isGroup = false) :
    t.isPlain = true :=
  h.plain.1 ((HeadsTo.of_not_group hbox).unique h.heads.1)

theorem Row.step_of_box (h : Row σ τ first last front t) {s : Site} {a : Arrow Site}
    (hmem : Vertex.box s (some a) ∈ Flow.verticesAll [] (front ++ [t])) (hs : s.node = last) :
    ∃ v, t = .step v ∧ v.node = last := by
  obtain ⟨shape, item, hf, -⟩ := h.holds.wired _ hmem
  have hbox : (τ.node last).isGroup = false := by
    rw [← hs, Node.isGroup, hf]
    rfl
  have hplain := h.leave.plain_of_box hbox
  have hlast := h.leave.plain.2 hplain
  cases t with
  | step v => exact ⟨v, rfl, hlast.symm⟩
  | jump v =>
    have hjump : Vertex.box v none ∈ Flow.verticesAll [] (front ++ [Flow.jump v]) :=
      mem_verticesAll_last List.mem_cons_self
    have heq := eq_of_mem_nodes h.holds.nodes hmem hjump (i := last) (by simp [Vertex.nodes, hs])
      (List.mem_singleton.2 hlast)
    cases heq
  | _ => cases hplain

theorem Holds.replace_last {x y : Vertex Site} (h : Holds σ τ (xs ++ [x])) (ha : Alike τ τ')
    (hdir : ∀ s a, Vertex.box s (some a) ∈ xs →
      (τ'.node s.node).direction = (τ.node s.node).direction) (hy : VertexAt τ' y)
    (hplace : y.place = x.place) (hnodes : y.nodes = x.nodes) : Holds σ τ' (xs ++ [y]) := by
  refine h.rewire (Nat.le_of_eq ha.size.symm) (Nat.le_of_eq ha.nextId.symm)
    (fun i _ => ha.name i) ?_ ?_
  · simp [hplace, hnodes]
  · intro z hz
    rcases List.mem_append.1 hz with hz | hz
    · exact ha.vertexAt (h.wired z (List.mem_append_left _ hz)) fun s a he => hdir s a (he ▸ hz)
    · obtain rfl := List.mem_singleton.1 hz
      exact hy

theorem nodes_verticesAll (direction : List String) (front : List (Flow Site)) (t : Flow Site) :
    (Flow.verticesAll direction (front ++ [t])).flatMap Vertex.nodes
      = (Flow.verticesAll [] (front ++ [t])).flatMap Vertex.nodes := by
  rw [Flow.verticesAll_append direction front (by simp),
    Flow.verticesAll_append [] front (by simp), List.flatMap_append, List.flatMap_append]
  congr 1
  cases t with
  | halt output finish => cases output <;> rfl
  | _ => rfl

theorem Row.turn_left (h : Row σ τ first last front t) :
    Holds σ (τ.mapNode last fun n => { n with direction := some "left" })
      (Flow.verticesAll ["left"] (front ++ [t])) := by
  have ha : Alike τ (τ.mapNode last fun n => { n with direction := some "left" }) :=
    .mapNode last (fun _ => rfl) (fun _ => rfl) fun _ => rfl
  by_cases hstep : ∃ v, t = .step v
  · obtain ⟨v, rfl⟩ := hstep
    obtain rfl : last = v.node := h.leave.plain.2 rfl
    have hold := h.holds
    rw [Flow.verticesAll_append [] front (by simp)] at hold
    rw [Flow.verticesAll_append ["left"] front (by simp)]
    refine hold.replace_last (x := .box v (some ⟨[], none⟩)) ha ?_ ?_ rfl rfl
    · intro s a hmem
      have hother : s.node ≠ v.node := fun hv => by
        have hnodes := hold.nodes
        rw [List.flatMap_append] at hnodes
        exact (List.nodup_append.1 hnodes).2.2 v.node
          (List.mem_flatMap.2 ⟨_, hmem, by simp [Vertex.nodes, hv]⟩) v.node
          (by simp [Flow.vertices, Vertex.nodes]) rfl
      rw [τ.node_mapNode_of_ne v.node s.node _ hother]
    · obtain ⟨shape, item, hf, hshape, -, hitem, hlinks⟩ :=
        hold.wired (.box v (some ⟨[], none⟩)) (List.mem_append_right _ List.mem_cons_self)
      refine ⟨shape, item, (ha.form _).trans hf, hshape, ?_, hitem, ?_⟩
      · rw [τ.node_mapNode_self v.node _ h.leave.inside.2, shownLabels_singleton (by decide)]
      · simpa only [ha.links, Store.link_mapNode] using hlinks
  · have hne : ∀ v, t ≠ .step v := fun v hv => hstep ⟨v, hv⟩
    have hlist : Flow.verticesAll ["left"] (front ++ [t]) = Flow.verticesAll [] (front ++ [t]) := by
      rw [Flow.verticesAll_append ["left"] front (by simp),
        Flow.verticesAll_append [] front (by simp)]
      exact congrArg _ (vertices_direction ["left"] hne)
    rw [hlist]
    refine ha.holds h.holds fun s a hmem => ?_
    have hother : s.node ≠ last := fun he => by
      obtain ⟨v, hv, -⟩ := h.step_of_box hmem he
      exact hne v hv
    rw [τ.node_mapNode_of_ne last s.node _ hother]

theorem Row.inside (h : Row σ τ first last front t) {i : Nat}
    (hi : i = last ∨ i ∈ (Flow.vertices [] t).flatMap Vertex.ends) :
    σ.nodes.size ≤ i ∧ i < τ.nodes.size := by
  rcases hi with rfl | hi
  · exact h.leave.inside
  · obtain ⟨x, hx, hi⟩ := List.mem_flatMap.1 hi
    exact h.holds.inside x (mem_verticesAll_last hx) i (ends_subset i hi)

theorem Row.back {test : Nat} (hs : τ.Sound) (h : Row σ τ first last front t)
    (hg : (τ.node test).isGroup = false) (hname : (τ.node test).name ≠ "") :
    ∃ τ' F, loopBack test (.node last) τ = .ok () τ' ∧ Grows F τ τ' ∧
      (∀ i ∈ F, i = last ∨ i ∈ (Flow.vertices [] t).flatMap Vertex.ends) ∧
      τ'.nodes.size = τ.nodes.size ∧ τ'.nextId = τ.nextId ∧
      (∀ s : Site, s.node = test →
        Holds σ τ' ((Flow.verticesAll ["left"] (front ++ [t])).map (Vertex.lead (some s)))) ∧
      Flow.mapAll (boxAt τ') (front ++ [t]) = Flow.mapAll (boxAt τ) (front ++ [t]) ∧
      ∀ v, t = .step v → ∃ l, (τ'.node v.node).links = [.link l] ∧
        (τ'.link l).target = .node test := by
  let τ₁ := τ.mapNode last fun n => { n with direction := some "left" }
  have ha : Alike τ τ₁ := .mapNode last (fun _ => rfl) (fun _ => rfl) fun _ => rfl
  have hsound₁ : τ₁.Sound :=
    hs.mapPlain last (fun _ => rfl) (fun _ => rfl) (fun _ => rfl) fun _ => rfl
  have hgrows₁ : Grows [last] τ τ₁ := grows_mapNode hs hsound₁ rfl rfl
  obtain ⟨F, hF, hnodup, hmem⟩ := h.exits
  have hF₁ := ha.endsIn hF
  have hleaf : ∀ i ∈ F, ending (τ₁.node i).form = .leaf := fun i hi => (hF₁.leaves i hi).2
  have htest : (Item.node test).Within τ₁ := by
    rintro i ⟨⟩
    rw [ha.size]
    exact lt_size_of_named hname
  obtain ⟨τ₂, hrun, hc⟩ := connect_closes hsound₁ htest hF₁ hnodup (by have := ha.size; omega)
  refine ⟨τ₂, last :: F, ?_, hgrows₁.trans hc.grows, ?_, hc.size.trans ha.size,
    hc.nextId, ?_, ?_, ?_⟩
  · exact hrun
  · intro i hi
    rcases List.mem_cons.1 hi with rfl | hi
    · exact .inl rfl
    · exact .inr ((hmem i).1 hi)
  · rintro s rfl
    have hleft : Holds σ τ₁ (Flow.verticesAll ["left"] (front ++ [t]) ++ []) := by
      rw [List.append_nil]
      exact h.turn_left
    have hled := hleft.lead hsound₁ hc (by simpa only [ends_verticesAll] using hmem) htest
      (by simp) (ha.arrives ⟨.of_not_group hg, hname⟩)
    rwa [List.append_nil] at hled
  · refine mapAll_boxAt (fun _ hs => h.holds.place_inside hs) fun i _ hi => ?_
    obtain ⟨hshape, htext, hparams⟩ := hc.shows hleaf (i := i) (by have := ha.size; omega)
    rw [hshape, htext, hparams, ha.form]
    refine ⟨rfl, ?_, ?_⟩
    · exact τ.node_mapNode_keeps last i _ (P := fun n => n.text = (τ.node i).text) rfl fun _ => rfl
    · exact τ.node_mapNode_keeps last i _ (P := fun n => n.params = (τ.node i).params) rfl
        fun _ => rfl
  · rintro v rfl
    obtain ⟨shape, item, hf, -, -, hitem, hlinks⟩ :=
      h.holds.wired (.box v (some ⟨[], none⟩)) (mem_verticesAll_last List.mem_cons_self)
    obtain rfl : item = .nothing := hitem
    have hvF : v.node ∈ F := (hmem v.node).2 (by simp [Flow.vertices, Vertex.ends])
    obtain ⟨l, -, hsame, hlink⟩ := hc.box hvF ((ha.form _).trans hf)
    refine ⟨l, ?_, by rw [hlink]⟩
    rcases hlinks with ⟨-, hlinks⟩ | ⟨hne, -⟩
    · rw [hsame]
      simp [ha.links, hlinks]
    · exact absurd rfl hne

end CodeChart.Chart
