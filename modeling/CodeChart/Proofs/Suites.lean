import CodeChart.Proofs.Rows

/-! Building statements and lists of statements. `Builds` compares an action with an outline: the
action fails with the fault of the outline, or leaves a statement whose flow is the outline. -/
namespace CodeChart.Chart

open CodeChart.Graph

/-- A statement with the given outline has been built. -/
structure Built (σ : Store) (g : Nat) (τ : Store) (flow : Flow Box) : Prop where
  grows : Grows [] σ τ
  row : ∃ t, Row σ τ g g [] t ∧ t.map (boxAt τ) = flow

/-- From every sound store the action builds the outline. -/
def Builds (act : Action Nat) (spec : Except Fault (Flow Box)) : Prop :=
  ∀ σ : Store, σ.Sound → Realizes σ act spec (Built σ)

/-- The actions build the outlines in turn, each in the given sense. -/
inductive BuildsAll (builds : Action Nat → Except Fault (Flow Box) → Prop) :
    List (Action Nat) → Except Fault (List (Flow Box)) → Prop where
  | nil : BuildsAll builds [] (pure [])
  | cons {act acts spec specs} : builds act spec → BuildsAll builds acts specs →
      BuildsAll builds (act :: acts) (do
        let t ← spec
        let ts ← specs
        return t :: ts)

variable {σ τ τ' : Store} {first last g lo hi : Nat} {front : List (Flow Site)} {t u : Flow Site}

theorem isBranch_run (h : Tagged lo hi τ g t) : isBranch g τ = .ok t.isBranch τ := by
  have hbranch : ∀ {item head tails d c}, (τ.node g).form = .group (.branch item) head tails d c →
      isBranch g τ = .ok true τ := by
    intro item head tails d c hf
    unfold isBranch
    rw [bind_ok (getNode_run τ g), hf]
    rfl
  have hother : (∀ item head tails d c, (τ.node g).form ≠ .group (.branch item) head tails d c) →
      isBranch g τ = .ok false τ := by
    intro hne
    unfold isBranch
    rw [bind_ok (getNode_run τ g)]
    cases hf : (τ.node g).form with
    | group role head tails d c =>
      cases role with
      | branch item => exact absurd hf (hne _ _ _ _ _)
      | _ => rfl
    | _ => rfl
  cases t with
  | branch s body orelse =>
    obtain ⟨⟨-, -, -, head, tails, d, c, hf⟩, -⟩ := h
    exact hbranch hf
  | merged isBranch s =>
    cases isBranch with
    | true =>
      obtain ⟨j, ⟨-, -, -, head, tails, d, c, hf⟩, -⟩ := h
      exact hbranch hf
    | false => exact hother h
  | _ => exact hother h

def joined (options : Options) (t u : Flow Box) : Flow Box :=
  if options.align && t.isBranch && u.isBranch then t.align else t

theorem arrange_cons (options : Options) (t u : Flow Box) (us : List (Flow Box)) :
    arrange options (t :: u :: us) = joined options t u :: arrange options (u :: us) := by
  unfold arrange joined
  cases options.align
  · simp
  · simp [Flow.alignAll]

theorem arrange_singleton (options : Options) (t : Flow Box) : arrange options [t] = [t] := by
  unfold arrange
  cases options.align <;> rfl

theorem join_run (options : Options) {τ₁ : Store} {next : Nat} (hσ : Grows [] σ τ)
    (h : Row σ τ first last front t) (hg : Grows [] τ τ₁) (hu : Row τ τ₁ next next [] u) :
    ∃ τ₂, join options last next τ₁ = .ok () τ₂ ∧ Grows [] σ τ₂ ∧ τ₂.nextId = τ₁.nextId ∧
      Row σ τ₂ first next (front ++ [t]) u ∧ Flow.mapAll (boxAt τ₂) (front ++ [t] ++ [u])
        = Flow.mapAll (boxAt τ) front
          ++ [joined options (t.map (boxAt τ)) (u.map (boxAt τ₁)), u.map (boxAt τ₁)] := by
  obtain ⟨τ₂, hrun, hgrows, hrow, hboxes, hplaces, htags, hcount, -⟩ := h.join hσ hg hu
  obtain ⟨lo, hi, hlo, hhi, hfront, htag⟩ := h.tag
  have htag₂ := htags lo hi hhi htag
  obtain ⟨lo', hi', -, -, -, htag'⟩ := hrow.tag
  have hlast : isBranch last τ₂ = .ok t.isBranch τ₂ := isBranch_run htag₂
  have hnext : isBranch next τ₂ = .ok u.isBranch τ₂ := isBranch_run htag'
  simp only [Flow.mapAll_append, Flow.mapAll, List.append_assoc, List.singleton_append] at hboxes
  by_cases halign : (options.align && t.isBranch && u.isBranch) = true
  · simp only [Bool.and_eq_true] at halign
    obtain ⟨⟨hopt, ht⟩, hu⟩ := halign
    obtain ⟨τ₃, hrun₃, hgrows₃, hcount₃, hrow₃, hboxes₃⟩ := hrow.align hgrows htag₂ ht hlo hfront
      fun s hs => Nat.le_trans hhi (hplaces s hs)
    refine ⟨τ₃, ?_, hgrows₃, hcount₃.trans hcount, hrow₃, ?_⟩
    · unfold join
      rw [bind_ok hrun, hopt]
      refine (bind_ok hlast).trans ?_
      rw [ht]
      refine (bind_ok hnext).trans ?_
      rw [hu]
      exact hrun₃
    · obtain ⟨hf, hrest⟩ := List.append_inj hboxes (by simp [Flow.mapAll_eq])
      injection hrest with ht' hrest
      injection hrest with hu' _
      rw [hboxes₃, hf, ht', hu']
      simp [joined, hopt, ht, hu]
  · refine ⟨τ₂, ?_, hgrows, hcount, hrow, ?_⟩
    · unfold join
      rw [bind_ok hrun]
      cases hopt : options.align with
      | false => rfl
      | true =>
        refine (bind_ok hlast).trans ?_
        cases ht : t.isBranch with
        | false => rfl
        | true =>
          refine (bind_ok hnext).trans ?_
          cases hu : u.isBranch with
          | false => rfl
          | true => exact absurd (by simp [hopt, ht, hu]) halign
    · simp only [Flow.mapAll_append, Flow.mapAll, List.append_assoc, List.singleton_append]
      rw [hboxes]
      simp only [joined, Flow.isBranch_map, halign]
      rfl

theorem chain_realizes (options : Options) {acts : List (Action Nat)}
    {specs : Except Fault (List (Flow Box))} (h : BuildsAll Builds acts specs) :
    ∀ {τ last front t}, Grows [] σ τ → Row σ τ first last front t →
      Realizes τ (chain options last acts) specs fun last' τ' us => Grows [] σ τ' ∧
        ∃ front' t', Row σ τ' first last' front' t' ∧ Flow.mapAll (boxAt τ') (front' ++ [t'])
          = Flow.mapAll (boxAt τ) front ++ arrange options (t.map (boxAt τ) :: us) := by
  induction h with
  | nil =>
    intro τ last front t hg hrow
    refine .ok rfl ⟨hg, front, t, hrow, ?_⟩
    rw [Flow.mapAll_append, arrange_singleton]
    rfl
  | @cons act acts spec specs hact _ ih =>
    intro τ last front t hg hrow
    refine (hact τ hg.sound).bind (fun next τ₁ flow _ hbuilt => ?_) fun _ _ _ hb => hb.grows.silent
    obtain ⟨hg₁, u, hu, rfl⟩ := hbuilt
    obtain ⟨τ₂, hrun, hg₂, -, hrow₂, hboxes⟩ := join_run options hg hrow hg₁ hu
    refine .step hrun ((ih hg₂ hrow₂).map fun last' τ' us _ hpost => ?_)
      ((hg.trans hg₁).silent.cancel hg₂.silent)
    obtain ⟨hg', front', t', hrow', hboxes'⟩ := hpost
    refine ⟨hg', front', t', hrow', hboxes'.trans ?_⟩
    rw [Flow.mapAll_append, Flow.mapAll_append, List.append_assoc] at hboxes
    obtain ⟨hf, hrest⟩ := List.append_inj hboxes (by simp [Flow.mapAll_eq])
    simp only [Flow.mapAll, List.singleton_append] at hrest
    injection hrest with ht hrest
    injection hrest with hu' _
    rw [arrange_cons, Flow.mapAll_append, hf, ← ht, ← hu', List.append_assoc]
    rfl

/-- The group of a list of statements, as a construct finds it. -/
inductive SuiteEnds (σ τ : Store) (g : Nat) : List (Flow Box) → Prop where
  | empty : groupEnds g τ = .ok (.nothing, [.nothing]) τ → SuiteEnds σ τ g []
  | row {first last : Nat} {front : List (Flow Site)} {t : Flow Site} :
      (τ.node g).form = .group .suite (.node first) [.node last] "" "" →
      Row σ τ first last front t → SuiteEnds σ τ g (Flow.mapAll (boxAt τ) (front ++ [t]))

theorem groupEnds_run {role head tails d c} (hf : (τ.node g).form = .group role head tails d c) :
    groupEnds g τ = .ok (head, tails) τ := by
  unfold groupEnds
  rw [bind_ok (getNode_run τ g), hf]
  rfl

theorem Row.base {ρ : Store} (h : Row ρ τ first last front t) (hn : σ.nodes.size ≤ ρ.nodes.size)
    (hi : σ.nextId ≤ ρ.nextId) : Row σ τ first last front t where
  holds := h.holds.base hn hi
  enter := by
    obtain ⟨u, hu, henters⟩ := h.enter
    exact ⟨u, hu, henters.base hn⟩
  leave := h.leave.base hn
  exits := h.exits.base hn
  leaves := h.leaves.base hn
  tag := by
    obtain ⟨lo, hi, hlo, hrest⟩ := h.tag
    exact ⟨lo, hi, Nat.le_trans hn hlo, hrest⟩

theorem moveHead_run (g first : Nat) : moveHead g (.node first) τ
    = .ok () (τ.mapNode g (·.regroup fun role _ tails => (role, .node first, tails))) := by
  unfold moveHead
  rw [if_pos (by simp), bind_ok (setHead_run g (.node first))]
  rfl

theorem not_headsTo_nothing {j : Nat} : ¬HeadsTo τ .nothing j := by
  rintro ⟨n, hn⟩
  cases hn

theorem form_regroup {role head tails d c} (hf : (τ.node g).form = .group role head tails d c)
    (f : GroupRole → Item → List Item → GroupRole × Item × List Item) :
    ((τ.mapNode g (·.regroup f)).node g).form
      = .group (f role head tails).1 (f role head tails).2.1 (f role head tails).2.2 d c := by
  rw [τ.node_mapNode_self g _ (lt_size_of_isGroup (isGroup_of_form hf)), regroup_of_group _ hf]

theorem form_withGroup (τ : Store) (role : GroupRole) (head : Item) (tails : List Item)
    (code : Option Code.Piece) : ((τ.withGroup role head tails code).node τ.nodes.size).form
      = .group role head tails "" "" := by
  simp

theorem suite_realizes (options : Options) {acts : List (Action Nat)}
    {specs : Except Fault (List (Flow Box))} (h : BuildsAll Builds acts specs) (hσ : σ.Sound) :
    Realizes σ (suite options acts) (arrange options <$> specs) fun g τ flows =>
      Grows [] σ τ ∧ SuiteEnds σ τ g flows := by
  unfold suite
  refine .step (newGroup_run σ .suite (fun l => by simp) [] none) ?_
  have hnothing : Item.nothing.Within σ := fun _ hj => by cases hj
  let σ₁ := σ.withGroup .suite .nothing [] none
  let g := σ.nodes.size
  have hg₁ : Grows [] σ σ₁ := grows_withGroup hσ .suite hnothing [] none
  have hlt : g < σ₁.nodes.size := by simp [g, σ₁]
  have hform : (σ₁.node g).form = .group .suite .nothing [] "" "" := by
    simp [g, σ₁]
  cases h with
  | nil =>
    let σ₂ := σ₁.mapNode g (·.regroup fun role head tails => (role, head, tails ++ [.nothing]))
    have hg₂ : Grows [g] σ₁ σ₂ := grows_regroup hg₁.sound fun _ _ _ => rfl
    have hempty : arrange options <$> (pure [] : Except Fault (List (Flow Box))) = .ok [] := by
      unfold arrange
      cases options.align <;> rfl
    rw [hempty]
    refine ⟨g, σ₂, ?_, (hg₁.trans hg₂).drop (by simp [g]), .empty ?_⟩
    · exact bind_ok (setTails_run g _)
    · exact groupEnds_run (form_regroup hform _)
  | @cons act acts spec specs hact hacts =>
    have hspec : arrange options <$> (do let t ← spec; let ts ← specs; return t :: ts)
        = spec >>= fun t => specs >>= fun ts => pure (arrange options (t :: ts)) := by
      simp only [map_bind, map_pure]
    rw [hspec]
    refine (hact σ₁ hg₁.sound).bind (fun first τ₁ flow _ hbuilt => ?_)
      fun _ _ _ hb => hb.grows.silent
    obtain ⟨hgτ₁, u, hu, rfl⟩ := hbuilt
    refine (chain_realizes options hacts hgτ₁ hu).bind (fun last τ₂ us _ hpost => ?_)
      fun _ _ _ hpost => hgτ₁.silent.cancel hpost.1.silent
    obtain ⟨hgτ₂, front, t, hrow, hboxes⟩ := hpost
    have hform₂ : (τ₂.node g).form = .group .suite .nothing [] "" "" := by
      rw [hgτ₂.node g hlt (by simp), hform]
    have hfirst : (Item.node first).Within τ₂ := by
      rintro i ⟨⟩
      obtain ⟨v, -, henters⟩ := hrow.enter
      exact henters.inside.2
    let τ₃ := τ₂.mapNode g (·.regroup fun role _ tails => (role, .node first, tails))
    have hgτ₃ : Grows [g] τ₂ τ₃ := grows_setHead hgτ₂.sound hfirst fun j hj =>
      (not_headsTo_nothing (hj.head hform₂)).elim
    have hform₃ : (τ₃.node g).form = .group .suite (.node first) [] "" "" := form_regroup hform₂ _
    let τ₄ := τ₃.mapNode g (·.regroup fun role head tails => (role, head, tails ++ [.node last]))
    have hgτ₄ : Grows [g] τ₃ τ₄ := grows_regroup hgτ₃.sound fun _ _ _ => rfl
    have hbefore : ∀ i ∈ [g] ++ [g], i < σ₁.nodes.size := by simpa using hlt
    have hrow₄ : Row σ₁ τ₄ first last front t :=
      hrow.grow hgτ₂.sound (hgτ₃.trans hgτ₄) hbefore
    have hboxes₄ := hrow.boxes_grow (hgτ₃.trans hgτ₄) hbefore
    have hflows : arrange options (u.map (boxAt τ₁) :: us)
        = Flow.mapAll (boxAt τ₄) (front ++ [t]) := by
      rw [hboxes₄, hboxes]
      rfl
    refine ⟨g, τ₄, ?_, ?_, ?_⟩
    · rw [bind_ok (moveHead_run g first)]
      exact bind_ok (setTails_run g _)
    · exact ((hg₁.trans hgτ₂).trans (hgτ₃.trans hgτ₄)).drop (by simp [g])
    · rw [hflows]
      exact .row (form_regroup hform₃ _) (hrow₄.base hg₁.size hg₁.nextId)

/-- From every sound store the action builds a suite with the given outlines. -/
def BuildsSuite (act : Action Nat) (spec : Except Fault (List (Flow Box))) : Prop :=
  ∀ σ : Store, σ.Sound → Realizes σ act spec fun g τ flows => Grows [] σ τ ∧ SuiteEnds σ τ g flows

structure BoxMade (σ τ : Store) (s : Site) (shape : Shape) (text : String) : Prop where
  grows : Grows [] σ τ
  size : τ.nodes.size = σ.nodes.size + 1
  node : s.node = σ.nodes.size
  form : (τ.node s.node).form = .box shape
  links : (τ.node s.node).links = []
  direction : (τ.node s.node).direction = none
  box : boxAt τ s = ⟨some shape, text, []⟩
  named : Numbered τ s
  counted : σ.nextId ≤ s.number ∧ s.number < τ.nextId

theorem Numbered.name_ne {s : Site} (h : Numbered τ s) : (τ.node s.node).name ≠ "" := by
  obtain ⟨letters, hmem, hname⟩ := h
  rw [hname]
  intro he
  have hempty : letters = "" := (String.append_eq_empty_iff.1 he).1
  rw [hempty] at hmem
  revert hmem
  decide

theorem nameOf_eq {shape : Shape} (h : shape.letters ≠ "") (id : Nat) :
    shape.nameOf id = shape.letters ++ toString id := by
  unfold Shape.nameOf
  rw [if_neg]
  simpa using h

theorem newBox_made {shape : Shape} (h : shape.letters ≠ "") (hσ : σ.Sound) (text : String)
    (code : Option Code.Piece) :
    BoxMade σ (σ.withBox shape text code) ⟨σ.nodes.size, σ.nextId, 0, 0, []⟩ shape text where
  grows := grows_withBox hσ shape text code
  size := by simp
  node := rfl
  form := by simp
  links := by simp
  direction := by simp
  box := by simp [boxAt, Form.shape?]
  named := by
    refine ⟨shape.letters, ?_, ?_⟩
    · revert h
      cases shape <;> decide
    · simp [nameOf_eq h]
  counted := ⟨Nat.le_refl _, Nat.lt_succ_self _⟩

theorem newCodeBox_realizes {shape : Shape} (h : shape.letters ≠ "") (hσ : σ.Sound)
    (code : Code.Piece) (text : Except Fault String) :
    Realizes σ (newCodeBox shape code text) text fun b τ x =>
      ∃ s, s.node = b ∧ BoxMade σ τ s shape x := by
  cases text with
  | error f => exact ⟨σ.countId, rfl, rfl, rfl⟩
  | ok x =>
    have hmade := newBox_made h hσ.countId x (some code)
    refine ⟨σ.nodes.size, σ.countId.withBox shape x (some code), rfl, _, hmade.node, ?_⟩
    exact { hmade with
      grows := (grows_countId hσ).trans hmade.grows
      counted := ⟨Nat.le_trans (Nat.le_succ _) hmade.counted.1, hmade.counted.2⟩ }

theorem newCodeBox_nextId {shape : Shape} {code : Code.Piece} {text : Except Fault String} {b : Nat}
    (h : newCodeBox shape code text σ = .ok b τ) : τ.nextId = σ.nextId + 2 := by
  cases text with
  | error f =>
    have hfail : newCodeBox shape code (.error f) σ = .error f σ.countId := rfl
    cases hfail.symm.trans h
  | ok x =>
    cases h
    rfl

theorem newCodeBox_map_realizes {α : Type} {shape : Shape} (h : shape.letters ≠ "") (hσ : σ.Sound)
    (code : Code.Piece) (f : α → String) (part : Except Fault α) :
    Realizes σ (newCodeBox shape code (f <$> part)) part fun b τ x =>
      ∃ s, s.node = b ∧ BoxMade σ τ s shape (f x) := by
  cases part with
  | error fault => exact newCodeBox_realizes h hσ code (.error fault)
  | ok x => exact newCodeBox_realizes h hσ code (.ok (f x))

theorem Numbered.arrives {s : Site} {shape : Shape} (h : Numbered τ s)
    (hf : (τ.node s.node).form = .box shape) : Arrives τ (.node s.node) s :=
  ⟨.of_not_group (by rw [Node.isGroup, hf]; rfl), h.name_ne⟩

theorem BoxMade.holds {s : Site} {shape : Shape} {text : String} (h : BoxMade σ τ s shape text)
    {out : Option (Arrow Site)} (hx : VertexAt τ (.box s out)) : Holds σ τ [.box s out] := by
  have hsize := h.size
  have hnode := h.node
  refine (Holds.nil σ τ).cons hx h.named (by simp [Vertex.nodes]) ?_ (by simp) h.counted (by simp)
  intro i hi
  obtain rfl := List.mem_singleton.1 hi
  omega

theorem BoxMade.unfolded {s : Site} {shape : Shape} {text : String} {r : Bool}
    (h : BoxMade σ τ s shape text) : Unfolded σ τ r [.node s.node] := by
  have hsize := h.size
  have hnode := h.node
  refine .single (by omega) (by omega) ?_
  rw [Node.isGroup, h.form]
  rfl

theorem BoxMade.row_step {s : Site} {shape : Shape} {text : String} (h : BoxMade σ τ s shape text)
    (hshape : shape ≠ .jump) : Row σ τ s.node s.node [] (.step s) := by
  have hsize := h.size
  have hnode := h.node
  have henters : Enters σ τ s.node (.step s) :=
    ⟨h.named.arrives h.form, by simp [Flow.entry, Flow.isPlain], by omega, fun v hv => by cases hv⟩
  refine ⟨h.holds ?_, ⟨_, rfl, henters⟩, henters, ⟨[s.node], ?_, by simp, ?_⟩, h.unfolded, ?_⟩
  · exact ⟨shape, .nothing, h.form, hshape, by rw [h.direction]; exact shownLabels_none.symm, rfl,
      .inl ⟨rfl, h.links⟩⟩
  · rw [show τ.nodes.size - σ.nodes.size = 0 + 1 by omega]
    exact .leaf (by omega) (by omega) (by simp [h.form, ending, hshape])
  · simp [Flow.vertices, Vertex.ends]
  · exact ⟨σ.nodes.size, τ.nodes.size, Nat.le_refl _, Nat.le_refl _, by simp [Flow.placesAll],
      fun _ _ _ _ _ hf => by rw [h.form] at hf; cases hf⟩

theorem BoxMade.row_jump {s : Site} {text : String} (h : BoxMade σ τ s .jump text) :
    Row σ τ s.node s.node [] (.jump s) := by
  have hsize := h.size
  have hnode := h.node
  have henters : Enters σ τ s.node (.jump s) :=
    ⟨h.named.arrives h.form, by simp [Flow.entry, Flow.isPlain], by omega,
      fun _ _ => ⟨h.form, h.links⟩⟩
  refine ⟨h.holds ⟨_, h.form, .inl h.links⟩, ⟨_, rfl, henters⟩, henters, ⟨[], ?_, by simp, ?_⟩,
    h.unfolded, ?_⟩
  · rw [show τ.nodes.size - σ.nodes.size = 0 + 1 by omega]
    exact .final (by omega) (by omega) (by simp [h.form, ending])
  · simp [Flow.vertices, Vertex.ends]
  · exact ⟨σ.nodes.size, τ.nodes.size, Nat.le_refl _, Nat.le_refl _, by simp [Flow.placesAll],
      fun _ _ _ _ _ hf => by rw [h.form] at hf; cases hf⟩

theorem builds_step {shape : Shape} (h : shape.letters ≠ "") (hshape : shape ≠ .jump)
    (code : Code.Piece) (text : Except Fault String) :
    Builds (newCodeBox shape code text) ((fun x => .step ⟨some shape, x, []⟩) <$> text) := by
  intro σ hσ
  refine (newCodeBox_realizes h hσ code text).map ?_
  rintro b τ x - ⟨s, rfl, hmade⟩
  exact ⟨hmade.grows, .step s, hmade.row_step hshape, by rw [Flow.map, hmade.box]⟩

theorem builds_jump (code : Code.Piece) (text : Except Fault String) :
    Builds (newCodeBox .jump code text) ((fun x => .jump ⟨some .jump, x, []⟩) <$> text) := by
  intro σ hσ
  refine (newCodeBox_realizes (by decide) hσ code text).map ?_
  rintro b τ x - ⟨s, rfl, hmade⟩
  exact ⟨hmade.grows, .jump s, hmade.row_jump, by rw [Flow.map, hmade.box]⟩

theorem Exits.of_tails {xs : List (Vertex Site)} {n : Nat} {tails : List Item}
    {Es : List (List Nat)} (hg : σ.nodes.size ≤ g) (hf : ending (τ.node g).form = .inner tails)
    (hlt : g < τ.nodes.size) (ht : TailEnds τ σ.nodes.size n tails Es)
    (hn : n + 1 ≤ τ.nodes.size - σ.nodes.size) (hnodup : Es.flatten.Nodup)
    (hmem : ∀ e, e ∈ Es.flatten ↔ e ∈ xs.flatMap Vertex.ends) : Exits σ τ g xs := by
  have hends : EndsIn τ σ.nodes.size (n + 1) g Es.flatten := .inner hg hlt hf ht
  exact ⟨_, hends.transfer (Nat.le_refl _) (fun _ _ _ => rfl) (Nat.le_refl _) hn, hnodup, hmem⟩

theorem Row.of_group {role head tails d c} (hf : (τ.node g).form = .group role head tails d c)
    (hg : σ.nodes.size ≤ g) (hholds : Holds σ τ (t.vertices [])) (hhead : Arrives τ head t.entry)
    (hplain : t.isPlain = false) (hexits : Exits σ τ g (t.vertices []))
    (hleaves : Unfolded σ τ role.returns tails)
    (htag : Tagged σ.nodes.size τ.nodes.size τ g t) : Row σ τ g g [] t := by
  have hlt := lt_size_of_isGroup (isGroup_of_form hf)
  have henters : Enters σ τ g t := by
    refine ⟨⟨.of_group hf hhead.1, hhead.2⟩, ?_, ⟨hg, hlt⟩, ?_⟩
    · rw [hplain]
      refine ⟨fun he => ?_, fun h => by cases h⟩
      have hgroup := hhead.1.not_group
      rw [← he, isGroup_of_form hf] at hgroup
      cases hgroup
    · rintro v rfl
      cases hplain
  have hleaves' : Unfolded σ τ false [.node g] := .group hg hf (by simpa using hleaves)
  exact ⟨hholds, ⟨t, rfl, henters⟩, henters, hexits, hleaves', _, _, Nat.le_refl _, Nat.le_refl _,
    by simp [Flow.placesAll], htag⟩

end CodeChart.Chart
