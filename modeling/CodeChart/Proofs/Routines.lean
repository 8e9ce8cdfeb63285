import CodeChart.Proofs.Suites

/-! Routines and returns. A routine runs from its start over its input and its body to its end,
which every exit of the body leads to. A return ends at once. -/
namespace CodeChart.Chart

open CodeChart.Graph

variable {σ ρ τ τ' τ'' : Store} {E : List Nat} {s w : Site} {labels : List String} {target : Item}
  {xs ys : List (Vertex Site)}

/-- The later store shows every node as before. -/
def Shows (τ τ' : Store) : Prop :=
  ∀ i, i < τ.nodes.size → (τ'.node i).form.shape? = (τ.node i).form.shape? ∧
    (τ'.node i).text = (τ.node i).text ∧ (τ'.node i).params = (τ.node i).params

theorem Grows.shows (h : Grows [] τ τ') : Shows τ τ' := fun i hi => by
  rw [h.node i hi (by simp)]
  exact ⟨rfl, rfl, rfl⟩

theorem Shows.trans (h : Shows τ τ') (h' : Shows τ' τ'') (hsize : τ.nodes.size ≤ τ'.nodes.size) :
    Shows τ τ'' := by
  intro i hi
  obtain ⟨hshape, htext, hparams⟩ := h i hi
  obtain ⟨hshape', htext', hparams'⟩ := h' i (Nat.lt_of_lt_of_le hi hsize)
  exact ⟨hshape'.trans hshape, htext'.trans htext, hparams'.trans hparams⟩

theorem Shows.boxAt (h : Shows τ τ') (hs : s.node < τ.nodes.size) : boxAt τ' s = boxAt τ s := by
  obtain ⟨hshape, htext, hparams⟩ := h s.node hs
  rw [Chart.boxAt, Chart.boxAt, hshape, htext, hparams]

theorem Holds.leaf (h : Holds σ τ xs) (hx : Vertex.box s (some ⟨labels, none⟩) ∈ xs) :
    ending (τ.node s.node).form = .leaf ∧ s.node < τ.nodes.size := by
  obtain ⟨shape, item, hf, hshape, -⟩ := h.wired _ hx
  refine ⟨by simp [hf, ending, hshape], (h.inside _ hx s.node ?_).2⟩
  simp [Vertex.nodes]

theorem Holds.unfolded (h : Holds σ τ xs) {out : Option (Arrow Site)} (hx : Vertex.box s out ∈ xs)
    {r : Bool} : Unfolded σ τ r [.node s.node] := by
  obtain ⟨hlo, hi⟩ := h.inside _ hx s.node (place_mem_nodes (.box s out))
  have hbox : ∃ shape, (τ.node s.node).form = .box shape := by
    have hwired := h.wired _ hx
    cases out with
    | none =>
      obtain ⟨shape, hf, -⟩ := hwired
      exact ⟨shape, hf⟩
    | some a =>
      obtain ⟨shape, -, hf, -⟩ := hwired
      exact ⟨shape, hf⟩
  obtain ⟨shape, hf⟩ := hbox
  refine .single hlo hi ?_
  rw [Node.isGroup, hf]
  rfl

theorem Holds.connect_box (hs : τ.Sound) (h : Holds σ τ (.box s (some ⟨labels, none⟩) :: ys))
    (ht : target.Within τ) (hw : Arrives τ target w) :
    ∃ τ', connect s.node target [] τ = .ok () τ' ∧ Grows [s.node] τ τ' ∧ Shows τ τ' ∧
      τ'.nodes.size = τ.nodes.size ∧ τ'.nextId = τ.nextId ∧
      Holds σ τ' (.box s (some ⟨labels, some w⟩) :: ys) := by
  obtain ⟨hleaf, hlt⟩ := h.leaf List.mem_cons_self
  have hend : EndsIn τ 0 1 s.node [s.node] := .leaf (Nat.zero_le _) hlt hleaf
  obtain ⟨τ', hrun, hc⟩ := connect_closes hs ht hend (by simp) (by omega)
  have hne : target ≠ .nothing := by
    rintro rfl
    exact not_headsTo_nothing hw.1
  refine ⟨τ', hrun, hc.grows, fun i hi =>
    hc.shows (by simpa using hleaf) hi, hc.size, hc.nextId, ?_⟩
  have hled := @Holds.lead τ τ' [s.node] target σ [.box s (some ⟨labels, none⟩)] ys w hs h hc
    (by simp [Vertex.ends]) ht hne hw
  exact hled

theorem Holds.connect_nothing (hs : τ.Sound) (h : Holds σ τ (.box s (some ⟨labels, none⟩) :: ys)) :
    ∃ τ', connect s.node .nothing [] τ = .ok () τ' ∧ Grows [s.node] τ τ' ∧ Shows τ τ' ∧
      τ'.nodes.size = τ.nodes.size ∧ τ'.nextId = τ.nextId ∧ Holds σ τ' (.box s none :: ys) := by
  obtain ⟨hleaf, hlt⟩ := h.leaf List.mem_cons_self
  have hend : EndsIn τ 0 1 s.node [s.node] := .leaf (Nat.zero_le _) hlt hleaf
  have hnothing : Item.nothing.Within τ := fun _ hj => by cases hj
  obtain ⟨τ', hrun, hc⟩ := connect_closes hs hnothing hend (by simp) (by omega)
  refine ⟨τ', hrun, hc.grows, fun i hi =>
    hc.shows (by simpa using hleaf) hi, hc.size, hc.nextId, ?_⟩
  refine h.rewire (Nat.le_of_eq hc.size.symm) (Nat.le_of_eq hc.nextId.symm) hc.grows.name rfl ?_
  intro x hx
  rcases List.mem_cons.1 hx with rfl | hx
  · obtain ⟨shape, item, hf, -, -, rfl, ⟨-, hlinks⟩ | ⟨hne, -⟩⟩ := h.wired _ List.mem_cons_self
    · obtain ⟨l, -, hnode, hlink⟩ := hc.box List.mem_cons_self hf
      refine ⟨shape, by rw [hnode, hf], .inr ⟨l, ?_, by rw [hlink]⟩⟩
      rw [hnode, hlinks]
      rfl
    · exact absurd rfl hne
  · refine (h.wired x (List.mem_cons_of_mem _ hx)).grow hs hc.grows fun i hi =>
      ⟨?_, (h.inside x (List.mem_cons_of_mem _ hx) i hi).2⟩
    have hnodes := h.nodes
    rw [List.flatMap_cons] at hnodes
    intro he
    obtain rfl := List.mem_singleton.1 he
    exact (List.nodup_append.1 hnodes).2.2 s.node (by simp [Vertex.nodes]) s.node
      (List.mem_flatMap.2 ⟨x, hx, hi⟩) rfl

theorem Holds.connect_leads {next : Option Site} (hs : τ.Sound)
    (h : Holds σ τ (.box s (some ⟨labels, none⟩) :: ys)) (ht : target.Within τ)
    (hl : Leads τ next target) :
    ∃ τ', connect s.node target [] τ = .ok () τ' ∧ Grows [s.node] τ τ' ∧ Shows τ τ' ∧
      τ'.nodes.size = τ.nodes.size ∧ τ'.nextId = τ.nextId ∧
      Holds σ τ' (.box s (next.map fun w => ⟨labels, some w⟩) :: ys) := by
  cases next with
  | none =>
    obtain rfl : target = .nothing := hl
    exact h.connect_nothing hs
  | some w => exact h.connect_box hs ht hl

theorem BoxMade.arrives {shape : Shape} {text : String} (h : BoxMade σ τ s shape text) :
    Arrives τ (.node s.node) s := h.named.arrives h.form

theorem BoxMade.lt_size {shape : Shape} {text : String} (h : BoxMade σ τ s shape text) :
    s.node < τ.nodes.size := by
  have hsize := h.size
  have hnode := h.node
  omega

theorem BoxMade.within {shape : Shape} {text : String} (h : BoxMade σ τ s shape text) :
    (Item.node s.node).Within τ := by
  rintro i ⟨⟩
  exact h.lt_size

theorem BoxMade.holds_open {shape : Shape} {text : String} (h : BoxMade σ τ s shape text)
    (hshape : shape ≠ .jump) : Holds σ τ [.box s (some ⟨[], none⟩)] :=
  (h.row_step hshape).holds

theorem return_row {output : Option Site} {finish : Site} {item head : Item} {g : Nat}
    {d c : String} (hf : (τ.node g).form
      = .group (.returning item (.node finish.node)) head [.node finish.node] d c)
    (hg : σ.nodes.size ≤ g) (hholds : Holds σ τ (Flow.vertices [] (.halt output finish)))
    (hhead : Arrives τ head (output.getD finish)) :
    Row σ τ g g [] (.halt output finish) := by
  have hlt := lt_size_of_isGroup (isGroup_of_form hf)
  have hfinish : Vertex.box finish none ∈ Flow.vertices [] (.halt output finish) := by
    cases output <;> simp [Flow.vertices]
  refine .of_group hf hg hholds hhead rfl ⟨[], ?_, by simp, ?_⟩ (hholds.unfolded hfinish) ?_
  · rw [show τ.nodes.size - σ.nodes.size = (τ.nodes.size - σ.nodes.size - 1) + 1 by omega]
    exact .final hg hlt (by rw [hf]; rfl)
  · cases output <;> simp [Flow.vertices, Vertex.ends]
  · simp [Tagged, hf]

theorem builds_returning (code : Code.Piece) (hasValue : Except Fault Bool) :
    Builds (returning code hasValue) (do
      if ← hasValue then
        let text ← code.text
        return .halt (some ⟨some .returned, outputText (Text.dropLeadingOf "return" text), []⟩)
          ⟨some .returnEnd, "end function return", []⟩
      else return .halt none ⟨some .returnEnd, "end function return", []⟩) := by
  intro σ hσ
  unfold returning
  refine .step (takeId_run σ) ?_
  have hcount := grows_countId hσ
  obtain ⟨b, τ₁, hrun₁, s₁, rfl, hmade₁⟩ :
      Realizes σ.countId (returnEnd code) (.ok "end function return") _ :=
    newCodeBox_realizes (by decide) hcount.sound code (.ok "end function return")
  refine .step hrun₁ ((realizes_ofExcept τ₁ hasValue).bind ?_ ?_) hmade₁.grows.silent
  swap
  · rintro _ _ _ ⟨-, rfl⟩
    exact ⟨rfl, rfl⟩
  rintro value τ value - ⟨rfl, hτ⟩
  rw [hτ]
  have hg₁ := hcount.trans hmade₁.grows
  cases value with
  | false =>
    let τ₂ := τ₁.withGroup (.returning .nothing (.node s₁.node)) (.node s₁.node)
      [.node s₁.node] (some code)
    have hg₂ : Grows [] τ₁ τ₂ := grows_withGroup hg₁.sound _ hmade₁.within _ _
    refine ⟨τ₁.nodes.size, τ₂, newGroup_run τ₁ _ (fun l => by simp) _ _, hg₁.trans hg₂,
      .halt none s₁, ?_, ?_⟩
    · refine return_row (form_withGroup τ₁ _ _ _ _) hg₁.size ?_
        (hg₂.arrives hmade₁.within hmade₁.arrives)
      have hholds : Holds σ.countId τ₁ [.box s₁ none] :=
        hmade₁.holds ⟨_, hmade₁.form, .inl hmade₁.links⟩
      exact (hholds.grow hmade₁.grows.sound hg₂ (by simp)).base hcount.size hcount.nextId
    · rw [Flow.map, hg₂.shows.boxAt hmade₁.lt_size, hmade₁.box]
      rfl
  | true =>
    refine (newCodeBox_map_realizes (by decide) hg₁.sound code
      (outputText ∘ Text.dropLeadingOf "return") code.text).bind ?_
      fun _ _ _ ⟨_, _, hmade⟩ => hmade.grows.silent
    rintro - τ₂ text - ⟨s₂, rfl, hmade₂⟩
    have hholds : Holds σ.countId τ₂ [.box s₂ (some ⟨[], none⟩), .box s₁ none] := by
      have hfinish : Holds σ.countId τ₁ [.box s₁ none] :=
        hmade₁.holds ⟨_, hmade₁.form, .inl hmade₁.links⟩
      exact (Holds.append hmade₁.grows hmade₂.grows (by simp) hfinish
        (hmade₂.holds_open (by decide))).perm (List.Perm.swap _ _ _)
    have harr : Arrives τ₂ (.node s₁.node) s₁ := hmade₂.grows.arrives hmade₁.within hmade₁.arrives
    have hwithin := hmade₂.grows.within hmade₁.within
    obtain ⟨τ₃, hrun₃, hg₃, hshows₃, hsize₃, -, hholds₃⟩ :=
      hholds.connect_box hmade₂.grows.sound hwithin harr
    refine .step hrun₃ ?_ hg₃.silent
    let τ₄ := τ₃.withGroup (.returning (.node s₂.node) (.node s₁.node)) (.node s₂.node)
      [.node s₁.node] (some code)
    have hg₄ : Grows [] τ₃ τ₄ := grows_withGroup hg₃.sound _ (hg₃.within hmade₂.within) _ _
    have hσ₃ : Grows [] σ τ₃ := ((hg₁.trans hmade₂.grows).trans hg₃).drop (by
      have := hmade₂.node
      have := hg₁.size
      simp
      omega)
    refine ⟨τ₃.nodes.size, τ₄, newGroup_run τ₃ _ (fun l => by simp) _ _, hσ₃.trans hg₄,
      .halt (some s₂) s₁, ?_, ?_⟩
    · refine return_row (form_withGroup τ₃ _ _ _ _) hσ₃.size ?_ ?_
      · exact (hholds₃.grow hg₃.sound hg₄ (by simp)).base hcount.size hcount.nextId
      · exact hg₄.arrives (hg₃.within hmade₂.within) (hg₃.arrives hmade₂.within hmade₂.arrives)
    · have hshows := hshows₃.trans hg₄.shows (by omega)
      have hsize := hmade₂.grows.size
      have hs₁ := (hmade₂.grows.shows.trans hshows hsize).boxAt hmade₁.lt_size
      rw [Flow.map, hs₁, hmade₁.box, Option.map_some, hshows.boxAt hmade₂.lt_size, hmade₂.box]
      rfl

section

variable {g : Nat} {start input finish : Site} {text : String} {flows : List (Flow Box)}

theorem routine_front {vs : List (Vertex Site)} {e : Option Site} {head : Item} (hs : τ.Sound)
    (h : Holds σ τ (.box start (some ⟨[], none⟩) :: .box input (some ⟨[], none⟩) :: vs))
    (hinput : Arrives τ (.node input.node) input) (hhead : Leads τ e head)
    (hwithin : head.Within τ) :
    ∃ τ', (do
        connect start.node (.node input.node)
        connect input.node head : Action Unit) τ = .ok () τ' ∧
      Grows [start.node, input.node] τ τ' ∧ Shows τ τ' ∧ τ'.nodes.size = τ.nodes.size ∧
      τ'.nextId = τ.nextId ∧
      Holds σ τ' (.box start (some ⟨[], some input⟩) :: .box input (e.map fun w => ⟨[], some w⟩)
        :: vs) := by
  have hin : (Item.node input.node).Within τ := by
    rintro i ⟨⟩
    exact lt_size_of_named hinput.2
  obtain ⟨τ₁, hrun₁, hg₁, hshows₁, hsize₁, hnext₁, hholds₁⟩ := h.connect_box hs hin hinput
  obtain ⟨τ₂, hrun₂, hg₂, hshows₂, hsize₂, hnext₂, hholds₂⟩ :=
    (hholds₁.perm (List.Perm.swap _ _ _)).connect_leads hg₁.sound (hg₁.within hwithin)
      (hhead.grow hg₁ hwithin)
  exact ⟨τ₂, (bind_ok hrun₁).trans hrun₂, hg₁.trans hg₂,
    hshows₁.trans hshows₂ (Nat.le_of_eq hsize₁.symm), hsize₂.trans hsize₁, hnext₂.trans hnext₁,
    hholds₂.perm (List.Perm.swap _ _ _)⟩

theorem routine_connected (hσ : Grows [] σ ρ)
    (hρ : Holds σ ρ [.box start (some ⟨[], none⟩), .box input (some ⟨[], none⟩)])
    (hinput : Arrives ρ (.node input.node) input) (hg : Grows [] ρ τ)
    (hbody : SuiteEnds ρ τ g flows) (hfinish : BoxMade τ τ' finish .functionEnd text) :
    ∃ head tails τ'' ts, groupEnds g τ = .ok (head, tails) τ ∧ (do
        connect start.node (.node input.node)
        connect input.node head
        tails.forM (connectItem · (.node finish.node)) : Action Unit) τ' = .ok () τ'' ∧
      Grows [] σ τ'' ∧ Shows τ' τ'' ∧ τ''.nodes.size = τ'.nodes.size ∧ τ''.nextId = τ'.nextId ∧
      Holds σ τ'' (Flow.vertices [] (.routine start input ts finish)) ∧
      Flow.mapAll (boxAt τ) ts = flows ∧ ∀ s ∈ Flow.placesAll ts, s.node < τ.nodes.size := by
  have hstart :=
    hρ.inside (.box start (some ⟨[], none⟩)) (by simp) start.node (by simp [Vertex.nodes])
  have hin := hρ.inside (.box input (some ⟨[], none⟩)) (by simp) input.node (by simp [Vertex.nodes])
  have hwithin : (Item.node input.node).Within ρ := by
    rintro i ⟨⟩
    exact hin.2
  have hgτ' := hg.trans hfinish.grows
  have hinput' : Arrives τ' (.node input.node) input := hgτ'.arrives hwithin hinput
  have hall : ∀ {vs}, Holds ρ τ vs → Holds σ τ' (.box start (some ⟨[], none⟩)
      :: .box input (some ⟨[], none⟩) :: (vs ++ [.box finish (some ⟨[], none⟩)])) := fun hvs =>
    Holds.append (hσ.trans hg) hfinish.grows (by simp) (Holds.append hσ hg (by simp) hρ hvs)
      (hfinish.holds_open (by decide))
  cases hbody with
  | empty hrun =>
    have hnothing : Item.nothing.Within τ' := fun _ hj => by cases hj
    obtain ⟨τ₂, hrun₂, hg₂, hshows₂, hsize₂, hnext₂, hholds₂⟩ :=
      routine_front hgτ'.sound (hall (.nil ρ τ)) hinput' (e := none) rfl hnothing
    refine ⟨.nothing, [.nothing], τ₂, [], hrun, ?_, ?_, hshows₂, hsize₂, hnext₂, hholds₂, rfl,
      by simp [Flow.placesAll]⟩
    · rw [← bind_assoc, bind_ok hrun₂]
      rfl
    · exact ((hσ.trans hgτ').trans hg₂).drop (by simp; omega)
  | @row first last front u hform hrow =>
    obtain ⟨f, rest, hlist, henters⟩ := hrow.first_cons
    have hfirst : (Item.node first).Within τ := by
      rintro i ⟨⟩
      exact henters.inside.2
    obtain ⟨τ₂, hrun₂, hg₂, hshows₂, hsize₂, hnext₂, hholds₂⟩ :=
      routine_front hgτ'.sound (hall hrow.holds)
        hinput' (e := some f.entry) (hfinish.grows.arrives hfirst henters.heads)
        (hfinish.grows.within hfirst)
    obtain ⟨F, hF, hnodup, hmem⟩ := hrow.exits
    have hsize := hfinish.grows.size
    have hF₂ : EndsIn τ₂ ρ.nodes.size (τ.nodes.size - ρ.nodes.size) last F := by
      refine hF.transfer (by omega) ?_ (Nat.le_refl _) (Nat.le_refl _)
      intro i hlo hi
      rw [hg₂.node i (by omega) (by simp; omega), hfinish.grows.node i hi (by simp)]
    have hend : (Item.node finish.node).Within τ₂ := hg₂.within hfinish.within
    have hendArr : Arrives τ₂ (.node finish.node) finish :=
      hg₂.arrives hfinish.within hfinish.arrives
    obtain ⟨τ₃, hrun₃, hc⟩ := connect_closes hg₂.sound hend hF₂ hnodup (by omega)
    have hled := (hholds₂.perm (List.perm_append_comm_assoc
      [_, _] (Flow.verticesAll [] (front ++ [u])) [_])).lead hg₂.sound hc
      (by simpa only [ends_verticesAll] using hmem) hend (by simp) hendArr
    refine ⟨.node first, [.node last], τ₃, front ++ [u], groupEnds_run hform, ?_, ?_, ?_,
      hc.size.trans hsize₂,
      hc.nextId.trans hnext₂, ?_, rfl, fun s hs => (hrow.holds.place_inside hs).2⟩
    · rw [← bind_assoc, bind_ok hrun₂]
      exact forM_cons_ok hrun₃
    · refine (((hσ.trans hgτ').trans hg₂).trans hc.grows).drop fun i hi => ?_
      have hσρ := hσ.size
      simp only [List.nil_append, List.cons_append, List.mem_cons] at hi
      rcases hi with rfl | rfl | hi
      · exact hstart.1
      · exact hin.1
      · exact Nat.le_trans hσρ (hF₂.leaves i hi).1.1
    · refine hshows₂.trans (fun i hi => hc.shows ?_ hi) (Nat.le_of_eq hsize₂.symm)
      exact fun i hi => (hF₂.leaves i hi).2
    · rw [Flow.vertices, hlist, Flow.entryOf_cons, ← hlist]
      exact hled.perm (List.perm_append_comm_assoc _ [_, _] [_])

theorem function_closed (code : Code.Piece) {τ₁ : Store} {name params : String} (hσ : σ.Sound)
    (hname : nameOf code = .ok name)
    (hstart : BoxMade σ.countId τ₁ start .functionStart ("start " ++ name))
    (hinput : BoxMade τ₁ ρ input .functionInput ("input: " ++ params)) (hg : Grows [] ρ τ)
    (hbody : SuiteEnds ρ τ g flows) :
    ∃ r τ', (do
        let (head, tails) ← groupEnds g
        let finish ← functionEnd code
        connect start.node (.node input.node)
        connect input.node head
        tails.forM (connectItem · (.node finish))
        newGroup (.function (.node start.node) (.node input.node) head tails (.node finish))
          (.node start.node) [.node finish] (some code) : Action Nat) τ = .ok r τ' ∧
      Built σ r τ' (.routine ⟨some .functionStart, "start " ++ name, []⟩
        ⟨some .functionInput, "input: " ++ params, []⟩ flows
        ⟨some .functionEnd, "end " ++ name, []⟩) ∧
      τ'.nextId = τ.nextId + 3 := by
  have hcount := grows_countId hσ
  obtain ⟨b, τ', hrun', finish, rfl, hfinish⟩ :
      Realizes τ (functionEnd code) (.ok name) _ := by
    rw [← hname]
    exact newCodeBox_map_realizes (by decide) hg.sound code ("end " ++ ·) (nameOf code)
  have hσρ := (hcount.trans hstart.grows).trans hinput.grows
  have hfront : Holds σ ρ [.box start (some ⟨[], none⟩), .box input (some ⟨[], none⟩)] :=
    (Holds.append hstart.grows hinput.grows (by simp) (hstart.holds_open (by decide))
      (hinput.holds_open (by decide))).base hcount.size hcount.nextId
  obtain ⟨head, tails, τ₂, ts, hends, hrun₂, hg₂, hshows₂, hsize₂, hnext₂, hholds₂, rfl, hplaces⟩ :=
    routine_connected hσρ hfront hinput.arrives hg hbody hfinish
  let role : GroupRole :=
    .function (.node start.node) (.node input.node) head tails (.node finish.node)
  let τ₃ := τ₂.withGroup role (.node start.node) [.node finish.node] (some code)
  have hρ₂ : ρ.nodes.size ≤ τ₂.nodes.size :=
    hsize₂ ▸ Nat.le_trans hg.size hfinish.grows.size
  have hwithin : (Item.node start.node).Within τ₂ := by
    rintro i ⟨⟩
    exact Nat.lt_of_lt_of_le (hinput.grows.within hstart.within _ rfl) hρ₂
  have hg₃ : Grows [] τ₂ τ₃ := grows_withGroup hg₂.sound role hwithin _ _
  have hholds₃ := hholds₂.grow hg₂.sound hg₃ (by simp)
  have hnumbered := hholds₃.named (.box start (some ⟨[], some input⟩)) List.mem_cons_self
  obtain ⟨shape, -, hform, -⟩ :=
    hholds₃.wired (.box start (some ⟨[], some input⟩)) List.mem_cons_self
  have hmem : Vertex.box finish (some ⟨[], none⟩)
      ∈ Flow.vertices [] (.routine start input ts finish) := by simp [Flow.vertices]
  refine ⟨τ₂.nodes.size, τ₃, (bind_ok hends).trans ((bind_ok hrun').trans ?_), ⟨hg₂.trans hg₃,
    .routine start input ts finish, .of_group (form_withGroup τ₂ _ _ _ _) hg₂.size hholds₃
      (hnumbered.arrives hform) rfl ?_ (hholds₃.unfolded hmem) ?_, ?_⟩, ?_⟩
  · have hrun := bind_ok hrun₂ (k := fun _ => newGroup role (.node start.node)
      [.node finish.node] (some code))
    simp only [bind_assoc] at hrun
    exact hrun.trans (newGroup_run τ₂ _ (fun l => by simp) _ _)
  · obtain ⟨hleaf, hlt⟩ := hholds₃.leaf hmem
    have hend : EndsIn τ₃ σ.nodes.size 1 finish.node [finish.node] :=
      .leaf (hholds₃.inside _ hmem _ (by simp [Vertex.nodes])).1 hlt hleaf
    refine .of_tails hg₂.size (by rw [form_withGroup]; rfl) (by simp [τ₃])
      (.cons hend .nil) ?_ (by simp) ?_
    · have hfirst :=
        hholds₂.inside (.box start (some ⟨[], some input⟩)) List.mem_cons_self start.node
          (by simp [Vertex.nodes])
      have hmore : τ₃.nodes.size = τ₂.nodes.size + 1 := by simp [τ₃]
      omega
    · intro e
      rw [Flow.vertices, List.flatMap_cons, List.flatMap_cons, List.flatMap_append,
        flatMap_ends_lead]
      cases Flow.entryOf ts <;> simp [Vertex.ends]
  · simp [Tagged, τ₃, role]
  · have hshows₃ : Shows τ' τ₃ := hshows₂.trans hg₃.shows (Nat.le_of_eq hsize₂.symm)
    have hshows : Shows τ τ₃ := hfinish.grows.shows.trans hshows₃ hfinish.grows.size
    have hinput₃ : Shows ρ τ₃ := hg.shows.trans hshows hg.size
    have hstart₃ : Shows τ₁ τ₃ := hinput.grows.shows.trans hinput₃ hinput.grows.size
    have hts : Flow.mapAll (boxAt τ₃) ts = Flow.mapAll (boxAt τ) ts :=
      Flow.mapAll_congr ts fun s hs => hshows.boxAt (hplaces s hs)
    rw [Flow.map, hstart₃.boxAt hstart.lt_size, hinput₃.boxAt hinput.lt_size, hts,
      hshows₃.boxAt hfinish.lt_size, hstart.box, hinput.box, hfinish.box]
  · show τ₂.nextId + 1 = τ.nextId + 3
    rw [hnext₂, newCodeBox_nextId hrun']

end

theorem builds_function (code : Code.Piece) {body : Action Nat}
    {spec : Except Fault (List (Flow Box))} (h : BuildsSuite body spec) :
    Builds (function code body) (do
      let name ← nameOf code
      let input ← paramNames code
      let body ← spec
      return .routine ⟨some .functionStart, "start " ++ name, []⟩
        ⟨some .functionInput, "input: " ++ input, []⟩ body
        ⟨some .functionEnd, "end " ++ name, []⟩) := by
  intro σ hσ
  unfold function
  refine .step (takeId_run σ) ?_
  have hcount := grows_countId hσ
  refine (newCodeBox_map_realizes (by decide) hcount.sound code ("start " ++ ·)
    (nameOf code)).bind ?_
    fun _ _ _ ⟨_, _, hmade⟩ => hmade.grows.silent
  rintro - τ₁ name hname ⟨start, rfl, hstart⟩
  refine (newCodeBox_map_realizes (by decide) hstart.grows.sound code ("input: " ++ ·)
    (paramNames code)).bind ?_ fun _ _ _ ⟨_, _, hmade⟩ => hmade.grows.silent
  rintro - ρ params - ⟨input, rfl, hinput⟩
  refine (h ρ hinput.grows.sound).bind ?_ fun _ _ _ hsuite => hsuite.1.silent
  rintro g τ flows - ⟨hg, hbody⟩
  obtain ⟨r, τ', hrun, hbuilt, -⟩ := function_closed code hσ hname hstart hinput hg hbody
  exact .ok hrun hbuilt

end CodeChart.Chart
