import CodeChart.Proofs.Tests

/-! Loops. The body of a loop leads back to the test, and the answer `no` is the way out. -/
namespace CodeChart.Chart

open CodeChart.Graph

variable {σ τ τ' : Store} {E : List Nat} {t b l : Nat} {yes no : Item} {links : List Item}
  {text name : String}

/-- Whether the body of a loop is one box that leads back to the test. -/
def LoopHead (τ : Store) (t first : Nat) (ts : List (Flow Site)) : Prop :=
  (∃ v shape l, ts = [.step v] ∧ first = v.node ∧ (τ.node first).form = .box shape ∧
    (τ.node first).links = [.link l] ∧ (τ.link l).target = .node t) ∨
  (∀ v, ts ≠ [.step v]) ∧ ((τ.node first).isGroup = true ∨ ∃ shape,
    (τ.node first).form = .box shape ∧
      ∀ l, (τ.node first).links = [.link l] → (τ.link l).target ≠ .node t)

/-- The body of a loop has been built since `σ` and leads back to the test. -/
structure LoopBody (σ τ : Store) (t y b head : Nat) (ts : List (Flow Site)) : Prop where
  grows : Grows [t] σ τ
  yes : Answered τ t b y "yes" (.node head)
  bridge : σ.nodes.size ≤ b ∧ b < τ.nodes.size
  inside : σ.nodes.size ≤ head ∧ head < τ.nodes.size
  entry : ∃ e, Flow.entryOf ts = some e ∧ Arrives τ (.node head) e
  holds : ∀ s : Site, s.node = t →
    Holds σ τ ((Flow.verticesAll ["left"] ts).map (Vertex.lead (some s)))
  apart : ∀ i ∈ (Flow.verticesAll ["left"] ts).flatMap Vertex.nodes, i ≠ b
  shape : LoopHead τ t head ts

theorem LoopBody.base {ρ : Store} {y first : Nat} {ts : List (Flow Site)} (hg : Grows [] σ ρ)
    (h : LoopBody ρ τ t y b first ts) : LoopBody σ τ t y b first ts :=
  { h with
    grows := hg.trans h.grows
    bridge := ⟨Nat.le_trans hg.size h.bridge.1, h.bridge.2⟩
    inside := ⟨Nat.le_trans hg.size h.inside.1, h.inside.2⟩
    holds := fun s hs => (h.holds s hs).base hg.size hg.nextId }

theorem loopHead_of_holds {first : Nat} {f : Flow Site} {rest : List (Flow Site)}
    (harr : Arrives τ (.node first) f.entry) (hplain : first = f.entry.node ↔ f.isPlain = true)
    (hholds : ∀ s : Site, s.node = t →
      Holds σ τ ((Flow.verticesAll ["left"] (f :: rest)).map (Vertex.lead (some s))))
    (ht : t < σ.nodes.size) (htest : (τ.node t).isGroup = false)
    (hback : ∀ v, f = .step v → rest = [] →
      ∃ l, (τ.node v.node).links = [.link l] ∧ (τ.link l).target = .node t) :
    LoopHead τ t first (f :: rest) := by
  have hholds := hholds ⟨t, 0, 0, 0, []⟩ rfl
  cases hf : f.isPlain with
  | false =>
    refine .inr ⟨?_, .inl (isGroup_of_not_plain harr hplain hf)⟩
    rintro v ⟨⟩
    cases hf
  | true =>
    have hfirst := hplain.2 hf
    cases f with
    | step v =>
      obtain rfl : first = v.node := hfirst
      cases rest with
      | nil =>
        obtain ⟨l, hlinks, htarget⟩ := hback v rfl rfl
        obtain ⟨shape, item, hform, -⟩ := hholds.wired
          (.box v (some ⟨["left"], some ⟨t, 0, 0, 0, []⟩⟩)) List.mem_cons_self
        exact .inl ⟨v, shape, l, rfl, rfl, hform, hlinks, htarget⟩
      | cons w rest =>
        obtain ⟨shape, item, hform, -, -, harr', hlinks⟩ := hholds.wired
          (.box v (some ⟨[], some w.entry⟩)) List.mem_cons_self
        refine .inr ⟨by simp, .inr ⟨shape, hform, ?_⟩⟩
        intro l hl htarget
        have hw : w.entry.node = t := by
          rcases hlinks with ⟨-, hlinks⟩ | ⟨-, l', hlinks, hlink⟩
          · rw [hlinks] at hl
            cases hl
          · rw [hlinks] at hl
            cases hl
            rw [hlink] at htarget
            obtain rfl : item = .node t := htarget
            exact harr'.1.unique (.of_not_group htest)
        have hmem : w.entry ∈ (Flow.verticesAll ["left"] (Flow.step v :: w :: rest)).map
            Vertex.place := by
          rw [Flow.verticesAll_cons ["left"] _ (by simp), List.map_append]
          exact List.mem_append_right _ (Flow.mem_of_entryOf ["left"] (w :: rest) rfl)
        rw [← Flow.map_place_lead (some ⟨t, 0, 0, 0, []⟩)] at hmem
        have := (hholds.place_bound hmem).1
        omega
    | jump v =>
      obtain rfl : first = v.node := hfirst
      have hmem : Vertex.box v none
          ∈ (Flow.verticesAll ["left"] (Flow.jump v :: rest)).map
            (Vertex.lead (some ⟨t, 0, 0, 0, []⟩)) := by
        cases rest <;> exact List.mem_cons_self
      obtain ⟨shape, hform, hlinks⟩ := hholds.wired _ hmem
      refine .inr ⟨by simp, .inr ⟨shape, hform, ?_⟩⟩
      intro l hl htarget
      rcases hlinks with hlinks | ⟨l', hlinks, hnothing⟩
      · rw [hlinks] at hl
        cases hl
      · rw [hlinks] at hl
        cases hl
        rw [hnothing] at htarget
        cases htarget
    | _ => cases hf

theorem loop_row {ρ : Store} {first last : Nat} {front : List (Flow Site)} {u : Flow Site}
    (hg : Grows [] ρ τ) (h : Row ρ τ first last front u)
    (hn : IsTest (τ.node t) .loop .nothing .nothing [] text name) (hname : name ≠ "")
    (ht : t < ρ.nodes.size) :
    ∃ τ' y b, (do
        let _ ← connectAnswer t .yes (.node first)
        [Item.node last].forM (loopBack t) : Action Unit) τ = .ok () τ' ∧
      LoopBody ρ τ' t y b first (front ++ [u]) ∧
      IsTest (τ'.node t) .loop (.link y) .nothing [.link y] text name ∧
      Flow.mapAll (boxAt τ') (front ++ [u]) = Flow.mapAll (boxAt τ) (front ++ [u]) ∧
      τ'.nextId = τ.nextId + 1 := by
  obtain ⟨f, rest, hlist, henters⟩ := h.first_cons
  have hfirst : (Item.node first).Within τ := by
    rintro i ⟨⟩
    exact henters.inside.2
  obtain ⟨τ₁, hrun₁, hg₁, hsize₁, hcount₁, hn₁, hans₁⟩ := answer_step hg.sound hn .yes hfirst
  have hbefore : ∀ i ∈ [t], i < ρ.nodes.size := by simpa using ht
  have hrow₁ := h.grow hg.sound hg₁ hbefore
  have hname₁ : (τ₁.node t).name ≠ "" := by rwa [hn₁.name]
  obtain ⟨τ₂, F, hrun₂, hg₂, hF, hsize₂, hcount₂, hholds, hboxes, hback⟩ :=
    hrow₁.back hg₁.sound hn₁.not_group hname₁
  have hFin : ∀ i ∈ F, ρ.nodes.size ≤ i ∧ i < τ.nodes.size := fun i hi => h.inside (hF i hi)
  have htF : t ∉ F := fun hmem => by
    have := (hFin t hmem).1
    omega
  have hbF : τ.nodes.size ∉ F := fun hmem => by
    have := (hFin _ hmem).2
    omega
  have harr : Arrives τ₂ (.node first) f.entry :=
    hg₂.arrives (hg₁.within hfirst) (hg₁.arrives hfirst henters.heads)
  have hn₂ := hn₁.grow hg₂ htF
  refine ⟨τ₂, τ.links.size + 1, τ.nodes.size, ?_, ⟨?_, ?_, ?_, ?_, ?_, hholds, ?_, ?_⟩, hn₂,
    ?_, hcount₂.trans hcount₁⟩
  · rw [bind_ok hrun₁]
    exact forM_cons_ok hrun₂
  · refine ((hg.trans hg₁).trans hg₂).restrict fun i hi => ?_
    rcases List.mem_append.1 hi with hi | hi
    · exact .inl hi
    · exact .inr (hFin i hi).1
  · exact hans₁.grow hg₁.sound hg₂ hbF
  · have := hg.size
    omega
  · have := henters.inside
    omega
  · exact ⟨f.entry, by rw [hlist]; rfl, harr⟩
  · intro i hi he
    rw [nodes_verticesAll] at hi
    obtain ⟨x, hx, hi⟩ := List.mem_flatMap.1 hi
    have := (h.holds.inside x hx i hi).2
    omega
  · rw [hlist] at hholds ⊢
    refine loopHead_of_holds harr henters.plain hholds ht hn₂.not_group ?_
    rintro v rfl rfl
    have hu : u = .step v := by
      cases front with
      | nil => simpa using hlist
      | cons w front => simp at hlist
    exact hback v hu
  · rw [hboxes]
    exact h.boxes_grow hg₁ hbefore

theorem loop_idle (hs : τ.Sound) (hn : IsTest (τ.node t) .loop .nothing .nothing [] text name)
    (hname : name ≠ "") :
    ∃ τ' y b first v, (do
        let idle ← newBox .subroutine "no-op"
        loopBack t (.node idle)
        let _ ← connectAnswer t .yes (.node idle) : Action Unit) τ = .ok () τ' ∧
      LoopBody τ τ' t y b first [.step v] ∧
      IsTest (τ'.node t) .loop (.link y) .nothing [.link y] text name ∧
      boxAt τ' v = ⟨some .subroutine, "no-op", []⟩ ∧ τ'.nextId = τ.nextId + 2 := by
  have ht := hn.lt_size
  let τ₁ := τ.withBox .subroutine "no-op" none
  let s : Site := ⟨τ.nodes.size, τ.nextId, 0, 0, []⟩
  have hmade : BoxMade τ τ₁ s .subroutine "no-op" := newBox_made (by decide) hs "no-op" none
  have hg₁ : Grows [] τ τ₁ := hmade.grows
  have hsize₁ : τ₁.nodes.size = τ.nodes.size + 1 := hmade.size
  have hn₁ := hn.grow hg₁ (by simp)
  have hrow : Row τ τ₁ s.node s.node [] (.step s) := hmade.row_step (by decide)
  obtain ⟨τ₂, F, hrun₂, hg₂, hF, hsize₂, hcount₂, hholds, hboxes, hback⟩ :=
    hrow.back hg₁.sound hn₁.not_group (by rwa [hn₁.name])
  have hFs : ∀ i ∈ F, i = τ.nodes.size := fun i hi => by
    rcases hF i hi with he | he
    · exact he
    · simpa [Flow.vertices, Vertex.ends] using he
  have htF : t ∉ F := fun hmem => by
    have := hFs t hmem
    omega
  have hn₂ := hn₁.grow hg₂ htF
  have hidle : (Item.node s.node).Within τ₂ := by
    rintro i ⟨⟩
    show τ.nodes.size < τ₂.nodes.size
    omega
  obtain ⟨τ₃, hrun₃, hg₃, hsize₃, hcount₃, hn₃, hans₃⟩ := answer_step hg₂.sound hn₂ .yes hidle
  have hkeep : τ₃.node s.node = τ₂.node s.node := hg₃.node _ (hidle _ rfl) (by simp [s]; omega)
  obtain ⟨l, hlinks, htarget⟩ := hback s rfl
  have hl : l < τ₂.links.size := by
    obtain ⟨l', he, hlt⟩ := (hg₂.sound.fits s.node).links (.link l) (by
      obtain ⟨shape, item, hform, -⟩ := (hholds ⟨t, 0, 0, 0, []⟩ rfl).wired _ List.mem_cons_self
      simp [Node.ownLinks, hform, hlinks])
    cases he
    exact hlt
  refine ⟨τ₃, τ₂.links.size + 1, τ₂.nodes.size, s.node, s, ?_,
    ⟨?_, hans₃, ?_, ?_, ?_, ?_, ?_, ?_⟩, hn₃,
    ?_, by rw [hcount₃, hcount₂]; rfl⟩
  · rw [bind_ok (newBox_run τ .subroutine "no-op" none)]
    refine (bind_ok hrun₂).trans ?_
    exact bind_ok hrun₃
  · refine ((hg₁.trans hg₂).trans hg₃).restrict fun i hi => ?_
    rcases List.mem_append.1 hi with hi | hi
    · exact .inr (Nat.le_of_eq (hFs i hi).symm)
    · exact .inl hi
  · omega
  · show τ.nodes.size ≤ τ.nodes.size ∧ τ.nodes.size < τ₃.nodes.size
    omega
  · refine ⟨s, rfl, hg₃.arrives hidle (hg₂.arrives ?_ (hmade.named.arrives hmade.form))⟩
    rintro i ⟨⟩
    exact hrow.leave.inside.2
  · intro s' hs'
    refine (hholds s' hs').grow hg₂.sound hg₃ fun x hx i hi => ?_
    have := ((hholds s' hs').inside x hx i hi).1
    simp
    omega
  · intro i hi
    obtain rfl : i = s.node := by simpa [Flow.vertices, Vertex.nodes] using hi
    show τ.nodes.size ≠ τ₂.nodes.size
    omega
  · obtain ⟨shape, item, hform, -⟩ := (hholds ⟨t, 0, 0, 0, []⟩ rfl).wired _ List.mem_cons_self
    refine .inl ⟨s, shape, l, rfl, rfl, ?_, ?_, ?_⟩
    · rw [hkeep]
      exact hform
    · rw [hkeep, hlinks]
    · rw [hg₃.link l hl, htarget]
  · have hbox : boxAt τ₂ s = boxAt τ₁ s := by
      simpa [Flow.mapAll, Flow.map] using hboxes
    rw [boxAt, hkeep]
    exact hbox.trans hmade.box

theorem loopBody_realizes {body : Action Nat} {spec : Except Fault (List (Flow Box))}
    (h : BuildsSuite body spec) (hσ : σ.Sound)
    (hn : IsTest (σ.node t) .loop .nothing .nothing [] text name) (hname : name ≠ "") :
    Realizes σ (loopBody t body) (orIdle <$> spec) fun _ τ flows => ∃ ts y b first,
      LoopBody σ τ t y b first ts ∧
      IsTest (τ.node t) .loop (.link y) .nothing [.link y] text name ∧
      Flow.mapAll (boxAt τ) ts = flows := by
  unfold loopBody
  rw [← bind_pure_comp]
  refine (h σ hσ).bind (fun g τ₁ flows hspec hsuite => ?_) fun _ _ _ hsuite => hsuite.1.silent
  obtain ⟨hg₁, hends⟩ := hsuite
  have hn₁ := hn.grow hg₁ (by simp)
  cases hends with
  | empty hrun =>
    refine .step hrun ?_
    obtain ⟨τ₂, y, b, first, v, hrun₂, hbody, hn₂, hbox, -⟩ := loop_idle hg₁.sound hn₁ hname
    refine ⟨(), τ₂, ?_, [.step v], y, b, first, hbody.base hg₁, hn₂, ?_⟩
    · exact hrun₂
    · simp [Flow.mapAll, Flow.map, hbox, orIdle]
  | @row first₁ last₁ front₁ u₁ hform₁ hrow₁ =>
    refine .step (groupEnds_run hform₁) ?_
    -- the first result is dropped; the second has the same outline
    have hagain := h τ₁ hg₁.sound
    rw [hspec] at hagain
    obtain ⟨g₂, τ₂, hrun₂, hg₂, hends₂⟩ := hagain
    have hn₂ := hn₁.grow hg₂ (by simp)
    generalize hflows : Flow.mapAll (boxAt τ₁) (front₁ ++ [u₁]) = flows at hends₂
    cases hends₂ with
    | empty _ => simp [Flow.mapAll_eq] at hflows
    | @row first last front u hform hrow =>
      obtain ⟨τ₄, y, b, hrun₄, hbody, hn₄, hboxes, -⟩ :=
        loop_row hg₂ hrow hn₂ hname hn₁.lt_size
      refine ⟨(), τ₄, ?_, front ++ [u], y, b, first, hbody.base hg₁, hn₄, ?_⟩
      · refine (bind_ok hrun₂).trans ((bind_ok (groupEnds_run hform)).trans ?_)
        exact hrun₄
      · rw [hboxes]
        cases front <;> simp [Flow.mapAll, orIdle]

def oneStep {V : Type} : List (Flow V) → Bool
  | [.step _] => true
  | _ => false

theorem oneStep_eq_false {ts : List (Flow Site)} (h : ∀ v, ts ≠ [.step v]) :
    oneStep ts = false := by
  unfold oneStep
  split
  · next v => exact absurd rfl (h v)
  · rfl

theorem nextOf_run (l : Nat) : nextOf (.link l) τ = .ok (τ.link l).target τ := rfl

theorem loopIsOneLine_run (hs : τ.Sound) {y first : Nat} {ts : List (Flow Site)}
    (hn : IsTest (τ.node t) .loop (.link y) no links text name)
    (hy : Answered τ t b y "yes" (.node first)) (hh : LoopHead τ t first ts) :
    loopIsOneLine t τ = .ok (oneStep ts) τ := by
  unfold loopIsOneLine orPrinted
  apply tryCatch_ok
  refine (bind_ok (yesOf_run hs hn)).trans ((bind_ok (plainBody_run hy)).trans ?_)
  rcases hh with ⟨v, shape, l, rfl, -, hf, hlinks, htarget⟩ | ⟨hne, hgroup | ⟨shape, hf, hlinks⟩⟩
  · rw [hf]
    refine (bind_ok (linksOf_run τ first (hs.fits first).whole)).trans ?_
    rw [ownLinks_box hf, hlinks]
    refine (bind_ok (nextOf_run l)).trans ?_
    rw [htarget]
    simp only [oneStep, beq_self_eq_true]
    rfl
  · rw [oneStep_eq_false hne, show (τ.node first).form.isGroup = true from hgroup]
    rfl
  · rw [oneStep_eq_false hne, hf]
    refine (bind_ok (linksOf_run τ first (hs.fits first).whole)).trans ?_
    have hown := (hs.fits first).links
    rw [ownLinks_box hf] at hown ⊢
    match hl : (τ.node first).links with
    | [] => rfl
    | [back] =>
      obtain ⟨l, rfl, -⟩ := hown back (by simp [hl])
      refine (bind_ok (nextOf_run l)).trans ?_
      have hback : ((τ.link l).target == Item.node t) = false := by simpa using hlinks l hl
      rw [hback]
      rfl
    | _ :: _ :: _ => rfl

section

variable {g y first : Nat} {ts : List (Flow Site)} {head : Item} {tails : List Item} {d c : String}
  (hs : τ.Sound)
  (hg : (τ.node g).form = .group (.loop (.node t)) head tails d c)
  (hn : IsTest (τ.node t) .loop (.link y) no links text name)
  (hy : Answered τ t b y "yes" (.node first)) (hh : LoopHead τ t first ts)
include hs hg hn hy hh

theorem simplify_loop_run {τ' : Store} (hrun : (do
      if oneStep ts then
        let (body, condition) ← bodyAndTest (.node t)
        replaceBy g (loopText body condition) "" : Action Unit) τ = .ok () τ') :
    simplify g τ = .ok () τ' := by
  have hask : isOneLine (.node t) τ = .ok (oneStep ts) τ := by
    unfold isOneLine
    refine (bind_ok (getNode_run τ t)).trans ?_
    rw [hn.form]
    exact loopIsOneLine_run hs hn hy hh
  unfold simplify
  rw [bind_ok (getNode_run τ g), hg]
  apply tryCatch_ok
  refine (bind_ok (present_run τ g "cond_node" (Item.node t) (hs.fits g).whole)).trans ?_
  exact (bind_ok hask).trans hrun

end

theorem LoopHead.grow (hs : τ.Sound) {first : Nat} {ts : List (Flow Site)} (hg : Grows E τ τ')
    (hE : first ∉ E) (hlt : first < τ.nodes.size) (h : LoopHead τ t first ts) :
    LoopHead τ' t first ts := by
  have hsame := hg.node first hlt hE
  have hlink : ∀ {shape l}, (τ.node first).form = .box shape → (τ.node first).links = [.link l] →
      τ'.link l = τ.link l := by
    intro shape l hf hl
    obtain ⟨l', he, hlt⟩ := (hs.fits first).links (.link l) (by rw [ownLinks_box hf, hl]; simp)
    cases he
    exact hg.link l hlt
  rcases h with ⟨v, shape, l, hts, hv, hf, hl, ht⟩ | ⟨hne, hgroup | ⟨shape, hf, hl⟩⟩
  · refine .inl ⟨v, shape, l, hts, hv, ?_, ?_, ?_⟩
    · rw [hsame, hf]
    · rw [hsame, hl]
    · rw [hlink hf hl, ht]
  · refine .inr ⟨hne, .inl ?_⟩
    rw [hsame, hgroup]
  · refine .inr ⟨hne, .inr ⟨shape, ?_, fun l hl' => ?_⟩⟩
    · rw [hsame, hf]
    · rw [hsame] at hl'
      rw [hlink hf hl']
      exact hl l hl'

theorem LoopBody.places {y first : Nat} {ts : List (Flow Site)} (h : LoopBody σ τ t y b first ts) :
    ∀ s ∈ Flow.placesAll ts, σ.nodes.size ≤ s.node ∧ s.node < τ.nodes.size := by
  intro s hs
  refine (h.holds ⟨t, 0, 0, 0, []⟩ rfl).place_bound ?_
  rwa [Flow.map_place_lead, Flow.map_place_verticesAll]

theorem LoopBody.row {ρ : Store} {g y n first number : Nat} {ts : List (Flow Site)}
    (h : LoopBody ρ τ t y b first ts) (hσ : Grows [] σ ρ) (hg : Grows [t, g] τ τ')
    (hn : IsTest (τ'.node t) .loop (.link y) (.link n) [.link y, .link n] text
      ("cond" ++ toString number))
    (hno : Answered τ' t τ.nodes.size n "no" .nothing)
    (hf : (τ'.node g).form = .group (.loop (.node t)) (.node t) [.node τ.nodes.size] "" "")
    (htin : σ.nodes.size ≤ t ∧ t < ρ.nodes.size) (hgin : σ.nodes.size ≤ g ∧ g < ρ.nodes.size)
    (hcount : σ.nextId ≤ number ∧ number < ρ.nextId) :
    ∃ s : Site, s.node = t ∧ Row σ τ' g g [] (.loop s ts) ∧
      Flow.mapAll (boxAt τ') ts = Flow.mapAll (boxAt τ) ts ∧
      Answered τ' t b y "yes" (.node first) ∧ LoopHead τ' t first ts := by
  let s : Site := ⟨t, number, b, τ.nodes.size, []⟩
  have hsizes := h.grows.size
  have hσsize := hσ.size
  have hbin := h.bridge
  have hbefore : ∀ i ∈ [t, g], i < ρ.nodes.size := by simpa using ⟨htin.2, hgin.2⟩
  have hafter : ∀ i, ρ.nodes.size ≤ i → i ∉ [t, g] := fun i hi hmem => by
    have := hbefore i hmem
    omega
  have hout : τ.nodes.size < τ'.nodes.size := hg.sound.targets n _ hno.link
  have hyes := h.yes.grow h.grows.sound hg (hafter b hbin.1)
  have hold := h.holds s rfl
  have hholds := hold.grow h.grows.sound hg fun x hx i hi => hafter i (hold.inside x hx i hi).1
  obtain ⟨e, he, harr⟩ := h.entry
  have harr' : Arrives τ' (.node first) e := hg.arrives (by rintro i ⟨⟩; exact h.inside.2) harr
  have hvertex : VertexAt τ' (.test s (some (some e)) none) :=
    ⟨.loop, y, n, hn.form, hn.links, hyes.answerAt (by decide) harr', hno.answerAt (by decide) rfl⟩
  have hnumbered : Numbered τ' s := ⟨"cond", by simp, hn.name⟩
  have hflow : Flow.vertices [] (.loop s ts) = .test s (some (some e)) none
      :: (Flow.verticesAll ["left"] ts).map (Vertex.lead (some s)) := by
    rw [Flow.vertices, he]
  obtain ⟨k, hbridge, -⟩ := hno.bridge
  have hplain : (τ'.node τ.nodes.size).isGroup = false := by
    rw [Node.isGroup, hbridge]
    rfl
  refine ⟨s, rfl, .of_group hf hgin.1 ?_ ?_ rfl ?_ (.single (by omega) hout hplain) ?_,
    mapAll_boxAt_grow hg hbefore h.places, hyes,
    h.shape.grow h.grows.sound hg (hafter first h.inside.1) h.inside.2⟩
  · rw [hflow]
    refine hholds.cons_test hσ (Nat.le_trans h.grows.nextId hg.nextId) (by omega)
      hvertex hnumbered htin
      hcount ?_ ?_ ?_
    · simp [bridges, s]
      omega
    · simp [bridges, s]
      omega
    · intro i hi x hx hmem
      obtain ⟨x', hx', rfl⟩ := List.mem_map.1 hx
      rw [nodes_lead] at hmem
      have hlt := (hold.inside _ hx i (by rwa [nodes_lead])).2
      have hne := h.apart i (List.mem_flatMap.2 ⟨x', hx', hmem⟩)
      simp [bridges, s] at hi
      omega
  · exact ⟨.of_not_group hn.not_group, hnumbered.name_ne⟩
  · have hleaf : EndsIn τ' σ.nodes.size 1 τ.nodes.size [τ.nodes.size] :=
      .leaf (by omega) hout (by rw [hbridge]; rfl)
    refine .of_tails hgin.1 (by rw [hf]; rfl) (by omega) (.cons hleaf .nil) (by omega) (by simp) ?_
    rw [hflow, List.flatMap_cons, flatMap_ends_lead]
    simp [Vertex.ends, s]
  · simp [Tagged, hf]

theorem loopFlow_of_not_step (options : Options) (test : Box) {ts : List (Flow Site)}
    (h : (options.simplify && oneStep ts) = false) :
    loopFlow options test (Flow.mapAll (boxAt τ) ts) = .loop test (Flow.mapAll (boxAt τ) ts) := by
  unfold loopFlow
  split
  · next b hopt hts =>
    match ts, hts with
    | [.step v], _ => simp [hopt, oneStep] at h
  · rfl

theorem loop_closed (options : Options) {ρ : Store} {g y first number : Nat} {ts : List (Flow Site)}
    (hσ : σ.Sound) (ho : Opened σ ρ t g number .loop (.loop (.node t)) text)
    (hbody : LoopBody ρ τ t y b first ts)
    (hn : IsTest (τ.node t) .loop (.link y) .nothing [.link y] text ("cond" ++ toString number)) :
    ∃ τ', (do
        let out ← connectAnswer t .no .nothing
        setTails g (· ++ [.node out])
        if options.simplify then simplify g
        return g : Action Nat) τ = .ok g τ' ∧
      Built σ g τ' (loopFlow options ⟨none, text, []⟩ (Flow.mapAll (boxAt τ) ts)) ∧
      τ'.nextId = τ.nextId + 1 + (options.simplify && oneStep ts).toNat := by
  obtain ⟨hσt, htg, hgρ⟩ := ho.inside
  have hnothing : Item.nothing.Within τ := fun _ hj => by cases hj
  obtain ⟨τ₃, hrun₃, hg₃, hsize₃, hnext₃, hn₃, hno₃⟩ :=
    answer_step hbody.grows.sound hn .no hnothing
  let τ₄ :=
    τ₃.mapNode g (·.regroup fun role head tails => (role, head, tails ++ [.node τ.nodes.size]))
  have hg₄ : Grows [g] τ₃ τ₄ := grows_regroup hg₃.sound fun _ _ _ => rfl
  have hρ := hbody.grows.size
  have hform₄ : (τ₄.node g).form
      = .group (.loop (.node t)) (.node t) [.node τ.nodes.size] "" "" := by
    have hkeep : (τ₃.node g).form = .group (.loop (.node t)) (.node t) [] "" "" := by
      rw [hg₃.node g (by omega) (by simpa using Nat.ne_of_gt htg),
        hbody.grows.node g hgρ (by simpa using Nat.ne_of_gt htg), ho.form]
    exact form_regroup hkeep _
  have hn₄ := hn₃.grow hg₄ (by simpa using Nat.ne_of_lt htg)
  have hno₄ : Answered τ₄ t τ.nodes.size (τ.links.size + 1) "no" .nothing :=
    hno₃.grow hg₃.sound hg₄ (by simp; omega)
  obtain ⟨s, hs, hrow, hboxes, hyes, hhead⟩ := hbody.row ho.grows (hg₃.trans hg₄) hn₄ hno₄ hform₄
    (by omega) (by omega) ho.counted
  have hlater := Nat.le_trans hbody.grows.nextId (hg₃.trans hg₄).nextId
  have hgσ₄ : Grows [] σ τ₄ :=
    (ho.grows.trans (hbody.grows.trans (hg₃.trans hg₄))).drop (by simp; omega)
  have hstart : ∀ {τ'}, (do
        if options.simplify then simplify g
        return g : Action Nat) τ₄ = .ok g τ' →
      (do
        let out ← connectAnswer t .no .nothing
        setTails g (· ++ [.node out])
        if options.simplify then simplify g
        return g : Action Nat) τ = .ok g τ' := fun hrun =>
    (bind_ok hrun₃).trans ((bind_ok (setTails_run g _)).trans hrun)
  cases hone : options.simplify && oneStep ts with
  | false =>
    refine ⟨τ₄, hstart ?_, ⟨hgσ₄, .loop s ts, hrow, ?_⟩, hnext₃⟩
    · cases hopt : options.simplify with
      | false => rfl
      | true =>
        rw [hopt, Bool.true_and] at hone
        refine bind_ok (simplify_loop_run hgσ₄.sound hform₄ hn₄ hyes hhead ?_)
        rw [hone]
        rfl
    · rw [loopFlow_of_not_step options _ hone, Flow.map, hboxes, hn₄.boxAt hs]
  | true =>
    obtain ⟨hopt, hone⟩ := Bool.and_eq_true_iff.1 hone
    rcases hhead with ⟨v, shape, l, rfl, rfl, hv⟩ | ⟨hne, -⟩
    · obtain ⟨τ₅, s', hrun₅, hg₅, hrow₅, hbox₅, hnext₅, -⟩ := replaceBy_row false hσ hgσ₄ hform₄ hn₄
        (by omega) hσt ⟨ho.counted.1, Nat.lt_of_lt_of_le ho.counted.2 hlater⟩
          (loopText (τ₄.node v.node).text text)
      refine ⟨τ₅, hstart ?_, ⟨hg₅, .merged false s', hrow₅, ?_⟩, ?_⟩
      · rw [hopt]
        refine bind_ok (simplify_loop_run hgσ₄.sound hform₄ hn₄ hyes
          (.inl ⟨v, shape, l, rfl, rfl, hv⟩) ?_)
        exact (bind_ok (bodyAndTest_run hgσ₄.sound hn₄ hyes hv.1)).trans hrun₅
      · have hbox : boxAt τ₄ v = boxAt τ v := by simpa [Flow.mapAll, Flow.map] using hboxes
        have htext : (τ₄.node v.node).text = (boxAt τ v).text := congrArg Box.text hbox
        simp only [Flow.map, Flow.mapAll, loopFlow, hopt, hbox₅, htext]
      · rw [hnext₅]
        exact congrArg (· + 1) hnext₃
    · rw [oneStep_eq_false hne] at hone
      cases hone

theorem builds_loop (options : Options) (code : Code.Piece) {body : Action Nat}
    {spec : Except Fault (List (Flow Box))} (h : BuildsSuite body spec) :
    Builds (loop options code body) (do
      let test ← code.header
      let flows ← spec
      return loopFlow options ⟨none, test, []⟩ (orIdle flows)) := by
  intro σ hσ
  unfold loop
  refine .step (takeId_run σ) ?_
  have hcount := grows_countId hσ
  refine (newCodeDecision_realizes hcount.sound .loop code code.header).bind ?_
    fun _ _ _ ⟨_, hmade⟩ => hmade.grows.silent
  rintro t τ₁ text - ⟨number, hmade⟩
  let g := τ₁.nodes.size
  let ρ := τ₁.withGroup (.loop (.node t)) (.node t) [] (some code)
  have ho : Opened σ ρ t g number .loop (.loop (.node t)) text := hmade.opened hcount _ _
  refine .step (newGroup_run τ₁ _ (fun l => by simp) [] (some code)) ?_
  have hspec : (do let flows ← spec; return loopFlow options ⟨none, text, []⟩ (orIdle flows))
      = orIdle <$> spec >>= fun flows => pure (loopFlow options ⟨none, text, []⟩ flows) := by
    rw [bind_map_left]
  rw [hspec]
  refine (loopBody_realizes h ho.grows.sound ho.test (by simp)).bind ?_
    fun _ _ _ ⟨_, _, _, _, hbody, _⟩ => hbody.grows.silent
  rintro - τ₂ flows - ⟨ts, y, b, first, hbody, hn₂, rfl⟩
  obtain ⟨τ', hrun, hbuilt, -⟩ := loop_closed options hσ ho hbody hn₂
  exact .ok hrun hbuilt

end CodeChart.Chart
