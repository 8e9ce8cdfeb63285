import CodeChart.Proofs.Charts
import CodeChart.Proofs.Equivariance

/-! Charts do not depend on earlier work. The store may hold any nodes when a chart is begun, and
the counter may stand anywhere: the chart is a copy of the one that is built in an empty store, its
walk visits the copies in the same order, and its drawing differs by the number in every name
alone. -/
namespace CodeChart.Graph

variable {o : Offset} {s s' : Store}

theorem Store.Mirrors.headsTo (h : s.Mirrors o s') {item : Item} {j : Nat} (hj : HeadsTo s item j) :
    HeadsTo s' (item.shift o) (o.nodes + j) := by
  obtain ⟨n, hn⟩ := hj
  refine ⟨n, ?_⟩
  induction hn with
  | @here i hi =>
    refine .here ?_
    rw [Node.isGroup, (h.node i).form, isGroup_shift]
    exact hi
  | @head n i j role head tails d c hf _ ih =>
    have hform : (s'.node (o.nodes + i)).form
        = .group (role.shift o) (head.shift o) (tails.map (Item.shift o)) d c := by
      rw [(h.node i).form, hf]
      rfl
    exact .head hform ih

theorem Node.Mirrors.ownLinks {n n' : Node} (h : n.Mirrors o n') :
    n'.ownLinks = n.ownLinks.map (Item.shift o) := by
  unfold Node.ownLinks
  rw [h.form, h.links]
  cases n.form <;> rfl

theorem Store.Mirrors.target? (h : s.Mirrors o s') (item : Item) :
    s'.target? (item.shift o) = (s.target? item).map (Item.shift o) := by
  cases item with
  | nothing => rfl
  | node i => rfl
  | link l =>
    simp only [Store.target?, Item.shift, (h.link l).target]
    cases (s.link l).target <;> rfl

theorem Store.Mirrors.nextItems (h : s.Mirrors o s') (i : Nat) :
    s'.nextItems (o.nodes + i) = (s.nextItems i).map (Item.shift o) := by
  unfold Store.nextItems
  rw [(h.node i).ownLinks, List.filterMap_map, List.map_filterMap]
  exact List.filterMap_congr fun item _ => h.target? item

theorem Store.Mirrors.depthFirst (h : s.Mirrors o s') {seen : List Nat} {stack : List Item}
    {order : List Nat} (hd : DepthFirst s (fun _ => true) seen stack order) :
    DepthFirst s' (fun _ => true) (seen.map (o.nodes + ·)) (stack.map (Item.shift o))
      (order.map (o.nodes + ·)) := by
  have hseen (seen : List Nat) (i : Nat) : o.nodes + i ∈ seen.map (o.nodes + ·) ↔ i ∈ seen :=
    List.mem_map_of_injective (add_right_injective o.nodes)
  induction hd with
  | nil => exact .nil
  | skip hi hmem _ ih => exact .skip (h.headsTo hi) ((hseen _ _).2 hmem) ih
  | stop _ _ hgo => cases hgo
  | visit hi hmem _ _ _ ihBelow ihAfter =>
    rw [List.map_cons, List.map_cons, List.map_append]
    rw [List.map_append, List.map_cons] at ihAfter
    rw [← h.nextItems] at ihBelow
    exact .visit (h.headsTo hi) (fun hmem' => hmem ((hseen _ _).1 hmem')) rfl ihBelow ihAfter

/-- What is seen of a definition; without marks, nothing of its parameters. -/
def Definition.seen : Bool → Definition → Definition
  | true, d => d
  | false, d => { d with params := [] }

/-- What is seen of a line; without marks, nothing of a label `right`. -/
def Line.seen : Bool → Line → Line
  | true, k => k
  | false, k => { k with labels := k.labels.filter (· ≠ "right") }

def Drawing.seen (marked : Bool) (d : Drawing) : Drawing where
  nodes := d.nodes.map (Definition.seen marked)
  lines := d.lines.map (Line.seen marked)

theorem Drawing.seen_true (d : Drawing) : d.seen true = d := by
  have hnodes : Definition.seen true = id := rfl
  have hlines : Line.seen true = id := rfl
  simp [Drawing.seen, hnodes, hlines]

theorem Node.Mirrors.definition? {n n' : Node} (h : n.Mirrors o n') :
    n'.definition?.map (Definition.seen o.marked)
      = n.definition?.map fun d => (d.renumber o.ids).seen o.marked := by
  unfold Node.definition?
  rw [h.form, h.name, h.text]
  cases hmarked : o.marked with
  | true =>
    rw [h.params hmarked]
    cases n.form <;> rfl
  | false => cases n.form <;> rfl

theorem Node.Mirrors.draws {n n' : Node} (h : n.Mirrors o n') : n'.draws = n.draws := by
  unfold Node.draws
  rw [h.form]
  cases n.form <;> rfl

theorem seen_shownLabels {labels labels' : List Label}
    (h : ∀ x, o.marked = true ∨ x ≠ "right" → (some x ∈ labels' ↔ some x ∈ labels))
    (source target : String) :
    Line.seen o.marked ⟨source, shownLabels labels', target⟩
      = Line.seen o.marked ⟨source, shownLabels labels, target⟩ := by
  cases hmarked : o.marked with
  | true =>
    have hlabels : shownLabels labels' = shownLabels labels :=
      shownLabels_congr fun x _ => h x (.inl hmarked)
    rw [hlabels]
  | false =>
    have hlabels : (shownLabels labels').filter (· ≠ "right") = (shownLabels labels).filter
        (· ≠ "right") := by
      refine ((shownLabels_pairwise labels').filter _).eq_of_mem_iff
        ((shownLabels_pairwise labels).filter _) ?_
      intro x
      simp only [List.mem_filter, mem_shownLabels, decide_eq_true_eq]
      exact and_congr_left fun hx => and_congr_right fun _ => h x (.inr hx)
    simp only [Line.seen, hlabels]

theorem Store.Mirrors.lineTo (h : s.Mirrors o s') (i : Nat) (target : Item)
    {labels labels' : List Label}
    (hlabels : ∀ x, o.marked = true ∨ x ≠ "right" → (some x ∈ labels' ↔ some x ∈ labels)) :
    (s'.lineTo (o.nodes + i) (target.shift o) labels').map (Line.seen o.marked)
      = (s.lineTo i target labels).map fun k => (k.renumber o.ids).seen o.marked := by
  cases target with
  | nothing => rfl
  | link l => rfl
  | node j =>
    simp only [Store.lineTo, Item.shift, h.name, renumber_isEmpty]
    split
    · rfl
    · exact congrArg some (seen_shownLabels hlabels _ _)

theorem Store.Mirrors.lineAlong (h : s.Mirrors o s') (i : Nat) (item : Item) :
    (s'.lineAlong (o.nodes + i) (item.shift o)).map (Line.seen o.marked)
      = (s.lineAlong i item).map fun k => (k.renumber o.ids).seen o.marked := by
  cases item with
  | nothing => rfl
  | node j => rfl
  | link l =>
    simp only [Store.lineAlong, Item.shift, (h.link l).target, (h.node i).direction]
    exact h.lineTo i _ fun x hx => by simp [(h.link l).labels x hx]

theorem Store.Mirrors.linesFrom (h : s.Mirrors o s') (i : Nat) :
    (s'.linesFrom (o.nodes + i)).map (Line.seen o.marked)
      = (s.linesFrom i).map fun k => (k.renumber o.ids).seen o.marked := by
  have hown : (if (s'.node (o.nodes + i)).draws then
        (s'.node (o.nodes + i)).links.filterMap (s'.lineAlong (o.nodes + i)) else []).map
        (Line.seen o.marked)
      = (if (s.node i).draws then (s.node i).links.filterMap (s.lineAlong i) else []).map
        fun k => (k.renumber o.ids).seen o.marked := by
    rw [(h.node i).draws, (h.node i).links]
    split
    · rw [List.filterMap_map, List.map_filterMap, List.map_filterMap]
      exact List.filterMap_congr fun item _ => h.lineAlong i item
    · rfl
  unfold Store.linesFrom
  rw [(h.node i).form]
  cases (s.node i).form with
  | bridge answer parent child labels link =>
    cases parent with
    | nothing => rfl
    | link l => rfl
    | node p =>
      cases link with
      | nothing => rfl
      | node j => rfl
      | link l =>
        have hline := h.lineTo p child (h.link l).labels
        change (s'.lineTo (o.nodes + p) (child.shift o) (s'.link (o.links + l)).labels).toList.map _
          = (s.lineTo p child (s.link l).labels).toList.map _
        rw [← Option.toList_map, ← Option.toList_map, hline]
  | _ => exact hown

theorem Store.Mirrors.drawing (h : s.Mirrors o s') (order : List Nat) :
    (s'.drawing (order.map (o.nodes + ·))).seen o.marked
      = ((s.drawing order).renumber o.ids).seen o.marked := by
  unfold Store.drawing Drawing.renumber Drawing.seen
  congr 1
  · rw [List.filterMap_map, List.map_filterMap, List.map_map, List.map_filterMap]
    exact List.filterMap_congr fun i _ => (h.node i).definition?
  · rw [List.flatMap_map, List.map_flatMap, List.map_map, List.map_flatMap]
    exact List.flatMap_congr fun i _ => h.linesFrom i

end CodeChart.Graph

namespace CodeChart.Chart

open CodeChart.Graph Code

variable {σ : Store}

section

variable {options options' : Options} {pieces : List Piece} {flows flows' : List (Flow Box)}
  {τ τ' υ υ' : Store} {g g' : Nat} {order order' : List Nat}

/-- A chart that is built after other work looks as in the empty store, with greater numbers. -/
theorem Shown.seen {marked : Bool} (hoptions : Allows (σ.offset marked) options options')
    (h : Shown options pieces flows {} τ τ' g order) (hrun : chartOf options pieces {} = .ok g τ)
    (h' : Shown options' pieces flows' σ υ υ' g' order')
    (hrun' : chartOf options' pieces σ = .ok g' υ) :
    (υ.drawing order').seen marked = ((τ.drawing order).renumber σ.nextId).seen marked := by
  obtain ⟨j, t, hcopy, hj, hmirrors⟩ :=
    (chartOf_followed hoptions pieces).run (mirrors_empty σ marked) hrun
  rw [hrun'] at hcopy
  cases hcopy
  subst hj
  have hwalk : DepthFirst υ (fun _ => true) [] [.node ((σ.offset marked).nodes + g)] _ :=
    hmirrors.depthFirst h.walk
  rw [h'.walk.unique hwalk]
  exact hmirrors.drawing order

/-- With the same options the drawings are the same but for the numbers. -/
theorem Shown.renumber (h : Shown options pieces flows {} τ τ' g order)
    (hrun : chartOf options pieces {} = .ok g τ) (h' : Shown options pieces flows σ υ υ' g' order')
    (hrun' : chartOf options pieces σ = .ok g' υ) :
    υ.drawing order' = (τ.drawing order).renumber σ.nextId := by
  have hseen := h.seen (.same (σ.offset true) options) hrun h' hrun'
  rwa [Drawing.seen_true, Drawing.seen_true] at hseen

end

theorem chartOf_nothing (options : Options) (hσ : σ.Sound) : ∃ g τ, chartOf options [] σ = .ok g τ ∧
    τ.Sound ∧ (τ.node g).form = .group .chart .nothing [] "" "" := by
  have hsuite := suite_realizes options (builds_pieces options []) hσ
  have hspec : arrange options <$> outlinePieces options [] = .ok [] := by
    unfold arrange
    cases options.align <;> rfl
  rw [hspec] at hsuite
  obtain ⟨s, τ, hrun, hg, hends⟩ := hsuite
  generalize hflows : ([] : List (Flow Box)) = flows at hends
  cases hends with
  | row => simp [Flow.mapAll_eq] at hflows
  | empty hends =>
    have hnothing : Item.nothing.Within τ := fun _ hj => by cases hj
    refine ⟨τ.nodes.size, τ.withGroup .chart .nothing [] none, ?_,
      (grows_withGroup hg.sound .chart hnothing [] none).sound,
        form_withGroup τ .chart .nothing [] none⟩
    unfold chartOf ofPieces
    rw [bind_ok hrun, bind_ok hends]
    exact newGroup_run τ .chart (fun l => by simp) [] none

theorem chartText_nothing (hσ : σ.Drawable) {g : Nat} {role tails d c}
    (hform : (σ.node g).form = .group role .nothing tails d c) :
    ∃ τ, chartText g σ = .error (.noAttribute "NoneType" "_traverse") τ ∧ Redrawn σ τ := by
  have hentry : σ.entry (.node g) = .error (.noAttribute "NoneType" "_traverse") := by
    unfold Store.entry Store.entryWithin
    rw [hform]
    cases σ.nodes.size <;> rfl
  have hwalk : σ.preorderFrom (fun _ => true) [] [.node g]
      = ([], some (.noAttribute "NoneType" "_traverse")) := by
    rw [Store.preorderFrom, hentry]
  obtain ⟨τ, hτ, hdraw⟩ := Redrawn.chartText_sheet hσ (.refl σ) (isGroup_of_form hform) hwalk
  exact ⟨τ, hdraw, hτ.toRedrawn⟩

theorem chart_nothing (options : Options) (hσ : σ.Sound) :
    ∃ τ, (chartOf options [] >>= chartText) σ = .error (.noAttribute "NoneType" "_traverse") τ := by
  obtain ⟨g, τ, hchart, hsound, hform⟩ := chartOf_nothing options hσ
  obtain ⟨υ, hdraw, -⟩ := chartText_nothing hsound.drawable hform
  exact ⟨υ, (bind_ok hchart).trans hdraw⟩

/-- What is drawn of code in any store is known from its chart in the empty store. -/
theorem chart_copied (options : Options) {pieces : List Piece} (hne : pieces ≠ [])
    {flows : List (Flow Box)} (hspec : outlinePieces options pieces = .ok flows) :
    ∃ f d τ₀, (chartOf options pieces >>= chartText) {} = .ok d.text τ₀ ∧
      Portrays (layoutPieces options.simplify 0 pieces) (arrange options flows) f d ∧
      ∀ σ : Store, σ.Sound → ∃ τ, τ.Sound ∧ σ.nextId ≤ τ.nextId ∧
        (chartOf options pieces >>= chartText) σ = .ok (d.renumber σ.nextId).text τ := by
  obtain ⟨g, τ, τ', order, hrun, hshown⟩ := chartOf_shown options hne sound_empty hspec
  obtain ⟨f, hportrays⟩ := hshown.portrays
  refine ⟨f, _, τ', (bind_ok hrun).trans hshown.drawn, hportrays, fun σ hσ => ?_⟩
  obtain ⟨g', υ, υ', order', hrun', hshown'⟩ := chartOf_shown options hne hσ hspec
  refine ⟨υ', hshown'.redrawn.sound hshown'.grows.sound, ?_, ?_⟩
  · rw [hshown'.redrawn.nextId]
    exact hshown'.grows.nextId
  · rw [bind_ok hrun', hshown'.drawn, hshown.renumber hrun hshown' hrun']

/-- The chart of a list of statements does not depend on what was done before: with the counter at
any number, it is the chart that is drawn when the counter stands at zero, with the number in every
name increased by the state of the counter. So code that is converted twice gives two charts that
differ by one number only. Where nothing can be drawn, the fault is the same. -/
theorem chart_renumbered (options : Options) (ss : List Stmt) (σ : Store) (hσ : σ.Sound) :
    (∃ fault τ₀ τ, (ss = [] ∨ outlines options ss = .error fault) ∧
      (chartOf options (ss.map .stmt) >>= chartText) {} = .error fault τ₀ ∧
      (chartOf options (ss.map .stmt) >>= chartText) σ = .error fault τ) ∨
    ∃ flows f d τ₀ τ υ k, outlines options ss = .ok flows ∧
      Portrays (layouts options.simplify [] 0 ss) (arrange options flows) f d ∧
      (chartOf options (ss.map .stmt) >>= chartText) {} = .ok d.text τ₀ ∧
      (chartOf options (ss.map .stmt) >>= chartText) σ = .ok (d.renumber σ.nextId).text τ ∧
      τ.nextId = σ.nextId + k ∧
      (chartOf options (ss.map .stmt) >>= chartText) τ
        = .ok ((d.renumber σ.nextId).renumber k).text υ := by
  by_cases hne : ss = []
  · subst hne
    obtain ⟨τ₀, hrun₀⟩ := chart_nothing options sound_empty
    obtain ⟨τ, hrun⟩ := chart_nothing options hσ
    exact .inl ⟨_, τ₀, τ, .inl rfl, hrun₀, hrun⟩
  · have hpieces : ss.map Piece.stmt ≠ [] := by simpa using hne
    cases hspec : outlines options ss with
    | error fault =>
      obtain ⟨τ₀, hrun₀, -⟩ : Realizes {} _ (.error fault) _ :=
        hspec ▸ chart_stmts_realizes options ss hne sound_empty
      obtain ⟨τ, hrun, -⟩ : Realizes σ _ (.error fault) _ :=
        hspec ▸ chart_stmts_realizes options ss hne hσ
      exact .inl ⟨fault, τ₀, τ, .inr rfl, hrun₀, hrun⟩
    | ok flows =>
      obtain ⟨f, d, τ₀, hrun₀, hportrays, hcopied⟩ :=
        chart_copied options hpieces ((outlinePieces_stmts options ss).trans hspec)
      rw [layoutPieces_stmts] at hportrays
      obtain ⟨τ, hτ, hle, hrun⟩ := hcopied σ hσ
      obtain ⟨υ, -, -, hagain⟩ := hcopied τ hτ
      refine .inr ⟨flows, f, d, τ₀, τ, υ, τ.nextId - σ.nextId, rfl, hportrays, hrun₀,
        hrun, by omega, ?_⟩
      rw [hagain, Drawing.renumber_add, Nat.add_sub_cancel' hle]

/-- A branch that is simplified into a loop's body, after one number has been given out. -/
theorem chart_renumbered_loop : ∃ (d : Drawing) (τ₀ τ υ : Store) (k : Nat),
    (chartOf {} ([.whileTrue (.name "x") [.branch (.name "y") [.stop] [], .pass] []].map .stmt)
      >>= chartText) {} = .ok d.text τ₀ ∧
    (chartOf {} ([.whileTrue (.name "x") [.branch (.name "y") [.stop] [], .pass] []].map .stmt)
      >>= chartText) ({} : Store).countId = .ok (d.renumber 1).text τ ∧ τ.nextId = 1 + k ∧
    (chartOf {} ([.whileTrue (.name "x") [.branch (.name "y") [.stop] [], .pass] []].map .stmt)
      >>= chartText) τ = .ok ((d.renumber 1).renumber k).text υ := by
  rcases chart_renumbered {} [.whileTrue (.name "x") [.branch (.name "y") [.stop] [], .pass] []]
      ({} : Store).countId sound_empty.countId with ⟨fault, τ₀, τ, hspec, -⟩ |
        ⟨flows, f, d, τ₀, τ, υ, k, -, -, hrun₀, hrun, hcount, hagain⟩
  · rcases hspec with hspec | hspec <;> cases hspec
  · exact ⟨d, τ₀, τ, υ, k, hrun₀, hrun, hcount, hagain⟩

end CodeChart.Chart
