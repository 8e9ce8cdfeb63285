import CodeChart.Proofs.Construction
import CodeChart.Proofs.Depiction
import CodeChart.Proofs.Layout

/-! Charts of code. The construction of a chart leaves the flow of the code in the store; its
drawing is the part of the layout of the code that is reached from the first statement, with the
boxes of the outline. Code without an outline has no chart: construction stops at the fault of the
outline. -/
namespace CodeChart.Chart

open CodeChart.Graph Code

variable {V W : Type}

@[simp] theorem Vertex.place_map (g : V → W) (x : Vertex V) : (x.map g).place = g x.place := by
  cases x <;> rfl

theorem mem_arrows_map {g : V → W} {x : Vertex V} {b : Arrow W} :
    b ∈ (x.map g).arrows ↔ ∃ a ∈ x.arrows, b = ⟨a.labels, a.target.map g⟩ := by
  cases x with
  | box v out => cases out <;> simp [Vertex.map, Vertex.arrows]
  | test v yes no => cases yes <;> simp [Vertex.map, Vertex.arrows]

theorem arrow_map {g : V → W} {x : Vertex V} {b : Arrow W} {u : W} (hb : b ∈ (x.map g).arrows)
    (hu : b.target = some u) :
    ∃ a ∈ x.arrows, ∃ w, a.target = some w ∧ a.labels = b.labels ∧ u = g w := by
  obtain ⟨a, ha, rfl⟩ := mem_arrows_map.1 hb
  obtain ⟨w, hw, rfl⟩ := Option.map_eq_some_iff.1 hu
  exact ⟨a, ha, w, hw, rfl, rfl⟩

theorem Reached.map {xs : List (Vertex V)} {entry v : V} (g : V → W) (h : Reached xs entry v) :
    Reached (xs.map (Vertex.map g)) (g entry) (g v) := by
  induction h with
  | entry => exact .entry
  | @arrow x a w _ hx ha hw ih =>
    rw [← Vertex.place_map g x] at ih
    exact .arrow ih (List.mem_map_of_mem hx) (mem_arrows_map.2 ⟨a, ha, rfl⟩) (by simp [hw])

section

variable {xs : List (Vertex V)} {entry : V} {g : V → W}
  (hinj : ∀ v ∈ xs.map Vertex.place, ∀ w ∈ xs.map Vertex.place, g v = g w → v = w)
  (htargets : Flow.TargetsIn (· ∈ xs.map Vertex.place) xs) (hentry : entry ∈ xs.map Vertex.place)
include hinj htargets hentry

theorem exists_reached_of_map {u : W} (h : Reached (xs.map (Vertex.map g)) (g entry) u) :
    ∃ v, Reached xs entry v ∧ u = g v := by
  induction h with
  | entry => exact ⟨entry, .entry, rfl⟩
  | arrow _ hy hb hu ih =>
    obtain ⟨x, hx, rfl⟩ := List.mem_map.1 hy
    obtain ⟨a, ha, w, hw, -, rfl⟩ := arrow_map hb hu
    obtain ⟨v, hv, heq⟩ := ih
    rw [Vertex.place_map] at heq
    have hplace := hinj _ (List.mem_map_of_mem hx) _ (hv.mem htargets hentry) heq
    exact ⟨w, .arrow (hplace ▸ hv) hx ha hw, rfl⟩

theorem reached_map_iff {v : V} (hv : v ∈ xs.map Vertex.place) :
    Reached (xs.map (Vertex.map g)) (g entry) (g v) ↔ Reached xs entry v := by
  refine ⟨fun h => ?_, Reached.map g⟩
  obtain ⟨w, hw, heq⟩ := exists_reached_of_map hinj htargets hentry h
  rwa [hinj v hv w (hw.mem htargets hentry) heq]

theorem Depicts.of_map {f : W → Named} {d : Drawing}
    (h : Depicts (xs.map (Vertex.map g)) (g entry) f d) :
    Depicts xs entry (fun v => f (g v)) d where
  first := h.first
  names := h.names
  nodes n := by
    rw [h.nodes]
    constructor
    · rintro ⟨u, hu, rfl⟩
      obtain ⟨v, hv, rfl⟩ := exists_reached_of_map hinj htargets hentry hu
      exact ⟨v, hv, rfl⟩
    · rintro ⟨v, hv, rfl⟩
      exact ⟨g v, hv.map g, rfl⟩
  once := h.once
  lines k := by
    rw [h.lines]
    constructor
    · rintro ⟨y, hy, hreached, b, hb, u, hu, rfl⟩
      obtain ⟨x, hx, rfl⟩ := List.mem_map.1 hy
      obtain ⟨a, ha, w, hw, hlabels, rfl⟩ := arrow_map hb hu
      rw [Vertex.place_map, reached_map_iff hinj htargets hentry (List.mem_map_of_mem hx)]
        at hreached
      exact ⟨x, hx, hreached, a, ha, w, hw, by rw [hlabels, Vertex.place_map]⟩
    · rintro ⟨x, hx, hreached, a, ha, w, hw, rfl⟩
      refine ⟨x.map g, List.mem_map_of_mem hx, ?_, _, mem_arrows_map.2 ⟨a, ha, rfl⟩, g w, ?_, ?_⟩
      · rw [Vertex.place_map]
        exact hreached.map g
      · simp [hw]
      · rw [Vertex.place_map]

end

/-- A chart made since `σ`: its group leads to the entry of flows that the store holds. -/
structure Charted (σ τ : Store) (g : Nat) (ts : List (Flow Site)) (entry : Site) : Prop where
  grows : Grows [] σ τ
  group : (τ.node g).isGroup = true
  heads : HeadsTo τ (.node g) entry.node
  first : Flow.entryOf ts = some entry
  holds : Holds σ τ (Flow.verticesAll [] ts)

variable {σ τ : Store}

theorem arrange_ne_nil {options : Options} {ts : List (Flow Box)} (h : ts ≠ []) :
    arrange options ts ≠ [] := by
  unfold arrange
  split
  · rw [← List.length_pos_iff, Flow.alignAll_length, List.length_pos_iff]
    exact h
  · exact h

theorem outlinePieces_ne_nil {options : Options} {pieces : List Piece} {ts : List (Flow Box)}
    (hne : pieces ≠ []) (h : outlinePieces options pieces = .ok ts) : ts ≠ [] := by
  cases pieces with
  | nil => exact absurd rfl hne
  | cons p rest =>
    obtain ⟨t, us, -, -, rfl⟩ := bind₂_eq_ok.1 h
    exact List.cons_ne_nil t us

theorem chartOf_realizes (options : Options) {pieces : List Piece} (hne : pieces ≠ [])
    (hσ : σ.Sound) :
    Realizes σ (chartOf options pieces) (outlinePieces options pieces) fun g τ flows =>
      ∃ ts entry, Charted σ τ g ts entry ∧ Flow.mapAll (boxAt τ) ts = arrange options flows := by
  have hsuite := suite_realizes options (builds_pieces options pieces) hσ
  unfold chartOf ofPieces
  cases hspec : outlinePieces options pieces with
  | error f =>
    rw [hspec] at hsuite
    obtain ⟨σ', hrun, hsilent⟩ := hsuite
    exact .error (bind_error hrun) hsilent
  | ok flows =>
    rw [hspec] at hsuite
    obtain ⟨s, τ, hrun, hg, hends⟩ := hsuite
    have hflows : arrange options flows ≠ [] := arrange_ne_nil (outlinePieces_ne_nil hne hspec)
    generalize hrow : arrange options flows = arranged at hends hflows
    cases hends with
    | empty _ => exact absurd rfl hflows
    | @row first last front t hends hrow' =>
      obtain ⟨u, hu, henters⟩ := hrow'.enter
      have hfirst : (Item.node first).Within τ := by
        rintro i ⟨⟩
        exact henters.inside.2
      let τ' := τ.withGroup .chart (.node first) [] none
      have hg' : Grows [] τ τ' := grows_withGroup hg.sound .chart hfirst [] none
      have hform : (τ'.node τ.nodes.size).form = .group .chart (.node first) [] "" "" :=
        form_withGroup τ .chart (.node first) [] none
      have hentry : Flow.entryOf (front ++ [t]) = some u.entry := by
        rw [Flow.entryOf, hu]
        rfl
      have hheads : HeadsTo τ' (.node first) u.entry.node := (hg'.arrives hfirst henters.heads).1
      refine ⟨τ.nodes.size, τ', ?_, front ++ [t], u.entry, ?_, ?_⟩
      · rw [bind_ok hrun, bind_ok (groupEnds_run hends)]
        exact newGroup_run τ .chart (fun l => by simp) [] none
      · refine ⟨hg.trans hg', isGroup_of_form hform, .of_group hform hheads, hentry, ?_⟩
        exact hrow'.holds.grow hg.sound hg' (by simp)
      · exact (hrow'.boxes_grow hg' (by simp)).trans hrow.symm

theorem Charted.entered {g : Nat} {ts : List (Flow Site)} {entry : Site}
    (h : Charted σ τ g ts entry) : entry ∈ (Flow.verticesAll [] ts).map Vertex.place :=
  Flow.mem_of_entryOf [] ts h.first

theorem Charted.walkable {g : Nat} {ts : List (Flow Site)} {entry : Site}
    (h : Charted σ τ g ts entry) :
    Walkable τ (.node g) := by
  have hwithin : (Item.node g).Within τ := by
    rintro i ⟨⟩
    exact lt_size_of_isGroup h.group
  exact h.holds.walkable h.grows.sound (Flow.verticesAll_targets [] ts) h.entered hwithin h.heads

theorem Charted.chartText_run {g : Nat} {ts : List (Flow Site)} {entry : Site}
    (h : Charted σ τ g ts entry) : ∃ order τ',
      Walked σ τ (Flow.verticesAll [] ts) (.node g) entry order ∧
      chartText g τ = .ok (τ.drawing order).text τ' ∧ Redrawn τ τ' := by
  have htargets := Flow.verticesAll_targets [] ts
  obtain ⟨order, τ', hd, hrun, hredrawn⟩ := Redrawn.chartText_run h.grows.sound h.group h.walkable
  exact ⟨order, τ', ⟨h.holds, htargets, h.entered, h.heads, hd⟩, hrun, hredrawn⟩

/-- A drawing portrays flows laid out in spots: each spot has a name of its own and its box, and
what is reached from the first spot is drawn. -/
structure Portrays (ts : List (Flow Spot)) (boxes : List (Flow Box)) (f : Spot → Named)
    (d : Drawing) :
    Prop where
  boxes : Flow.mapAll (fun v => (f v).box) ts = boxes
  apart : ∀ v ∈ Flow.placesAll ts, ∀ w ∈ Flow.placesAll ts, (f v).name = (f w).name → v = w
  drawn : ∃ entry, Flow.entryOf ts = some entry ∧ Depicts (Flow.verticesAll [] ts) entry f d

theorem Holds.place_inj {ts : List (Flow Site)} (h : Holds σ τ (Flow.verticesAll [] ts))
    {v w : Site} (hv : v ∈ Flow.placesAll ts) (hw : w ∈ Flow.placesAll ts)
    (hname : (τ.node v.node).name = (τ.node w.node).name) : v = w := by
  rw [← Flow.map_place_verticesAll [] ts] at hv hw
  obtain ⟨x, hx, rfl⟩ := List.mem_map.1 hv
  obtain ⟨y, hy, rfl⟩ := List.mem_map.1 hw
  rw [h.eq_of_name hx hy hname]

theorem Holds.places_nodup {ts : List (Flow Site)} (h : Holds σ τ (Flow.verticesAll [] ts)) :
    (Flow.placesAll ts).Nodup := by
  rw [← Flow.map_place_verticesAll [] ts]
  refine .of_map Site.number ?_
  rw [List.map_map]
  exact h.numbers

theorem Charted.portrays {g : Nat} {ts : List (Flow Site)} {entry : Site}
    (h : Charted σ τ g ts entry) {us : List (Flow Spot)}
    (hshape : Flow.shapeAll us = Flow.shapeAll ts) (hnodup : (Flow.placesAll us).Nodup)
    {d : Drawing} (hd : Depicts (Flow.verticesAll [] ts) entry (namedAt τ) d) :
    ∃ f, Portrays us (Flow.mapAll (boxAt τ) ts) f d := by
  have : Inhabited Site := ⟨entry⟩
  obtain ⟨site, rfl⟩ := Flow.exists_relabel hshape hnodup
  have hplaces := Flow.placesAll_mapAll site us
  have hinj : ∀ v ∈ Flow.placesAll us, ∀ w ∈ Flow.placesAll us, site v = site w → v = w := by
    intro v hv w hw heq
    have hsites := h.holds.places_nodup
    rw [hplaces] at hsites
    exact List.inj_on_of_nodup_map hsites hv hw heq
  refine ⟨fun v => namedAt τ (site v), ?_, ?_, ?_⟩
  · rw [Flow.mapAll_mapAll]
    rfl
  · intro v hv w hw hname
    refine hinj v hv w hw (h.holds.place_inj ?_ ?_ hname)
    · rw [hplaces]
      exact List.mem_map_of_mem hv
    · rw [hplaces]
      exact List.mem_map_of_mem hw
  · have hfirst := h.first
    rw [Flow.entryOf_mapAll, Option.map_eq_some_iff] at hfirst
    obtain ⟨e, he, rfl⟩ := hfirst
    rw [Flow.verticesAll_map] at hd
    rw [← Flow.map_place_verticesAll [] us] at hinj
    exact ⟨e, he, hd.of_map hinj (Flow.verticesAll_targets [] us) (Flow.mem_of_entryOf [] us he)⟩

/-- A chart that has been built is drawn by a walk, and the drawing portrays the layout of the
code. -/
structure Shown (options : Options) (pieces : List Piece) (flows : List (Flow Box)) (σ τ τ' : Store)
    (g : Nat) (order : List Nat) : Prop where
  grows : Grows [] σ τ
  walk : DepthFirst τ (fun _ => true) [] [.node g] order
  drawn : chartText g τ = .ok (τ.drawing order).text τ'
  redrawn : Redrawn τ τ'
  portrays : ∃ f, Portrays (layoutPieces options.simplify 0 pieces) (arrange options flows) f
    (τ.drawing order)

theorem chartOf_shown (options : Options) {pieces : List Piece} (hne : pieces ≠ []) (hσ : σ.Sound)
    {flows : List (Flow Box)} (hspec : outlinePieces options pieces = .ok flows) :
    ∃ g τ τ' order, chartOf options pieces σ = .ok g τ ∧
      Shown options pieces flows σ τ τ' g order := by
  have hchart := chartOf_realizes options hne hσ
  rw [hspec] at hchart
  obtain ⟨g, τ, hrun, ts, entry, hcharted, hboxes⟩ := hchart
  obtain ⟨order, τ', hwalked, hdraw, hredrawn⟩ := hcharted.chartText_run
  have hshape : Flow.shapeAll (layoutPieces options.simplify 0 pieces) = Flow.shapeAll ts := by
    rw [← shape_outlinePieces 0 hspec, ← shapeAll_arrange options, ← hboxes, Flow.shapeAll_mapAll]
  obtain ⟨f, hportrays⟩ :=
    hcharted.portrays hshape (layoutPieces_fresh _ 0 pieces).nodup hwalked.depicts
  rw [hboxes] at hportrays
  exact ⟨g, τ, τ', order, hrun, hcharted.grows, hwalked.walk, hdraw, hredrawn, f, hportrays⟩

/-- The chart of code shows the layout of the code with the boxes of its outline. -/
theorem chart_realizes (options : Options) {pieces : List Piece}
    (hne : pieces ≠ []) (hσ : σ.Sound) :
    Realizes σ (chartOf options pieces >>= chartText) (outlinePieces options pieces)
      fun text τ flows => ∃ f d, text = d.text ∧
        Portrays (layoutPieces options.simplify 0 pieces) (arrange options flows) f d ∧
        Silent σ τ := by
  cases hspec : outlinePieces options pieces with
  | error f =>
    have hchart := chartOf_realizes options hne hσ
    rw [hspec] at hchart
    obtain ⟨σ', hrun, hsilent⟩ := hchart
    exact .error (bind_error hrun) hsilent
  | ok flows =>
    obtain ⟨g, τ, τ', order, hrun, hshown⟩ := chartOf_shown options hne hσ hspec
    obtain ⟨f, hportrays⟩ := hshown.portrays
    refine .ok ((bind_ok hrun).trans hshown.drawn) ⟨f, _, rfl, hportrays, ?_⟩
    exact hshown.grows.silent.trans ⟨hshown.redrawn.printed, hshown.redrawn.warnings⟩

theorem outlinePieces_stmts (options : Options) (ss : List Stmt) :
    outlinePieces options (ss.map .stmt) = outlines options ss := by
  induction ss with
  | nil => rfl
  | cons s rest ih =>
    rw [List.map_cons, outlinePieces, ih, outlines]
    rfl

theorem layoutPieces_stmts (simplify : Bool) (i : Nat) (ss : List Stmt) :
    layoutPieces simplify i (ss.map .stmt) = layouts simplify [] i ss := by
  induction ss generalizing i with
  | nil => rfl
  | cons s rest ih =>
    rw [List.map_cons, layoutPieces, ih, layouts]
    rfl

theorem chart_stmts_realizes (options : Options) (ss : List Stmt) (hne : ss ≠ []) (hσ : σ.Sound) :
    Realizes σ (chartOf options (ss.map .stmt) >>= chartText) (outlines options ss)
      fun text τ flows => ∃ f d, text = d.text ∧
        Portrays (layouts options.simplify [] 0 ss) (arrange options flows) f d ∧
        Silent σ τ := by
  rw [← outlinePieces_stmts, ← layoutPieces_stmts]
  exact chart_realizes options (by simpa using hne) hσ

/-- The chart of a list of statements is the part of its flow graph that is reached from the entry,
with a name of its own for every place. -/
theorem chart_refines_layout (options : Options) (ss : List Stmt) (hne : ss ≠ []) (σ : Store)
    (hσ : σ.Sound) :
    Realizes σ (chartOf options (ss.map .stmt) >>= chartText) (outlines options ss)
      fun text _ flows => ∃ f d, text = d.text ∧
        Portrays (layouts options.simplify [] 0 ss) (arrange options flows) f d := by
  refine (chart_stmts_realizes options ss hne hσ).mono fun text τ flows _ h => ?_
  obtain ⟨f, d, htext, hportrays, -⟩ := h
  exact ⟨f, d, htext, hportrays⟩

/-- A loop that may be left by a jump, and a statement after it. -/
theorem chart_refines_layout_loop : ∃ text τ f d,
    (chartOf { simplify := false } ([.whileTrue (.name "x")
      [.branch (.name "y") [.stop] [.pass]] [], .pass].map .stmt) >>= chartText) {} = .ok text τ ∧
    text = d.text ∧ Portrays
      [.loop ⟨[0], 0⟩ [.branch ⟨[0, 0, 0], 0⟩ [.jump ⟨[0, 0, 0, 0, 0], 0⟩]
        [.step ⟨[0, 1, 0, 0, 0], 0⟩]], .step ⟨[1], 0⟩]
      [.loop ⟨none, "while x", []⟩ [.branch ⟨none, "if y", []⟩ [.jump ⟨some .jump, "break", []⟩]
        [.step ⟨some .statement, "pass", []⟩]], .step ⟨some .statement, "pass", []⟩] f d := by
  obtain ⟨text, τ, hrun, f, d, htext, hportrays⟩ := chart_refines_layout { simplify := false }
    [.whileTrue (.name "x") [.branch (.name "y") [.stop] [.pass]] [], .pass]
      (by simp) {} sound_empty
  exact ⟨text, τ, f, d, hrun, htext, hportrays⟩

end CodeChart.Chart
