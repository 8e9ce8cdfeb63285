import CodeChart.Proofs.Addresses
import CodeChart.Proofs.Totality
import Mathlib.Data.List.Chain

/-! Cycles of charts. The places of a flow are listed in an order in which every arrow leads on,
except those that lead from the body of a loop back to its test. So a walk along the lines of a
chart that comes back to where it began has taken a line from inside the body of a loop to the test
of that loop, and a chart that draws no loop as a test has no cycle. -/
namespace CodeChart.Chart

open CodeChart.Graph Code

namespace Flow

variable {V : Type}

/-- The place `w` comes later than `v` in the order of the flows, or it is the test of a loop with
`v` in its body. -/
def Advances (ts : List (Flow V)) (v w : V) : Prop :=
  [v, w].Sublist (placesAll ts) ∨ ∃ body, Among ts (.loop w body) ∧ v ∈ placesAll body

theorem sublist_of_part {u : Flow V} {us : List (Flow V)} (h : us ∈ u.parts) :
    (placesAll us).Sublist (placesAll [u]) := by
  rw [placesAll, placesAll, List.append_nil]
  cases u with
  | branch test body orelse =>
    simp only [parts, List.mem_cons, List.not_mem_nil, or_false] at h
    rcases h with rfl | rfl
    · exact .cons _ (List.sublist_append_left _ _)
    · exact .cons _ (List.sublist_append_right _ _)
  | loop test body =>
    obtain rfl := List.mem_singleton.1 h
    exact .cons _ (.refl _)
  | routine start input body finish =>
    obtain rfl := List.mem_singleton.1 h
    exact .cons _ (.cons _ (List.sublist_append_left _ _))
  | case test body =>
    obtain rfl := List.mem_singleton.1 h
    exact .cons _ (.refl _)
  | select first rest =>
    obtain rfl := List.mem_singleton.1 h
    exact .refl _
  | _ => cases h

theorem Advances.of_part {u : Flow V} {us : List (Flow V)} (hus : us ∈ u.parts) {v w : V}
    (h : Advances us v w) : Advances [u] v w := by
  rcases h with h | ⟨body, hbody, hv⟩
  · exact .inl (h.trans (sublist_of_part hus))
  · exact .inr ⟨body, hbody.of_part hus, hv⟩

theorem Advances.head {t : Flow V} {ts : List (Flow V)} {v w : V} (h : Advances [t] v w) :
    Advances (t :: ts) v w := by
  rcases h with h | ⟨body, hbody, hv⟩
  · rw [placesAll, placesAll, List.append_nil] at h
    exact .inl (h.trans (List.sublist_append_left _ _))
  · exact .inr ⟨body, hbody.head, hv⟩

theorem Advances.cons {t : Flow V} {ts : List (Flow V)} {v w : V} (h : Advances ts v w) :
    Advances (t :: ts) v w := by
  rcases h with h | ⟨body, hbody, hv⟩
  · exact .inl (h.trans (List.sublist_append_right _ _))
  · exact .inr ⟨body, hbody.cons, hv⟩

theorem sublist_pair {vs ws : List V} {v w : V} (hv : v ∈ vs) (hw : w ∈ ws) :
    [v, w].Sublist (vs ++ ws) :=
  (List.singleton_sublist.2 hv).append (List.singleton_sublist.2 hw)

theorem arrow_lead {next : Option V} {x : Vertex V} {a : Arrow V} {w : V}
    (ha : a ∈ (x.lead next).arrows) (hw : a.target = some w) :
    (∃ b ∈ x.arrows, b.target = some w) ∨ next = some w := by
  obtain ⟨b, hb, -, htarget⟩ := arrows_lead ha
  rw [htarget] at hw
  rcases Option.or_eq_some_iff.1 hw with hbw | ⟨-, hnext⟩
  · exact .inl ⟨b, hb, hbw⟩
  · exact .inr hnext

mutual

theorem vertices_advance (t : Flow V) {direction : List String} {x : Vertex V}
    (hx : x ∈ vertices direction t) {a : Arrow V} (ha : a ∈ x.arrows) {w : V}
    (hw : a.target = some w) :
    Advances [t] x.place w := by
  cases t with
  | step v =>
    obtain rfl := List.mem_singleton.1 hx
    obtain rfl := List.mem_singleton.1 ha
    cases hw
  | merged isBranch v =>
    obtain rfl := List.mem_singleton.1 hx
    obtain rfl := List.mem_singleton.1 ha
    cases hw
  | jump v =>
    obtain rfl := List.mem_singleton.1 hx
    cases ha
  | halt output finish =>
    cases output with
    | none =>
      obtain rfl := List.mem_singleton.1 hx
      cases ha
    | some output =>
      rcases List.mem_cons.1 hx with rfl | hx
      · obtain rfl := List.mem_singleton.1 ha
        cases hw
        exact .inl (.refl _)
      · obtain rfl := List.mem_singleton.1 hx
        cases ha
  | branch test body orelse =>
    rw [vertices, List.mem_cons, List.mem_append] at hx
    rcases hx with rfl | hx | hx
    · -- both answers lead to places after the test
      have hlater : w ∈ placesAll body ++ placesAll orelse := by
        rcases mem_arrows_test.1 ha with ⟨y, hy, rfl⟩ | rfl
        · cases hy
          exact List.mem_append_left _ (entryOf_mem_placesAll hw)
        · exact List.mem_append_right _ (entryOf_mem_placesAll hw)
      refine .inl ?_
      rw [placesAll, placesAll, List.append_nil]
      exact (List.singleton_sublist.2 hlater).cons_cons _
    · exact (verticesAll_advance body hx ha hw).of_part (by simp [parts])
    · exact (verticesAll_advance orelse hx ha hw).of_part (by simp [parts])
  | loop test body =>
    rw [vertices, List.mem_cons, List.mem_map] at hx
    rcases hx with rfl | ⟨y, hy, rfl⟩
    · rcases mem_arrows_test.1 ha with ⟨z, hz, rfl⟩ | rfl
      · cases hz
        refine .inl ?_
        rw [placesAll, placesAll, List.append_nil]
        exact (List.singleton_sublist.2 (entryOf_mem_placesAll hw)).cons_cons _
      · cases hw
    · rw [place_lead]
      rcases arrow_lead ha hw with ⟨b, hb, hw⟩ | hnext
      · exact (verticesAll_advance body hy hb hw).of_part (by simp [parts])
      · -- an exit of the body leads back to the test
        cases hnext
        exact .inr ⟨body, .here List.mem_cons_self, place_mem_placesAll hy⟩
  | routine start input body finish =>
    have hplaces : placesAll [routine start input body finish]
        = start :: input :: (placesAll body ++ [finish]) := by simp [placesAll, places]
    rw [vertices, List.mem_cons, List.mem_cons, List.mem_append, List.mem_map,
      List.mem_singleton] at hx
    rcases hx with rfl | rfl | ⟨y, hy, rfl⟩ | rfl
    · obtain rfl := List.mem_singleton.1 ha
      cases hw
      refine .inl ?_
      rw [hplaces]
      exact ((List.nil_sublist _).cons_cons _).cons_cons _
    · obtain ⟨e, he, rfl⟩ := Option.map_eq_some_iff.1 (Option.mem_toList.1 ha)
      obtain rfl := Option.some.inj hw
      have hlater := List.mem_append_left [finish] (entryOf_mem_placesAll he)
      refine .inl ?_
      rw [hplaces]
      exact .cons _ ((List.singleton_sublist.2 hlater).cons_cons _)
    · rw [place_lead]
      rcases arrow_lead ha hw with ⟨b, hb, hw⟩ | hnext
      · exact (verticesAll_advance body hy hb hw).of_part (by simp [parts])
      · cases hnext
        refine .inl ?_
        rw [hplaces]
        exact .cons _ (.cons _ (sublist_pair (place_mem_placesAll hy) (List.mem_singleton.2 rfl)))
    · obtain rfl := List.mem_singleton.1 ha
      cases hw
  | case test body =>
    rw [vertices, List.mem_cons] at hx
    rcases hx with rfl | hx
    · rcases mem_arrows_test.1 ha with ⟨z, hz, rfl⟩ | rfl
      · obtain ⟨e, he, rfl⟩ := Option.map_eq_some_iff.1 hz
        cases hw
        refine .inl ?_
        rw [placesAll, placesAll, List.append_nil]
        exact (List.singleton_sublist.2 (entryOf_mem_placesAll he)).cons_cons _
      · cases hw
    · exact (verticesAll_advance body hx ha hw).of_part (by simp [parts])
  | select first rest =>
    rw [vertices_select] at hx
    have hpart : first :: rest ∈ (select first rest).parts := List.mem_singleton.2 rfl
    cases rest with
    | nil => exact (vertices_advance first hx ha hw).of_part hpart
    | cons u rest =>
      rw [verticesAll_cons _ _ (List.cons_ne_nil u rest), List.mem_append, List.mem_map] at hx
      rcases hx with ⟨y, hy, rfl⟩ | hx
      · rw [place_lead]
        rcases arrow_lead ha hw with ⟨b, hb, hw⟩ | hnext
        · exact (vertices_advance first hy hb hw).head.of_part hpart
        · refine .of_part hpart (.inl ?_)
          exact sublist_pair (place_mem_places hy) (entryOf_mem_placesAll hnext)
      · exact (verticesAll_advance (u :: rest) hx ha hw).cons.of_part hpart

theorem verticesAll_advance (ts : List (Flow V)) {direction : List String} {x : Vertex V}
    (hx : x ∈ verticesAll direction ts) {a : Arrow V} (ha : a ∈ x.arrows) {w : V}
    (hw : a.target = some w) : Advances ts x.place w := by
  cases ts with
  | nil => cases hx
  | cons t rest =>
    cases rest with
    | nil => exact vertices_advance t hx ha hw
    | cons u rest =>
      rw [verticesAll_cons _ _ (List.cons_ne_nil u rest), List.mem_append, List.mem_map] at hx
      rcases hx with ⟨y, hy, rfl⟩ | hx
      · rw [place_lead]
        rcases arrow_lead ha hw with ⟨b, hb, hw⟩ | hnext
        · exact (vertices_advance t hy hb hw).head
        · exact .inl (sublist_pair (place_mem_places hy) (entryOf_mem_placesAll hnext))
      · exact (verticesAll_advance (u :: rest) hx ha hw).cons

end

end Flow

theorem idxOf_lt_of_sublist {α : Type} [DecidableEq α] {l : List α} (hl : l.Nodup) {a b : α}
    (h : [a, b].Sublist l) : l.idxOf a < l.idxOf b := by
  have hpairs : l.Pairwise fun a b => l.idxOf a < l.idxOf b := by
    rw [List.pairwise_iff_getElem]
    intro i j hi hj hij
    rw [hl.idxOf_getElem i hi, hl.idxOf_getElem j hj]
    exact hij
  exact List.pairwise_iff_forall_sublist.1 hpairs h

/-- A walk rises from its first place to its last, or takes a step that does not rise. -/
theorem rises_or_falls {α : Type} {r : α → α → Prop} (rank : α → Nat) {n m : α} {ns : List α}
    (h : List.IsChain r (n :: ns ++ [m])) :
    rank n < rank m ∨ ∃ a b, [a, b] <:+: n :: ns ++ [m] ∧ r a b ∧ ¬rank a < rank b := by
  induction ns generalizing n with
  | nil =>
    by_cases hlt : rank n < rank m
    · exact .inl hlt
    · exact .inr ⟨n, m, List.infix_refl _, (List.isChain_cons_cons.1 h).1, hlt⟩
  | cons k rest ih =>
    obtain ⟨hstep, hrest⟩ := List.isChain_cons_cons.1 h
    by_cases hlt : rank n < rank k
    · rcases ih hrest with hle | ⟨a, b, hinfix, hab, hfalls⟩
      · exact .inl (hlt.trans hle)
      · exact .inr ⟨a, b, hinfix.trans (List.suffix_cons n _).isInfix, hab, hfalls⟩
    · exact .inr ⟨n, k, ⟨[], rest ++ [m], rfl⟩, hstep, hlt⟩

theorem exists_walk {α : Type} {r : α → α → Prop} {n m : α} (h : Relation.TransGen r n m) :
    ∃ ns, List.IsChain r (n :: ns ++ [m]) := by
  induction h using Relation.TransGen.head_induction_on with
  | single h => exact ⟨[], .cons_cons h (.singleton _)⟩
  | @head a c h _ ih =>
    obtain ⟨ns, hns⟩ := ih
    exact ⟨c :: ns, .cons_cons h hns⟩

/-- A line from a place in the body of a loop back to the test of the loop, which shows its
header. -/
structure LeadsBack (pieces : List Piece) (ts : List (Flow Spot)) (f : Spot → Named) (d : Drawing)
    (path : List Nat) (v : Spot) : Prop where
  loop : ∃ s header, stmtAt pieces path = some s ∧ s.isLoop = true ∧
    (Piece.stmt s).header = .ok header ∧
    (f ⟨path, 0⟩).box = ⟨none, header, []⟩
  test : ⟨path, 0⟩ ∈ Flow.placesAll ts
  inside : v ∈ Flow.placesAll ts ∧ v.Below (0 :: path)
  drawn : (f v).definition ∈ d.nodes ∧ (f ⟨path, 0⟩).definition ∈ d.nodes
  line : d.Leads (f v).name (f ⟨path, 0⟩).name

theorem isLoop_of_layout {simplify : Bool} {path : List Nat} {s : Stmt} {w : Spot}
    {body : List (Flow Spot)} (h : layout simplify path s = .loop w body) : s.isLoop = true := by
  cases s with
  | function isAsync line name params body decorators result => cases isAsync <;> cases h
  | forEach isAsync target source body orelse =>
    cases isAsync with
    | true => cases h
    | false => rfl
  | whileTrue test body orelse => rfl
  | branch test body orelse =>
    rw [layout] at h
    rcases ofBranch_cases simplify ⟨path, 0⟩ (layouts simplify (0 :: path) 0 body)
      (layouts simplify (1 :: path) 0 orelse) with hof | ⟨-, hof⟩
    · rw [hof] at h
      cases h
    · rw [hof] at h
      cases h
  | giveBack value => cases value <;> cases h
  | select subject cases => cases cases <;> cases h
  | lacking part s => exact isLoop_of_layout (s := s) h
  | _ => cases h

section

variable {options : Options} {pieces : List Piece} {us : List (Flow Box)}
  {f : Spot → Named} {d : Drawing}
  (hproper : ∀ p ∈ pieces, p.Proper) (hus : outlinePieces options pieces = .ok us)
  (h : Portrays (layoutPieces options.simplify 0 pieces) (arrange options us) f d)
include hproper hus h

/-- Every line leads on in the order of the layout, or back to the test of a loop from its body. -/
theorem Portrays.line_advances {a b : String} (hab : d.Leads a b) :
    [a, b].Sublist ((Flow.placesAll (layoutPieces options.simplify 0 pieces)).map fun v =>
      (f v).name) ∨
      ∃ path v, LeadsBack pieces (layoutPieces options.simplify 0 pieces) f d path v ∧
        a = (f v).name ∧
        b = (f ⟨path, 0⟩).name := by
  obtain ⟨entry, hentry, hd⟩ := h.drawn
  obtain ⟨labels, hline⟩ := hab
  obtain ⟨x, hx, hreached, arrow, ha, w, hw, hk⟩ := (hd.lines _).1 hline
  cases hk
  rcases Flow.verticesAll_advance _ hx ha hw with hlater | ⟨body, hloop, hbody⟩
  · exact .inl (hlater.map fun v => (f v).name)
  · -- the flow of a loop stands for a loop of the code
    cases accounted_of_among hproper hus h.boxes hloop with
    | @stmt path s hs =>
      have hisLoop := isLoop_of_layout hs.laid.symm
      obtain ⟨body', header, -, -, hheader, ⟨-, hmerged⟩ | ⟨hflow, hbox, -⟩⟩ := hs.loop hisLoop
      · cases hmerged
      · cases hflow
        obtain ⟨j, -, hbelow⟩ := (layouts_fresh _ (0 :: path) 0 body').below _ hbody
        have htarget := Flow.verticesAll_targets [] _ x hx _ ha _ hw
        rw [Flow.map_place_verticesAll] at htarget
        refine .inr ⟨path, x.place, ?_, rfl, rfl⟩
        exact {
          loop := ⟨s, header, hs.found, hisLoop, hheader, hbox⟩
          test := htarget
          inside := ⟨Flow.place_mem_placesAll hx, hbelow.cons⟩
          drawn := ⟨(hd.nodes _).2 ⟨_, hreached, rfl⟩,
            (hd.nodes _).2 ⟨_, .arrow hreached hx ha hw, rfl⟩⟩
          line := ⟨_, hline⟩ }
    | @case path k c hc =>
      cases c with
      | mk pattern guard body => cases hc.laid
      | lacking part c => exact hc.whole.elim
    | other _ _ hstep => cases hstep

theorem Portrays.closed_walk {n : String} {ns : List String}
    (hwalk : List.IsChain d.Leads (n :: ns ++ [n])) :
    ∃ path v, LeadsBack pieces (layoutPieces options.simplify 0 pieces) f d path v ∧
      [(f v).name, (f ⟨path, 0⟩).name] <:+: n :: ns ++ [n] := by
  let names := (Flow.placesAll (layoutPieces options.simplify 0 pieces)).map fun v => (f v).name
  have hnames : names.Nodup :=
    (layoutPieces_fresh _ 0 pieces).nodup.map_on fun v hv w hw heq => h.apart v hv w hw heq
  rcases rises_or_falls names.idxOf hwalk with hlt | ⟨a, b, hinfix, hab, hfalls⟩
  · exact absurd hlt (lt_irrefl _)
  · rcases h.line_advances hproper hus hab with hlater | ⟨path, v, hback, rfl, rfl⟩
    · exact absurd (idxOf_lt_of_sublist hnames hlater) hfalls
    · exact ⟨path, v, hback, hinfix⟩

end

/-- Only loops make cycles. Every closed walk along the lines of the chart of a program takes a line
from inside the body of a loop back to the test of the loop, and a chart in which no loop is drawn
as a test has no cycle. -/
theorem cycles_close_loops (source : Source) (pieces : List Piece)
    (hpieces : source.pieces = .ok pieces) (σ : Store) (hσ : σ.Sound) :
    Realizes σ source.draw (outlinePieces source.options pieces) fun text _ flows => ∃ f d,
      text = d.text ∧
      Portrays (layoutPieces source.options.simplify 0 pieces) (arrange source.options flows) f d ∧
      (∀ n ns, List.IsChain d.Leads (n :: ns ++ [n]) →
        ∃ path v, LeadsBack pieces (layoutPieces source.options.simplify 0 pieces) f d path v ∧
          [(f v).name, (f ⟨path, 0⟩).name] <:+: n :: ns ++ [n]) ∧
      ((∀ path s, stmtAt pieces path = some s → s.isLoop = true →
          ⟨path, 0⟩ ∈ Flow.placesAll (layoutPieces source.options.simplify 0 pieces) →
          (f ⟨path, 0⟩).definition ∈ d.nodes → (f ⟨path, 0⟩).definition.word ≠ "condition") →
        ∀ n, ¬Relation.TransGen d.Leads n n) := by
  obtain ⟨-, hproper⟩ := pieces_proper hpieces
  refine (draw_realizes hpieces hσ).mono fun text τ flows hus hpost => ?_
  obtain ⟨f, d, htext, hportrays⟩ := hpost
  refine ⟨f, d, htext, hportrays, fun n ns => hportrays.closed_walk hproper hus, ?_⟩
  intro hnone n hcycle
  obtain ⟨ns, hwalk⟩ := exists_walk hcycle
  obtain ⟨path, v, hback, -⟩ := hportrays.closed_walk hproper hus hwalk
  obtain ⟨s, header, hfound, hloop, -, hbox⟩ := hback.loop
  have hcondition : (f ⟨path, 0⟩).definition.word = "condition" :=
    word_eq_condition.2 (by rw [hbox])
  exact hnone path s hfound hloop hback.test hback.drawn.2 hcondition

/-- A loop inside a loop. -/
def nestedLoops : Source where
  code := "for a in b:\n    while c:\n        d\n        e\n"

theorem cycles_close_loops_nested : ∃ pieces text τ f d, nestedLoops.pieces = .ok pieces ∧
    nestedLoops.draw {} = .ok text τ ∧ text = d.text ∧
    (∀ n ns, List.IsChain d.Leads (n :: ns ++ [n]) →
      ∃ path v, LeadsBack pieces (layoutPieces nestedLoops.options.simplify 0 pieces) f d path v ∧
        [(f v).name, (f ⟨path, 0⟩).name] <:+: n :: ns ++ [n]) := by
  have hfound : (nestedLoops.pieces >>= outlinePieces nestedLoops.options).isOk = true := by
    decide +kernel
  cases hpieces : nestedLoops.pieces with
  | error fault =>
    rw [hpieces] at hfound
    cases hfound
  | ok pieces =>
    have hdraw := cycles_close_loops nestedLoops pieces hpieces {} sound_empty
    rw [hpieces] at hfound
    cases hspec : outlinePieces nestedLoops.options pieces with
    | error fault =>
      change (outlinePieces nestedLoops.options pieces).isOk = true at hfound
      rw [hspec] at hfound
      cases hfound
    | ok flows =>
      rw [hspec] at hdraw
      obtain ⟨text, τ, hrun, f, d, htext, -, hwalks, -⟩ := hdraw
      exact ⟨pieces, text, τ, f, d, rfl, hrun, htext, hwalks⟩

end CodeChart.Chart
