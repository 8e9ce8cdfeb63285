import CodeChart.Proofs.Addresses
import CodeChart.Proofs.Liveness
import CodeChart.Proofs.Totality

/-! The options of a chart at every depth. A statement is drawn with the options in force at its
path: those of the chart, unless the path leads through a case of a selection. Where these do not
simplify, every statement has a node of its own, and branches and loops are drawn as tests with
their suites apart; where they align, a branch is marked if another one follows it. -/
namespace CodeChart.Chart

open CodeChart.Graph Code CodeChart.Chart.Flow

section

variable {options : Options} {pieces : List Piece} {box : Spot → Box}
  {path : List Nat} {t : Flow Spot}
  {s : Stmt}

/-- Where nothing is simplified, the suites of a statement are parts of its flow. -/
theorem Stands.suite (h : Stands options pieces box path s t)
    (hplain : (optionsAt options pieces path).simplify = false) (hselect : s.isSelection = false)
    {k : Nat} {ss : List Stmt} (hk : s.suites[k]? = some ss) :
    layouts (optionsAt options pieces path).simplify (k :: path) 0 ss ∈ t.parts ∧
      SuiteAt options pieces box (k :: path) (optionsAt options pieces path) ss := by
  have hone : ∀ {body : List Stmt}, [body][k]? = some ss → k = 0 ∧ body = ss := by
    intro body hbody
    cases k with
    | zero => exact ⟨rfl, Option.some.inj hbody⟩
    | succ k => cases hbody
  have hloop : s.isLoop = true → layouts (optionsAt options pieces path).simplify
      (k :: path) 0 ss ∈ t.parts ∧
      SuiteAt options pieces box (k :: path) (optionsAt options pieces path) ss := by
    intro hs
    obtain ⟨body, header, hsuites, -, -, ⟨hsimplify, -⟩ | ⟨rfl, -, hsuite⟩⟩ := h.loop hs
    · rw [hplain] at hsimplify
      cases hsimplify
    · rw [hsuites] at hk
      obtain ⟨rfl, rfl⟩ := hone hk
      exact ⟨List.mem_singleton.2 rfl, hsuite⟩
  cases s with
  | function isAsync line name params body decorators result =>
    cases isAsync with
    | true => cases hk
    | false =>
      obtain ⟨rfl, rfl⟩ := hone hk
      obtain ⟨rfl, hsuite⟩ := h.routine
      exact ⟨List.mem_singleton.2 rfl, hsuite⟩
  | forEach isAsync target source body orelse =>
    cases isAsync with
    | true => cases hk
    | false => exact hloop rfl
  | whileTrue test body orelse => exact hloop rfl
  | branch test body orelse =>
    obtain ⟨header, -, ⟨hsimplify, -⟩ | ⟨rfl, -, hbody, horelse⟩⟩ := h.branch
    · rw [hplain] at hsimplify
      cases hsimplify
    · match k, hk with
      | 0, rfl => exact ⟨List.mem_cons_self, hbody⟩
      | 1, rfl => exact ⟨List.mem_cons_of_mem _ List.mem_cons_self, horelse⟩
  | select subject cases => cases hselect
  | lacking part s => exact h.proper.whole.elim
  | _ => cases hk

theorem own_layout (simplify : Bool) (path : List Nat) (s : Stmt) {v : Spot}
    (h : v ∈ (layout simplify path s).own) : v.path = path := by
  have hloop : ∀ ts, v ∈ (ofLoop simplify ⟨path, 0⟩ ts).own → v.path = path := by
    intro ts hv
    rcases ofLoop_cases simplify ⟨path, 0⟩ ts with hof | ⟨-, hof⟩
    · rw [hof] at hv
      rw [List.mem_singleton.1 hv]
    · rw [hof] at hv
      rw [List.mem_singleton.1 hv]
  cases s with
  | function isAsync line name params body decorators result =>
    cases isAsync with
    | true =>
      obtain rfl := List.mem_singleton.1 h
      rfl
    | false =>
      simp only [layout, own, List.mem_cons, List.not_mem_nil, or_false] at h
      rcases h with rfl | rfl | rfl <;> rfl
  | forEach isAsync target source body orelse =>
    cases isAsync with
    | true =>
      obtain rfl := List.mem_singleton.1 h
      rfl
    | false => exact hloop _ h
  | whileTrue test body orelse => exact hloop _ h
  | branch test body orelse =>
    rw [layout] at h
    rcases ofBranch_cases simplify ⟨path, 0⟩ (layouts simplify (0 :: path) 0 body)
      (layouts simplify (1 :: path) 0 orelse) with hof | ⟨-, hof⟩
    · rw [hof] at h
      rw [List.mem_singleton.1 h]
    · rw [hof] at h
      rw [List.mem_singleton.1 h]
  | giveBack value =>
    cases value with
    | none =>
      obtain rfl := List.mem_singleton.1 h
      rfl
    | some e =>
      simp only [layout, own, Option.toList, List.cons_append, List.nil_append, List.mem_cons,
        List.not_mem_nil, or_false] at h
      rcases h with rfl | rfl <;> rfl
  | select subject cases =>
    cases cases with
    | nil =>
      obtain rfl := List.mem_singleton.1 h
      rfl
    | cons c rest => cases h
  | lacking part s => exact own_layout simplify path s h
  | _ =>
    obtain rfl := List.mem_singleton.1 h
    rfl

theorem simplify_of_layout (simplify : Bool) (path : List Nat) (s : Stmt) {isBranch : Bool}
    {v : Spot} (h : layout simplify path s = .merged isBranch v) : simplify = true := by
  have hloop : ∀ ts, ofLoop simplify ⟨path, 0⟩ ts = .merged isBranch v → simplify = true := by
    intro ts hof
    rcases ofLoop_cases simplify ⟨path, 0⟩ ts with hflow | ⟨hsimplify, -⟩
    · rw [hflow] at hof
      cases hof
    · exact hsimplify
  cases s with
  | function isAsync line name params body decorators result => cases isAsync <;> cases h
  | forEach isAsync target source body orelse =>
    cases isAsync with
    | true => cases h
    | false => exact hloop _ h
  | whileTrue test body orelse => exact hloop _ h
  | branch test body orelse =>
    rw [layout] at h
    rcases ofBranch_cases simplify ⟨path, 0⟩ (layouts simplify (0 :: path) 0 body)
      (layouts simplify (1 :: path) 0 orelse) with hof | ⟨hsimplify, -⟩
    · rw [hof] at h
      cases h
    · exact hsimplify
  | giveBack value => cases value <;> cases h
  | select subject cases => cases cases <;> cases h
  | lacking part s => exact simplify_of_layout simplify path s h
  | _ => cases h

section

variable {us : List (Flow Box)} (hproper : ∀ p ∈ pieces, p.Proper)
  (hus : outlinePieces options pieces = .ok us)
  (hbox : mapAll box (layoutPieces options.simplify 0 pieces) = arrange options us)
include hproper hus hbox

theorem exists_stands (hfound : stmtAt pieces path = some s)
    (hplain : (optionsAt options pieces path).simplify = false) :
    ∃ t, Among (layoutPieces options.simplify 0 pieces) t ∧ Stands options pieces box path s t := by
  -- outside all cases the statements around this one have flows, down to a piece
  induction path using stmtAt.induct generalizing s with
  | case1 => cases hfound
  | case2 j =>
    obtain ⟨p, hp, hs⟩ := Option.bind_eq_some_iff.1 hfound
    cases p with
    | stmt s' =>
      cases hs
      obtain ⟨hmem, hstands⟩ := stands_of_piece hproper hus hbox hp
      exact ⟨_, .here hmem, hstands⟩
    | _ => cases hs
  | case3 i k path ih =>
    obtain ⟨s', hs', hfound⟩ := Option.bind_eq_some_iff.1 hfound
    obtain ⟨ss, hss, hs⟩ := Option.bind_eq_some_iff.1 hfound
    have hselect : s'.isSelection = false := by
      by_contra hsel
      rw [Bool.not_eq_false] at hsel
      rw [optionsAt, insideCase, hs', Option.any_some, hsel] at hplain
      cases hplain
    have hplain' : (optionsAt options pieces path).simplify = false := by
      rw [optionsAt, insideCase, hs', Option.any_some, hselect, Bool.false_or] at hplain
      exact hplain
    obtain ⟨t, hamong, hstands⟩ := ih hs' hplain'
    obtain ⟨hpart, hsuite⟩ := hstands.suite hplain' hselect hss
    obtain ⟨hmem, hstands'⟩ := hsuite.stands hs
    exact ⟨_, .inside hamong hpart hmem, hstands'⟩

theorem stands_of_place (hfound : stmtAt pieces path = some s) (hselect : s.isSelection = false)
    {n : Nat} (hplace : ⟨path, n⟩ ∈ placesAll (layoutPieces options.simplify 0 pieces)) :
    ∃ t, Among (layoutPieces options.simplify 0 pieces) t ∧ Stands options pieces box path s t := by
  obtain ⟨t, hamong, hown⟩ := among_of_mem_placesAll _ hplace
  cases accounted_of_among hproper hus hbox hamong with
  | @stmt path' s' hs =>
    rw [hs.laid] at hown
    obtain rfl : path = path' := own_layout _ _ _ hown
    obtain rfl : s' = s := Option.some.inj (hs.found.symm.trans hfound)
    exact ⟨t, hamong, hs⟩
  | @case path' k c hc =>
    obtain ⟨subject, cases, hselection, -⟩ := hc.found
    cases c with
    | mk pattern guard body =>
      rw [hc.laid] at hown
      cases List.mem_singleton.1 hown
      rw [hselection] at hfound
      cases hfound
      cases hselect
    | lacking part c => exact hc.whole.elim
  | other hnone _ hstep =>
    rw [hstep] at hown
    cases List.mem_singleton.1 hown
    rw [hnone] at hfound
    cases hfound

theorem simplify_of_merged {isBranch : Bool} {v : Spot}
    (h : Among (layoutPieces options.simplify 0 pieces) (.merged isBranch v)) :
    (optionsAt options pieces v.path).simplify = true := by
  cases accounted_of_among hproper hus hbox h with
  | @stmt path s hs =>
    have hown : v ∈ (Flow.merged isBranch v).own := List.mem_singleton.2 rfl
    rw [hs.laid] at hown
    obtain rfl : v.path = path := own_layout _ _ _ hown
    exact simplify_of_layout _ _ _ hs.laid.symm
  | @case path k c hc =>
    cases c with
    | mk pattern guard body => cases hc.laid
    | lacking part c => exact hc.whole.elim
  | other _ _ hstep => cases hstep

end

end

/-- A statement is drawn as a test with its header. Where the test is reached, its answer `yes`
leads to a node of the first statement of its suite. -/
structure DrawnAsTest (ts : List (Flow Spot)) (entry : Spot) (f : Spot → Named) (d : Drawing)
    (path : List Nat) (s : Stmt) : Prop where
  place : ⟨path, 0⟩ ∈ placesAll ts
  shape : (f ⟨path, 0⟩).definition.word = "condition"
  header : (Piece.stmt s).header = .ok (f ⟨path, 0⟩).definition.text
  node : Reached (verticesAll [] ts) entry ⟨path, 0⟩ → (f ⟨path, 0⟩).definition ∈ d.nodes
  yes : Reached (verticesAll [] ts) entry ⟨path, 0⟩ → ∃ v ∈ placesAll ts, v.path = 0 :: 0 :: path ∧
    ⟨(f ⟨path, 0⟩).name, ["yes"], (f v).name⟩ ∈ d.lines

theorem entryOf_layouts {simplify : Bool} {path : List Nat} {ss : List Stmt} (h : ss ≠ []) :
    ∃ v, entryOf (layouts simplify path 0 ss) = some v ∧ v.path = 0 :: path := by
  cases ss with
  | nil => exact absurd rfl h
  | cons s rest => exact ⟨_, rfl, entry_path simplify (0 :: path) s⟩

section

variable {ts : List (Flow Spot)} {entry : Spot} {f : Spot → Named} {d : Drawing}
  {path : List Nat} {s : Stmt}
  {simplify : Bool} {body : List Stmt} {t : Flow Spot} {others : List (Vertex Spot)}

theorem drawnAsTest_of_among {no : Option Spot} (hamong : Among ts t)
    (hvertices : ∀ direction, vertices direction t
      = .test ⟨path, 0⟩ (some (entryOf (layouts simplify (0 :: path) 0 body))) no :: others)
    (hbody : body ≠ []) (hd : Depicts (verticesAll [] ts) entry f d)
    (hshape : (f ⟨path, 0⟩).box.shape = none)
    (hheader : (Piece.stmt s).header = .ok (f ⟨path, 0⟩).box.text) :
    DrawnAsTest ts entry f d path s := by
  obtain ⟨direction, next, hplaced⟩ := hamong.placed
  rw [hvertices] at hplaced
  obtain ⟨v, hv, hpath⟩ := entryOf_layouts hbody
  have hx := hplaced.head
  rw [hv] at hx
  have hyes : (⟨["yes"], some v⟩ : Arrow Spot) ∈
      ((Vertex.test ⟨path, 0⟩ (some (some v)) no).lead next).arrows :=
    mem_arrows_test.2 (.inl ⟨_, rfl, rfl⟩)
  have htarget := verticesAll_targets [] ts _ hx _ hyes v rfl
  rw [map_place_verticesAll] at htarget
  exact {
    place := place_mem_placesAll hx
    shape := word_eq_condition.2 hshape
    header := hheader
    node := fun hreached => (hd.nodes _).2 ⟨_, hreached, rfl⟩
    yes := fun hreached =>
      ⟨v, htarget, hpath, (hd.lines _).2 ⟨_, hx, hreached, _, hyes, v, rfl, rfl⟩⟩ }

end

section

variable {options : Options} {pieces : List Piece} {us : List (Flow Box)}
  {f : Spot → Named} {d : Drawing}
  {entry : Spot} {path : List Nat} {s : Stmt}
  (hproper : ∀ p ∈ pieces, p.Proper) (hus : outlinePieces options pieces = .ok us)
  (hbox : mapAll (fun v => (f v).box) (layoutPieces options.simplify 0 pieces) = arrange options us)
include hproper hus hbox

theorem drawnAsTest
    (hd : Depicts (verticesAll [] (layoutPieces options.simplify 0 pieces)) entry f d)
    (hfound : stmtAt pieces path = some s)
    (hplain : (optionsAt options pieces path).simplify = false)
    (hs : s.isBranch = true ∨ s.isLoop = true) :
    DrawnAsTest (layoutPieces options.simplify 0 pieces) entry f d path s := by
  obtain ⟨t, hamong, hstands⟩ := exists_stands hproper hus hbox hfound hplain
  have hloop : s.isLoop = true → DrawnAsTest (layoutPieces options.simplify 0 pieces)
      entry f d path s := by
    intro hs
    obtain ⟨body, header, -, hne, hheader, ⟨hsimplify, -⟩ | ⟨rfl, hbox, -⟩⟩ := hstands.loop hs
    · rw [hplain] at hsimplify
      cases hsimplify
    · exact drawnAsTest_of_among hamong (fun _ => rfl) hne hd (by rw [hbox]) (by rw [hbox, hheader])
  rcases hs with hs | hs
  · cases s with
    | branch test body orelse =>
      obtain ⟨header, hheader, ⟨hsimplify, -⟩ | ⟨rfl, hbox, -⟩⟩ := hstands.branch
      · rw [hplain] at hsimplify
        cases hsimplify
      · exact drawnAsTest_of_among hamong (fun _ => rfl) hstands.proper.filled.1 hd (by rw [hbox])
          (by rw [hbox, hheader])
    | lacking part s => exact hstands.proper.whole.elim
    | _ => cases hs
  · exact hloop hs

theorem exists_place (hfound : stmtAt pieces path = some s)
    (hplain : (optionsAt options pieces path).simplify = false) :
    ∃ v ∈ placesAll (layoutPieces options.simplify 0 pieces), v.path = path := by
  obtain ⟨t, hamong, hstands⟩ := exists_stands hproper hus hbox hfound hplain
  obtain ⟨direction, next, hplaced⟩ := hamong.placed
  obtain ⟨x, hx, hentry⟩ := List.mem_map.1 (entry_mem direction t)
  have hplace := place_mem_placesAll (hplaced x hx)
  rw [place_lead, hentry, hstands.laid] at hplace
  exact ⟨_, hplace, entry_path _ path s⟩

theorem drawnAsTest_of_place
    (hd : Depicts (verticesAll [] (layoutPieces options.simplify 0 pieces)) entry f d)
    (hfound : stmtAt pieces path = some s) (hs : s.isBranch = true)
    (hplace : ⟨path, 0⟩ ∈ placesAll (layoutPieces options.simplify 0 pieces))
    (htest : (f ⟨path, 0⟩).box.shape = none) :
    DrawnAsTest (layoutPieces options.simplify 0 pieces) entry f d path s := by
  obtain ⟨t, hamong, hstands⟩ :=
    stands_of_place hproper hus hbox hfound (isSelection_of_isBranch hs) hplace
  cases s with
  | branch test body orelse =>
    obtain ⟨header, hheader, ⟨-, -, hshape⟩ | ⟨rfl, hbox, -⟩⟩ := hstands.branch
    · rw [htest] at hshape
      cases hshape
    · exact drawnAsTest_of_among hamong (fun _ => rfl) hstands.proper.filled.1 hd (by rw [hbox])
        (by rw [hbox, hheader])
  | lacking part s => exact hstands.proper.whole.elim
  | _ => cases hs

/-- A branch that is drawn as a test has the mark that the options in force ask for. -/
theorem params_of_branch (hfound : stmtAt pieces path = some s) (hs : s.isBranch = true)
    (hplace : ⟨path, 0⟩ ∈ placesAll (layoutPieces options.simplify 0 pieces))
    (htest : (f ⟨path, 0⟩).box.shape = none) : (f ⟨path, 0⟩).box.params
      = alignment ((optionsAt options pieces path).align && followedByBranch pieces path) := by
  obtain ⟨t, -, hstands⟩ :=
    stands_of_place hproper hus hbox hfound (isSelection_of_isBranch hs) hplace
  cases s with
  | branch test body orelse =>
    obtain ⟨header, -, ⟨-, -, hshape⟩ | ⟨-, hbox, -⟩⟩ := hstands.branch
    · rw [htest] at hshape
      cases hshape
    · rw [hbox]
  | lacking part s => exact hstands.proper.whole.elim
  | _ => cases hs

end

/-- Every statement of a program is drawn with the options in force at its path. Where these do not
simplify, every statement has a node of its own, and branches and loops are drawn as tests with
their suites apart. A branch that is drawn as a test is marked exactly if the options in force align
and another branch comes next. A box that shows a test and its suite together stands where the
options in force simplify. -/
theorem options_in_force (source : Source) (pieces : List Piece)
    (hpieces : source.pieces = .ok pieces) (σ : Store) (hσ : σ.Sound) :
    Realizes σ source.draw (outlinePieces source.options pieces) fun text _ flows => ∃ f d entry,
      text = d.text ∧
      Portrays (layoutPieces source.options.simplify 0 pieces) (arrange source.options flows) f d ∧
      entryOf (layoutPieces source.options.simplify 0 pieces) = some entry ∧
      (∀ path s, stmtAt pieces path = some s → (optionsAt source.options pieces path).simplify
        = false →
        (∃ v ∈ placesAll (layoutPieces source.options.simplify 0 pieces), v.path = path) ∧
        (s.isBranch = true ∨ s.isLoop = true →
          DrawnAsTest (layoutPieces source.options.simplify 0 pieces) entry f d path s)) ∧
      (∀ path s, stmtAt pieces path = some s → s.isBranch = true →
        ⟨path, 0⟩ ∈ placesAll (layoutPieces source.options.simplify 0 pieces) →
        (f ⟨path, 0⟩).definition.word = "condition" → (f ⟨path, 0⟩).definition.params
          = alignment ((optionsAt source.options pieces path).align
            && followedByBranch pieces path)) ∧
      ∀ isBranch v, Among (layoutPieces source.options.simplify 0 pieces) (.merged isBranch v) →
        (optionsAt source.options pieces v.path).simplify = true := by
  obtain ⟨-, hproper⟩ := pieces_proper hpieces
  refine (draw_realizes hpieces hσ).mono fun text τ flows hus hpost => ?_
  obtain ⟨f, d, htext, hportrays⟩ := hpost
  obtain ⟨entry, hentry, hd⟩ := hportrays.drawn
  refine ⟨f, d, entry, htext, hportrays, hentry, fun path s hfound hplain => ⟨?_, fun hs => ?_⟩,
    fun path s hfound hs hplace hword => ?_, fun isBranch v hmerged => ?_⟩
  · exact exists_place hproper hus hportrays.boxes hfound hplain
  · exact drawnAsTest hproper hus hportrays.boxes hd hfound hplain hs
  · exact params_of_branch hproper hus hportrays.boxes hfound hs hplace (word_eq_condition.1 hword)
  · exact simplify_of_merged hproper hus hportrays.boxes hmerged

/-- A branch inside a case, and a loop after the selection, with nothing to simplify. -/
def branchInCase : Source where
  code := "match x:\n    case 1:\n        if a:\n            b\nwhile c:\n    d\n"
  options := { simplify := false }

/-- The loop is drawn as a test, while the branch inside the case is drawn as one box all the same:
its body has no place of its own. -/
theorem options_in_force_case : ∃ pieces s text τ f d entry, branchInCase.pieces = .ok pieces ∧
    branchInCase.draw {} = .ok text τ ∧ text = d.text ∧
    (placesAll (layoutPieces false 0 pieces)).map Spot.path = [[0], [0, 0, 0], [1], [0, 0, 1]] ∧
    (optionsAt branchInCase.options pieces [0, 0, 0]).simplify = true ∧
    stmtAt pieces [1] = some s ∧ s.isLoop = true ∧
    DrawnAsTest (layoutPieces false 0 pieces) entry f d [1] s := by
  have hfound : branchInCase.pieces.toOption.any (fun pieces =>
      (outlinePieces branchInCase.options pieces).isOk &&
      decide ((placesAll (layoutPieces false 0 pieces)).map Spot.path
        = [[0], [0, 0, 0], [1], [0, 0, 1]]) &&
      (optionsAt branchInCase.options pieces [0, 0, 0]).simplify &&
      (stmtAt pieces [1]).any Stmt.isLoop &&
      !(optionsAt branchInCase.options pieces [1]).simplify) = true := by
    decide +kernel
  cases hpieces : branchInCase.pieces with
  | error fault =>
    rw [hpieces] at hfound
    cases hfound
  | ok pieces =>
    have hdraw := options_in_force branchInCase pieces hpieces {} sound_empty
    rw [hpieces] at hfound
    simp only [Except.toOption, Option.any_some, Bool.and_eq_true, decide_eq_true_eq,
      Option.any_eq_true, Bool.not_eq_true'] at hfound
    obtain ⟨⟨⟨⟨hok, hplaces⟩, hcase⟩, s, hs, hloop⟩, hplain⟩ := hfound
    cases hspec : outlinePieces branchInCase.options pieces with
    | error fault =>
      rw [hspec] at hok
      cases hok
    | ok flows =>
      rw [hspec] at hdraw
      obtain ⟨text, τ, hrun, f, d, entry, htext, -, -, htests, -, -⟩ := hdraw
      exact ⟨pieces, s, text, τ, f, d, entry, rfl, hrun, htext, hplaces, hcase, hs, hloop,
        (htests [1] s hs hplain).2 (.inr hloop)⟩

end CodeChart.Chart
