import CodeChart.Code.Edit
import CodeChart.Proofs.WellFormed

/-! Statements by their paths. A path names a statement of the code; the options in force there are
those of the chart, except inside the cases of a selection. Every flow in the layout of a program
stands for the statement at its path and shows the outline of that statement with the options in
force. -/
namespace CodeChart.Code

/-- The suites of a statement that a chart draws; those of a selection are the bodies of its
cases. -/
def Stmt.suites : Stmt → List (List Stmt)
  | .function false _ _ _ body _ _ => [body]
  | .forEach false _ _ body _ => [body]
  | .whileTrue _ body _ => [body]
  | .branch _ body orelse => [body, orelse]
  | .select _ cases => cases.map Case.body
  | .lacking _ s => s.suites
  | _ => []

def Stmt.isBranch : Stmt → Bool
  | .branch .. => true
  | .lacking _ s => s.isBranch
  | _ => false

def Stmt.isLoop : Stmt → Bool
  | .forEach false .. => true
  | .whileTrue .. => true
  | .lacking _ s => s.isLoop
  | _ => false

def Stmt.isSelection : Stmt → Bool
  | .select .. => true
  | .lacking _ s => s.isSelection
  | _ => false

/-- The statement at a path: its index in its suite, the suite, and the path of the statement around
it, down to the index of a piece. -/
def stmtAt (pieces : List Piece) : List Nat → Option Stmt
  | [] => none
  | [i] => pieces[i]?.bind Piece.stmt?
  | i :: k :: path => do
    let s ← stmtAt pieces path
    let suite ← s.suites[k]?
    suite[i]?

/-- Whether a branch comes next in the suite of the statement at a path. -/
def followedByBranch (pieces : List Piece) : List Nat → Bool
  | [] => false
  | i :: path => (stmtAt pieces ((i + 1) :: path)).any Stmt.isBranch

/-- Whether a path leads through a case of a selection. -/
def insideCase (pieces : List Piece) : List Nat → Bool
  | _ :: _ :: path => (stmtAt pieces path).any Stmt.isSelection || insideCase pieces path
  | _ => false

theorem isSelection_of_isBranch {s : Stmt} (h : s.isBranch = true) : s.isSelection = false := by
  induction s using Stmt.isBranch.induct with
  | case1 test body orelse => rfl
  | case2 part s ih => exact ih h
  | case3 s hbranch hlacking =>
    rw [Stmt.isBranch.eq_3 s hbranch hlacking] at h
    cases h

theorem isSelection_of_isLoop {s : Stmt} (h : s.isLoop = true) : s.isSelection = false := by
  induction s using Stmt.isLoop.induct with
  | case1 target source body orelse => rfl
  | case2 test body orelse => rfl
  | case3 part s ih => exact ih h
  | case4 s hfor hwhile hlacking =>
    rw [Stmt.isLoop.eq_4 s hfor hwhile hlacking] at h
    cases h

theorem stmtAt_suite {pieces : List Piece} {path : List Nat} {s : Stmt}
    (h : stmtAt pieces path = some s) {k : Nat} {suite : List Stmt} (hk : s.suites[k]? = some suite)
    (i : Nat) :
    stmtAt pieces (i :: k :: path) = suite[i]? := by
  rw [stmtAt, h]
  simp [hk]

end CodeChart.Code

namespace CodeChart.Chart

open CodeChart.Graph Code

/-- The options in force at a path: those of the chart, but the usual ones inside the cases of a
selection. -/
def optionsAt (options : Options) (pieces : List Piece) (path : List Nat) : Options :=
  if insideCase pieces path then {} else options

namespace Flow

variable {V W : Type}

def parts : Flow V → List (List (Flow V))
  | .branch _ body orelse => [body, orelse]
  | .loop _ body => [body]
  | .routine _ _ body _ => [body]
  | .case _ body => [body]
  | .select first rest => [first :: rest]
  | _ => []

/-- The places of a flow that belong to none of its parts. -/
def own : Flow V → List V
  | .step v => [v]
  | .merged _ v => [v]
  | .jump v => [v]
  | .halt output finish => output.toList ++ [finish]
  | .branch test _ _ => [test]
  | .loop test _ => [test]
  | .routine start input _ finish => [start, input, finish]
  | .case test _ => [test]
  | .select _ _ => []

theorem place_mem_places {direction : List String} {t : Flow V} {x : Vertex V}
    (hx : x ∈ vertices direction t) : x.place ∈ places t := by
  rw [← map_place_vertices direction t]
  exact List.mem_map_of_mem hx

theorem place_mem_placesAll {direction : List String} {ts : List (Flow V)} {x : Vertex V}
    (hx : x ∈ verticesAll direction ts) : x.place ∈ placesAll ts := by
  rw [← map_place_verticesAll direction ts]
  exact List.mem_map_of_mem hx

theorem entryOf_mem_placesAll {ts : List (Flow V)} {e : V} (h : entryOf ts = some e) :
    e ∈ placesAll ts := by
  rw [← map_place_verticesAll [] ts]
  exact mem_of_entryOf [] ts h

/-- Flow `t` is one of the flows or stands somewhere inside one of them. -/
inductive Among (ts : List (Flow V)) : Flow V → Prop where
  | here {t} : t ∈ ts → Among ts t
  | inside {u us t} : Among ts u → us ∈ u.parts → t ∈ us → Among ts t

theorem Among.trans {ts us : List (Flow V)} {t u : Flow V} (hu : Among ts u) (hus : us ∈ u.parts)
    (h : Among us t) : Among ts t := by
  induction h with
  | here h => exact .inside hu hus h
  | inside _ hpart ht ih => exact .inside ih hpart ht

theorem Among.cons {ts : List (Flow V)} {t u : Flow V} (h : Among ts t) : Among (u :: ts) t := by
  induction h with
  | here h => exact .here (List.mem_cons_of_mem u h)
  | inside _ hpart ht ih => exact .inside ih hpart ht

theorem Among.head {ts : List (Flow V)} {t u : Flow V} (h : Among [u] t) : Among (u :: ts) t := by
  induction h with
  | here h =>
    obtain rfl := List.mem_singleton.1 h
    exact .here List.mem_cons_self
  | inside _ hpart ht ih => exact .inside ih hpart ht

theorem Among.of_part {us : List (Flow V)} {t u : Flow V} (hus : us ∈ u.parts) (h : Among us t) :
    Among [u] t :=
  .trans (.here List.mem_cons_self) hus h

mutual

theorem among_of_mem_places (t : Flow V) {v : V} (h : v ∈ places t) :
    ∃ u, Among [t] u ∧ v ∈ u.own := by
  cases t with
  | step w => exact ⟨_, .here List.mem_cons_self, h⟩
  | merged isBranch w => exact ⟨_, .here List.mem_cons_self, h⟩
  | jump w => exact ⟨_, .here List.mem_cons_self, h⟩
  | halt output finish => exact ⟨_, .here List.mem_cons_self, h⟩
  | branch test body orelse =>
    simp only [places, List.mem_cons, List.mem_append] at h
    rcases h with rfl | h | h
    · exact ⟨_, .here List.mem_cons_self, List.mem_cons_self⟩
    · obtain ⟨u, hu, hv⟩ := among_of_mem_placesAll body h
      exact ⟨u, hu.of_part (by simp [parts]), hv⟩
    · obtain ⟨u, hu, hv⟩ := among_of_mem_placesAll orelse h
      exact ⟨u, hu.of_part (by simp [parts]), hv⟩
  | loop test body =>
    simp only [places, List.mem_cons] at h
    rcases h with rfl | h
    · exact ⟨_, .here List.mem_cons_self, List.mem_cons_self⟩
    · obtain ⟨u, hu, hv⟩ := among_of_mem_placesAll body h
      exact ⟨u, hu.of_part (by simp [parts]), hv⟩
  | routine start input body finish =>
    simp only [places, List.mem_cons, List.mem_append, List.not_mem_nil, or_false] at h
    by_cases hbody : v ∈ placesAll body
    · obtain ⟨u, hu, hv⟩ := among_of_mem_placesAll body hbody
      exact ⟨u, hu.of_part (by simp [parts]), hv⟩
    · refine ⟨_, .here List.mem_cons_self, ?_⟩
      simpa [own, hbody] using h
  | case test body =>
    simp only [places, List.mem_cons] at h
    rcases h with rfl | h
    · exact ⟨_, .here List.mem_cons_self, List.mem_cons_self⟩
    · obtain ⟨u, hu, hv⟩ := among_of_mem_placesAll body h
      exact ⟨u, hu.of_part (by simp [parts]), hv⟩
  | select first rest =>
    rw [places, List.mem_append] at h
    have hpart : first :: rest ∈ (Flow.select first rest).parts := by simp [parts]
    rcases h with h | h
    · obtain ⟨u, hu, hv⟩ := among_of_mem_places first h
      exact ⟨u, hu.head.of_part hpart, hv⟩
    · obtain ⟨u, hu, hv⟩ := among_of_mem_placesAll rest h
      exact ⟨u, hu.cons.of_part hpart, hv⟩

theorem among_of_mem_placesAll (ts : List (Flow V)) {v : V} (h : v ∈ placesAll ts) :
    ∃ u, Among ts u ∧ v ∈ u.own := by
  cases ts with
  | nil => cases h
  | cons t rest =>
    rw [placesAll, List.mem_append] at h
    rcases h with h | h
    · obtain ⟨u, hu, hv⟩ := among_of_mem_places t h
      exact ⟨u, hu.head, hv⟩
    · obtain ⟨u, hu, hv⟩ := among_of_mem_placesAll rest h
      exact ⟨u, hu.cons, hv⟩

end

theorem placed_of_mem {xs : List (Vertex V)} {direction : List String} {next : Option V}
    {ts : List (Flow V)} (h : Placed xs next (verticesAll direction ts))
    {t : Flow V} (ht : t ∈ ts) :
    ∃ direction next, Placed xs next (vertices direction t) := by
  induction ts generalizing next with
  | nil => cases ht
  | cons u rest ih =>
    rcases List.mem_cons.1 ht with rfl | ht
    · obtain ⟨direction', -, hplaced⟩ := placed_head h
      exact ⟨direction', _, hplaced⟩
    · exact ih (placed_tail h) ht

theorem placed_of_part {xs : List (Vertex V)} {direction : List String} {next : Option V}
    {u : Flow V} (h : Placed xs next (vertices direction u)) {us : List (Flow V)}
    (hus : us ∈ u.parts) :
    ∃ direction next, Placed xs next (verticesAll direction us) := by
  cases u with
  | branch test body orelse =>
    simp only [parts, List.mem_cons, List.not_mem_nil, or_false] at hus
    rcases hus with rfl | rfl
    · exact ⟨_, _, h.tail.left⟩
    · exact ⟨_, _, h.tail.right⟩
  | loop test body =>
    obtain rfl := List.mem_singleton.1 hus
    exact ⟨_, _, h.tail.of_lead⟩
  | routine start input body finish =>
    obtain rfl := List.mem_singleton.1 hus
    exact ⟨_, _, h.tail.tail.left.of_lead⟩
  | case test body =>
    obtain rfl := List.mem_singleton.1 hus
    exact ⟨_, _, h.tail⟩
  | select first rest =>
    obtain rfl := List.mem_singleton.1 hus
    exact ⟨_, _, h⟩
  | _ => cases hus

theorem Among.placed {ts : List (Flow V)} {t : Flow V} (h : Among ts t) :
    ∃ direction next, Placed (verticesAll [] ts) next (vertices direction t) := by
  induction h with
  | here ht => exact placed_of_mem (placed_self _) ht
  | inside _ hus ht ih =>
    obtain ⟨direction, next, hu⟩ := ih
    obtain ⟨direction', next', hus⟩ := placed_of_part hu hus
    exact placed_of_mem hus ht

end Flow

open CodeChart.Chart.Flow

theorem getElem?_layouts (simplify : Bool) (path : List Nat) (i j : Nat) (ss : List Stmt) :
    (layouts simplify path i ss)[j]? = ss[j]?.map (layout simplify ((i + j) :: path)) := by
  induction ss generalizing i j with
  | nil => rfl
  | cons s rest ih =>
    cases j with
    | zero => rfl
    | succ j =>
      rw [layouts, List.getElem?_cons_succ, List.getElem?_cons_succ, ih, Nat.succ_add_eq_add_succ]

theorem getElem?_layoutCases (path : List Nat) (i j : Nat) (cs : List Case) :
    (layoutCases path i cs)[j]? = cs[j]?.map (layoutCase path (i + j)) := by
  induction cs generalizing i j with
  | nil => rfl
  | cons c rest ih =>
    cases j with
    | zero => rfl
    | succ j =>
      rw [layoutCases, List.getElem?_cons_succ, List.getElem?_cons_succ, ih,
        Nat.succ_add_eq_add_succ]

theorem getElem?_layoutPieces (simplify : Bool) (i j : Nat) (pieces : List Piece) :
    (layoutPieces simplify i pieces)[j]? = pieces[j]?.map (layoutPiece simplify [i + j]) := by
  induction pieces generalizing i j with
  | nil => rfl
  | cons p rest ih =>
    cases j with
    | zero => rfl
    | succ j =>
      rw [layoutPieces, List.getElem?_cons_succ, List.getElem?_cons_succ, ih,
        Nat.succ_add_eq_add_succ]

theorem isBranch_outline {options : Options} {code : Piece} {missing : List String} {s : Stmt}
    {u : Flow Box} (h : outline options code missing s = .ok u) : u.isBranch = s.isBranch := by
  have hshape := shape_outline [] h
  have hlayout : (layout options.simplify [] s).isBranch = s.isBranch := by
    clear h hshape
    induction s using Stmt.isBranch.induct with
    | case1 test body orelse =>
      rw [layout]
      unfold ofBranch
      split <;> rfl
    | case2 part s ih => exact ih
    | case3 s hbranch hlacking =>
      cases s with
      | branch test body orelse => exact (hbranch _ _ _ rfl).elim
      | lacking part s => exact (hlacking _ _ rfl).elim
      | function isAsync line name params body decorators result => cases isAsync <;> rfl
      | forEach isAsync target source body orelse =>
        cases isAsync with
        | true => rfl
        | false =>
          rw [layout]
          unfold ofLoop
          split <;> rfl
      | whileTrue test body orelse =>
        rw [layout]
        unfold ofLoop
        split <;> rfl
      | giveBack value => cases value <;> rfl
      | select subject cases => cases cases <;> rfl
      | _ => rfl
  calc u.isBranch = u.shape.isBranch := (isBranch_map _ u).symm
    _ = (layout options.simplify [] s).shape.isBranch := by rw [hshape]
    _ = s.isBranch := (isBranch_map _ _).trans hlayout

theorem align_of_not_branch {t : Flow Box} (h : t.isBranch = false) : t.align = t := by
  cases t with
  | branch test body orelse => cases h
  | _ => rfl

theorem getElem?_alignAll (us : List (Flow Box)) (j : Nat) :
    (alignAll us)[j]? = us[j]?.map fun u =>
      if us[j + 1]?.any Flow.isBranch then u.align else u := by
  fun_induction alignAll us generalizing j with
  | case1 t u rest ih =>
    cases j with
    | zero =>
      cases ht : t.isBranch with
      | true => simp
      | false => simp [align_of_not_branch ht]
    | succ j => exact ih j
  | case2 us hshort =>
    cases us with
    | nil => rfl
    | cons t rest =>
      cases rest with
      | nil => cases j <;> rfl
      | cons u rest => exact (hshort t u rest rfl).elim

theorem getElem?_arrange (options : Options) (us : List (Flow Box)) (j : Nat) :
    (arrange options us)[j]?
      = us[j]?.map fun u =>
        if options.align && us[j + 1]?.any Flow.isBranch then u.align else u := by
  unfold arrange
  cases options.align with
  | true => simpa using getElem?_alignAll us j
  | false => simp

theorem getElem?_outlines {options : Options} {ss : List Stmt} {us : List (Flow Box)}
    (h : outlines options ss = .ok us) (j : Nat) :
    (∀ s, ss[j]? = some s → ∃ u, us[j]? = some u ∧ outline options (.stmt s) [] s = .ok u) ∧
      us[j]?.any Flow.isBranch = ss[j]?.any Stmt.isBranch := by
  induction ss generalizing us j with
  | nil =>
    cases h
    exact ⟨by simp, rfl⟩
  | cons s rest ih =>
    obtain ⟨u, us, hu, hus, rfl⟩ := bind₂_eq_ok.1 h
    cases j with
    | zero =>
      refine ⟨?_, isBranch_outline hu⟩
      rintro _ ⟨⟩
      exact ⟨u, rfl, hu⟩
    | succ j => exact ih hus j

theorem getElem?_outlinePieces {options : Options} {pieces : List Piece} {us : List (Flow Box)}
    (h : outlinePieces options pieces = .ok us) (j : Nat) :
    (∀ p, pieces[j]? = some p → ∃ u, us[j]? = some u ∧ outlinePiece options p = .ok u) ∧
      us[j]?.any Flow.isBranch = (pieces[j]?.bind Piece.stmt?).any Stmt.isBranch := by
  induction pieces generalizing us j with
  | nil =>
    cases h
    exact ⟨by simp, rfl⟩
  | cons p rest ih =>
    obtain ⟨u, us, hu, hus, rfl⟩ := bind₂_eq_ok.1 h
    cases j with
    | succ j => exact ih hus j
    | zero =>
      constructor
      · rintro p ⟨⟩
        exact ⟨u, rfl, hu⟩
      · cases p with
        | stmt s => exact isBranch_outline hu
        | _ =>
          obtain ⟨b, -, rfl⟩ := map_eq_ok.1 hu
          rfl

section

variable (options : Options) (pieces : List Piece) (box : Spot → Box)

/-- Flow `t` stands for statement `s` at a path: it is laid out there and shows the outline, both
with the options in force. -/
structure Stands (path : List Nat) (s : Stmt) (t : Flow Spot) : Prop where
  found : stmtAt pieces path = some s
  proper : s.Proper
  laid : t = layout (optionsAt options pieces path).simplify path s
  shown : ∃ u, outline (optionsAt options pieces path) (.stmt s) [] s = .ok u ∧ t.map box
    = if (optionsAt options pieces path).align && followedByBranch pieces path then u.align else u

/-- Flow `t` stands for case `k` of the selection at a path. -/
structure StandsCase (path : List Nat) (k : Nat) (c : Case) (t : Flow Spot) : Prop where
  found : ∃ subject cases, stmtAt pieces path = some (.select subject cases) ∧ cases[k]? = some c
  filled : c.Filled
  whole : c.Whole
  laid : t = layoutCase path k c
  shown : ∃ subject code, outlineCase subject code [] c = .ok (t.map box)

/-- A suite at a path, with the options in force there. -/
structure SuiteAt (path : List Nat) (o : Options) (ss : List Stmt) : Prop where
  found : ∀ j, stmtAt pieces (j :: path) = ss[j]?
  force : ∀ j, optionsAt options pieces (j :: path) = o
  proper : ProperAll ss
  shown : ∃ us, outlines o ss = .ok us ∧ mapAll box (layouts o.simplify path 0 ss) = arrange o us

end

section

variable {options : Options} {pieces : List Piece} {box : Spot → Box}
  {path : List Nat} {t : Flow Spot}

theorem SuiteAt.stands {o : Options} {ss : List Stmt} (h : SuiteAt options pieces box path o ss)
    {j : Nat} {s : Stmt} (hs : ss[j]? = some s) :
    layout o.simplify (j :: path) s ∈ layouts o.simplify path 0 ss ∧
      Stands options pieces box (j :: path) s (layout o.simplify (j :: path) s) := by
  obtain ⟨us, hus, hbox⟩ := h.shown
  have hlayout : (layouts o.simplify path 0 ss)[j]? = some (layout o.simplify (j :: path) s) := by
    rw [getElem?_layouts, hs, Nat.zero_add]
    rfl
  have hmap := congrArg (·[j]?) hbox
  simp only [mapAll_eq, List.getElem?_map, hlayout, getElem?_arrange, Option.map_some] at hmap
  obtain ⟨u, hu, hout⟩ := (getElem?_outlines hus j).1 s hs
  refine ⟨List.mem_of_getElem? hlayout, (h.found j).trans hs,
    properAll_iff.1 h.proper s (List.mem_of_getElem? hs), ?_, u, ?_, ?_⟩
  · rw [h.force]
  · rw [h.force, hout]
  · rw [h.force, followedByBranch, h.found, ← (getElem?_outlines hus (j + 1)).2]
    rw [hu] at hmap
    exact Option.some.inj hmap

/-- A suite of a statement that is no selection is drawn with the options of the statement. -/
theorem suiteAt_of_stmt {s : Stmt} (hfound : stmtAt pieces path = some s)
    (hs : s.isSelection = false)
    {k : Nat} {ss : List Stmt} (hk : s.suites[k]? = some ss) (hproper : ProperAll ss)
    (hshown : ∃ us, outlines (optionsAt options pieces path) ss = .ok us ∧
      mapAll box (layouts (optionsAt options pieces path).simplify (k :: path) 0 ss)
        = arrange (optionsAt options pieces path) us) :
    SuiteAt options pieces box (k :: path) (optionsAt options pieces path) ss where
  found := stmtAt_suite hfound hk
  force j := by
    rw [optionsAt, insideCase, hfound, Option.any_some, hs, Bool.false_or, optionsAt]
  proper := hproper
  shown := hshown

theorem suiteAt_of_case (options : Options) {k : Nat} {pattern : Pattern} {guard : Option Expr}
    {body : List Stmt} (h : StandsCase pieces box path k (.mk pattern guard body) t) :
    t = .case ⟨path, k⟩ (layouts true (k :: path) 0 body) ∧
      SuiteAt options pieces box (k :: path) {} body := by
  obtain ⟨subject, cases, hfound, hk⟩ := h.found
  obtain ⟨subject', code, hout⟩ := h.shown
  obtain rfl := h.laid
  obtain ⟨test, us, hus, hout⟩ := outlineCase_ok hout
  injection hout with _ hbody
  have hsuite : (Stmt.select subject cases).suites[k]? = some body := by
    simp [Stmt.suites, hk, Case.body]
  refine ⟨rfl, stmtAt_suite hfound hsuite, fun j => ?_, ⟨h.filled.2, h.whole.2.2⟩, us, hus, hbody⟩
  rw [optionsAt, insideCase, hfound]
  rfl

/-- A loop of proper code has a body, and is laid out and outlined by its header and its body. -/
theorem loop_drawn {s : Stmt} (h : s.Proper) (hs : s.isLoop = true) : ∃ body, s.suites = [body] ∧
    ProperSuite body ∧ s.isSelection = false ∧
    (∀ simplify path, layout simplify path s
      = .ofLoop simplify ⟨path, 0⟩ (orIdleAt ⟨path, 1⟩ (layouts simplify (0 :: path) 0 body))) ∧
    ∀ options code missing, outline options code missing s = (do
      let test ← code.header
      let us ← outlines options body
      return loopFlow options ⟨none, test, []⟩ (orIdle (arrange options us))) := by
  cases s with
  | forEach isAsync target source body orelse =>
    cases isAsync with
    | true => cases hs
    | false =>
      obtain ⟨⟨hne, hfilled, -⟩, -, -, hwhole, -⟩ := h
      exact ⟨body, rfl, ⟨hne, hfilled, hwhole⟩, rfl, fun _ _ => rfl, fun _ _ _ => rfl⟩
  | whileTrue test body orelse =>
    obtain ⟨⟨hne, hfilled, -⟩, -, hwhole, -⟩ := h
    exact ⟨body, rfl, ⟨hne, hfilled, hwhole⟩, rfl, fun _ _ => rfl, fun _ _ _ => rfl⟩
  | lacking part s => exact h.whole.elim
  | _ => cases hs

theorem orIdle_arrange {o : Options} {ss : List Stmt} {us : List (Flow Box)} (hne : ss ≠ [])
    (hus : outlines o ss = .ok us) : orIdle (arrange o us) = arrange o us := by
  obtain ⟨v, vs, hvs⟩ := List.exists_cons_of_ne_nil (arrange_ne_nil (outlines_ne_nil hne hus))
  rw [hvs]
  rfl

theorem ofLoop_cases (simplify : Bool) (v : Spot) (ts : List (Flow Spot)) :
    ofLoop simplify v ts = .loop v ts ∨ simplify = true ∧ ofLoop simplify v ts
      = .merged false v := by
  unfold ofLoop
  split
  · exact .inr ⟨rfl, rfl⟩
  · exact .inl rfl

/-- A loop stands as one box if it is simplified, or else as a test with a suite that leads back. -/
theorem Stands.loop {s : Stmt} (h : Stands options pieces box path s t) (hs : s.isLoop = true) :
    ∃ body header, s.suites = [body] ∧ body ≠ [] ∧ (Piece.stmt s).header = .ok header ∧
      ((optionsAt options pieces path).simplify = true ∧ t = .merged false ⟨path, 0⟩ ∨
        t = .loop ⟨path, 0⟩ (layouts (optionsAt options pieces path).simplify (0 :: path) 0 body) ∧
          box ⟨path, 0⟩ = ⟨none, header, []⟩ ∧
          SuiteAt options pieces box (0 :: path) (optionsAt options pieces path) body) := by
  obtain ⟨body, hsuites, hproper, hselect, hlayout, houtline⟩ := loop_drawn h.proper hs
  obtain ⟨u, hu, hbox⟩ := h.shown
  rw [houtline] at hu
  obtain ⟨header, us, hheader, hus, hu⟩ := bind₂_eq_ok.1 hu
  have hplain : u.isBranch = false := by
    rw [← hu]
    unfold loopFlow
    split <;> rfl
  rw [align_of_not_branch hplain, ite_self] at hbox
  refine ⟨body, header, hsuites, hproper.1, hheader, ?_⟩
  have hidle : ∀ simplify, orIdleAt ⟨path, 1⟩ (layouts simplify (0 :: path) 0 body)
      = layouts simplify (0 :: path) 0 body := by
    intro simplify
    obtain ⟨first, rest, rfl⟩ := List.exists_cons_of_ne_nil hproper.1
    rfl
  have hlaid := h.laid
  rw [hlayout, hidle] at hlaid
  rw [orIdle_arrange hproper.1 hus] at hu
  rcases ofLoop_cases (optionsAt options pieces path).simplify ⟨path, 0⟩ _ with hof
      | ⟨hsimplify, hof⟩
  · rw [hof] at hlaid
    subst hlaid
    rw [← hu] at hbox
    unfold loopFlow at hbox
    split at hbox
    · cases hbox
    · injection hbox with htest hbody
      refine .inr ⟨rfl, htest, suiteAt_of_stmt h.found hselect ?_ hproper.2 ⟨us, hus, hbody⟩⟩
      rw [hsuites]
      rfl
  · exact .inl ⟨hsimplify, hlaid.trans hof⟩

/-- The mark of a branch that another branch follows. -/
def alignment (marked : Bool) : List (String × String) :=
  if marked then [("align-next", "no")] else []

/-- A branch is drawn together with its suite only if that is one step or begins with a jump. -/
theorem branchFlow_cases (o : Options) (test : Box) (us vs : List (Flow Box)) :
    branchFlow o test us vs = .branch test us vs ∨
      ∃ b, (us = [.step b] ∨ ∃ rest, us = .jump b :: rest) ∧
      branchFlow o test us vs
        = .merged true ⟨some .operation, branchText b.text test.text, []⟩ := by
  unfold branchFlow
  split
  · exact .inr ⟨_, .inl rfl, rfl⟩
  · exact .inr ⟨_, .inr ⟨_, rfl⟩, rfl⟩
  · exact .inl rfl

theorem align_branch (header : String) (us vs : List (Flow Box)) (marked : Bool) :
    (if marked then (Flow.branch ⟨none, header, []⟩ us vs).align else .branch
      ⟨none, header, []⟩ us vs)
      = .branch ⟨none, header, alignment marked⟩ us vs := by
  cases marked with
  | true => rfl
  | false => rfl

theorem ofBranch_cases (simplify : Bool) (v : Spot) (ts us : List (Flow Spot)) :
    ofBranch simplify v ts us = .branch v ts us ∨
      simplify = true ∧ ofBranch simplify v ts us = .merged true v := by
  unfold ofBranch
  split
  · exact .inr ⟨rfl, rfl⟩
  · exact .inr ⟨rfl, rfl⟩
  · exact .inl rfl

/-- A branch stands as one box if it is simplified, or else as a test with two suites. -/
theorem Stands.branch {test : Expr} {body orelse : List Stmt}
    (h : Stands options pieces box path (.branch test body orelse) t) :
    ∃ header, (Piece.stmt (.branch test body orelse)).header = .ok header ∧
      ((optionsAt options pieces path).simplify = true ∧ t = .merged true ⟨path, 0⟩ ∧
          (box ⟨path, 0⟩).shape = some .operation ∨
        t = .branch ⟨path, 0⟩ (layouts (optionsAt options pieces path).simplify (0 :: path) 0 body)
            (layouts (optionsAt options pieces path).simplify (1 :: path) 0 orelse) ∧
          box ⟨path, 0⟩ = ⟨none, header, alignment
            ((optionsAt options pieces path).align && followedByBranch pieces path)⟩ ∧
          SuiteAt options pieces box (0 :: path) (optionsAt options pieces path) body ∧
          SuiteAt options pieces box (1 :: path) (optionsAt options pieces path) orelse) := by
  obtain ⟨u, hu, hbox⟩ := h.shown
  obtain ⟨header, us, vs, hheader, hus, hvs, rfl⟩ := outline_branch_ok hu
  obtain ⟨⟨-, hfilled, hfilled'⟩, -, hwhole, hwhole'⟩ := h.proper
  have hlaid := h.laid
  rw [layout] at hlaid
  refine ⟨header, hheader, ?_⟩
  have hsame : ∀ b, (Flow.merged true b : Flow Box).align = .merged true b := fun _ => rfl
  -- a flow can only show an outline of its own shape
  rcases ofBranch_cases (optionsAt options pieces path).simplify ⟨path, 0⟩ _ _ with hof
      | ⟨hsimplify, hof⟩
  · refine .inr ⟨hlaid.trans hof, ?_⟩
    rw [hlaid, hof] at hbox
    rcases branchFlow_cases _ _ _ _ with hflow | ⟨b, -, hflow⟩
    · rw [hflow, align_branch] at hbox
      injection hbox with htest hbody horelse
      refine ⟨htest, ?_, ?_⟩
      · exact suiteAt_of_stmt h.found rfl rfl ⟨hfilled, hwhole⟩ ⟨us, hus, hbody⟩
      · exact suiteAt_of_stmt h.found rfl rfl ⟨hfilled', hwhole'⟩ ⟨vs, hvs, horelse⟩
    · rw [hflow, hsame, ite_self] at hbox
      cases hbox
  · refine .inl ⟨hsimplify, hlaid.trans hof, ?_⟩
    rw [hlaid, hof] at hbox
    rcases branchFlow_cases _ _ _ _ with hflow | ⟨b, -, hflow⟩
    · rw [hflow, align_branch] at hbox
      cases hbox
    · rw [hflow, hsame, ite_self] at hbox
      injection hbox with _ hbox
      rw [hbox]

theorem Stands.routine {line : Nat} {name : String} {params : Params} {body : List Stmt}
    {decorators : List Expr} {result : Option Expr}
    (h : Stands options pieces box path
    (.function false line name params body decorators result) t) :
    t = .routine ⟨path, 0⟩ ⟨path, 1⟩
        (layouts (optionsAt options pieces path).simplify (0 :: path) 0 body) ⟨path, 2⟩ ∧
      SuiteAt options pieces box (0 :: path) (optionsAt options pieces path) body := by
  obtain ⟨u, hu, hbox⟩ := h.shown
  obtain rfl := h.laid
  obtain ⟨name, input, vs, hvs, rfl⟩ := outline_function_ok hu
  rw [align_of_not_branch rfl, ite_self] at hbox
  injection hbox with _ _ hbody
  exact ⟨rfl, suiteAt_of_stmt h.found rfl rfl ⟨h.proper.filled.2, h.proper.whole.2.1⟩
    ⟨vs, hvs, hbody⟩⟩

/-- What a flow in the layout of a program stands for. -/
inductive Accounted (options : Options) (pieces : List Piece) (box : Spot → Box)
    (t : Flow Spot) : Prop
  | stmt {path s} : Stands options pieces box path s t → Accounted options pieces box t
  | case {path k c} : StandsCase pieces box path k c t → Accounted options pieces box t
  | other {j} : stmtAt pieces [j] = none → (box ⟨[j], 0⟩).params = [] → t = .step ⟨[j], 0⟩ →
    Accounted options pieces box t

theorem SuiteAt.accounted {o : Options} {ss : List Stmt} (h : SuiteAt options pieces box path o ss)
    (ht : t ∈ layouts o.simplify path 0 ss) : Accounted options pieces box t := by
  obtain ⟨j, hj⟩ := List.mem_iff_getElem?.1 ht
  rw [getElem?_layouts, Nat.zero_add] at hj
  obtain ⟨s, hs, rfl⟩ := Option.map_eq_some_iff.1 hj
  exact .stmt (h.stands hs).2

theorem getElem?_outlineCases {subject : Piece} {cs : List Case} {us : List (Flow Box)}
    (h : outlineCases subject cs = .ok us) {k : Nat} {c : Case} (hk : cs[k]? = some c) :
    ∃ u, us[k]? = some u ∧ outlineCase subject (.case c) [] c = .ok u := by
  induction cs generalizing us k with
  | nil => cases hk
  | cons c' rest ih =>
    obtain ⟨u, us, hu, hus, rfl⟩ := bind₂_eq_ok.1 h
    cases k with
    | zero =>
      cases hk
      exact ⟨u, rfl, hu⟩
    | succ k => exact ih hus hk

theorem Stands.cases {subject : Expr} {cs : List Case}
    (h : Stands options pieces box path (.select subject cs) t) {us : List (Flow Spot)}
    (hus : us ∈ t.parts) {u : Flow Spot} (hu : u ∈ us) :
    ∃ k c, StandsCase pieces box path k c u := by
  obtain ⟨w, hw, hbox⟩ := h.shown
  obtain ⟨first, others, hvs, rfl⟩ := outline_select_ok hw
  obtain ⟨c, rest, rfl⟩ := List.exists_cons_of_ne_nil h.proper.filled.1
  have hlaid : t = .select (layoutCase path 0 c) (layoutCases path 1 rest) := h.laid
  subst hlaid
  obtain rfl := List.mem_singleton.1 hus
  obtain ⟨k, hk⟩ := List.mem_iff_getElem?.1 hu
  have hlayout : (layoutCases path 0 (c :: rest))[k]? = some u := hk
  rw [getElem?_layoutCases, Nat.zero_add] at hlayout
  obtain ⟨c', hc', rfl⟩ := Option.map_eq_some_iff.1 hlayout
  obtain ⟨v, hv, hout⟩ := getElem?_outlineCases hvs hc'
  have hmem := List.mem_of_getElem? hc'
  refine ⟨k, c', ⟨subject, _, h.found, hc'⟩, filledCases_iff.1 h.proper.filled.2 c' hmem,
    wholeCases_iff.1 h.proper.whole.2 c' hmem, rfl, .expr subject, .case c', ?_⟩
  have hsame : (Flow.select first others).align = .select first others := rfl
  rw [hsame, ite_self] at hbox
  have hall : mapAll box (layoutCases path 0 (c :: rest)) = first :: others := by
    injection hbox with hfirst hothers
    exact congrArg₂ List.cons hfirst hothers
  have hget := congrArg (·[k]?) hall
  simp only [mapAll_eq, List.getElem?_map, getElem?_layoutCases, hc', hv, Nat.zero_add,
    Option.map_some, Option.some.injEq] at hget
  rw [hout, ← hget]

theorem Stands.inside {s : Stmt} (h : Stands options pieces box path s t) {us : List (Flow Spot)}
    (hus : us ∈ t.parts) {u : Flow Spot} (hu : u ∈ us) : Accounted options pieces box u := by
  cases s with
  | function isAsync line name params body decorators result =>
    cases isAsync with
    | true =>
      obtain rfl := h.laid
      cases hus
    | false =>
      obtain ⟨rfl, hsuite⟩ := h.routine
      obtain rfl := List.mem_singleton.1 hus
      exact hsuite.accounted hu
  | forEach isAsync target source body orelse =>
    cases isAsync with
    | true =>
      obtain rfl := h.laid
      cases hus
    | false =>
      obtain ⟨_, header, hsuites, -, -, ⟨-, rfl⟩ | ⟨rfl, -, hsuite⟩⟩ := h.loop rfl
      · cases hus
      · obtain rfl := List.mem_singleton.1 hus
        exact hsuite.accounted hu
  | whileTrue test body orelse =>
    obtain ⟨_, header, hsuites, -, -, ⟨-, rfl⟩ | ⟨rfl, -, hsuite⟩⟩ := h.loop rfl
    · cases hus
    · obtain rfl := List.mem_singleton.1 hus
      exact hsuite.accounted hu
  | branch test body orelse =>
    obtain ⟨header, -, ⟨-, rfl, -⟩ | ⟨rfl, -, hbody, horelse⟩⟩ := h.branch
    · cases hus
    · simp only [parts, List.mem_cons, List.not_mem_nil, or_false] at hus
      rcases hus with rfl | rfl
      · exact hbody.accounted hu
      · exact horelse.accounted hu
  | select subject cases =>
    obtain ⟨k, c, hc⟩ := h.cases hus hu
    exact .case hc
  | giveBack value =>
    obtain rfl := h.laid
    cases value <;> cases hus
  | lacking part s => exact h.proper.whole.elim
  | _ =>
    obtain rfl := h.laid
    cases hus

section

variable {us : List (Flow Box)} (hproper : ∀ p ∈ pieces, p.Proper)
  (hus : outlinePieces options pieces = .ok us)
  (hbox : mapAll box (layoutPieces options.simplify 0 pieces) = arrange options us)
include hproper hus hbox

theorem stands_of_piece {j : Nat} {s : Stmt} (hs : pieces[j]? = some (.stmt s)) :
    layout options.simplify [j] s ∈ layoutPieces options.simplify 0 pieces ∧
      Stands options pieces box [j] s (layout options.simplify [j] s) := by
  have hlayout : (layoutPieces options.simplify 0 pieces)[j]?
      = some (layout options.simplify [j] s) := by
    rw [getElem?_layoutPieces, hs, Nat.zero_add]
    rfl
  have hmap := congrArg (·[j]?) hbox
  simp only [mapAll_eq, List.getElem?_map, hlayout, getElem?_arrange, Option.map_some] at hmap
  obtain ⟨u, hu, hout⟩ := (getElem?_outlinePieces hus j).1 _ hs
  have hfound : stmtAt pieces [j] = some s := by simp [stmtAt, hs, Piece.stmt?]
  refine ⟨List.mem_of_getElem? hlayout, hfound, hproper _ (List.mem_of_getElem? hs), rfl, u,
    hout, ?_⟩
  rw [followedByBranch, stmtAt, ← (getElem?_outlinePieces hus (j + 1)).2]
  rw [hu] at hmap
  exact Option.some.inj hmap

omit hproper in
theorem params_of_piece {j : Nat} {p : Piece} (hp : pieces[j]? = some p)
    (hstep : layoutPiece options.simplify [j] p = .step ⟨[j], 0⟩)
    (hparams : ∀ u, outlinePiece options p = .ok u → ∃ b : Box, u = .step b ∧ b.params = []) :
    (box ⟨[j], 0⟩).params = [] := by
  obtain ⟨u, hu, hout⟩ := (getElem?_outlinePieces hus j).1 p hp
  obtain ⟨b, rfl, hb⟩ := hparams u hout
  have hmap := congrArg (·[j]?) hbox
  simp only [mapAll_eq, List.getElem?_map, getElem?_layoutPieces, getElem?_arrange, hp, hu,
    Option.map_some, Nat.zero_add, hstep, align_of_not_branch
      (rfl : (Flow.step b).isBranch = false),
    ite_self, Option.some.injEq] at hmap
  injection hmap with hbox
  rw [hbox, hb]

theorem pieces_accounted (ht : t ∈ layoutPieces options.simplify 0 pieces) :
    Accounted options pieces box t := by
  obtain ⟨j, hj⟩ := List.mem_iff_getElem?.1 ht
  rw [getElem?_layoutPieces, Nat.zero_add] at hj
  obtain ⟨p, hp, rfl⟩ := Option.map_eq_some_iff.1 hj
  cases p with
  | stmt s => exact .stmt (stands_of_piece hproper hus hbox hp).2
  | expr e =>
    refine .other (by simp [stmtAt, hp, Piece.stmt?]) (params_of_piece hus hbox hp rfl ?_) rfl
    intro u hu
    obtain ⟨b, hb, rfl⟩ := map_eq_ok.1 hu
    exact ⟨b, rfl, valueBox_params hb⟩
  | _ =>
    refine .other (by simp [stmtAt, hp, Piece.stmt?]) (params_of_piece hus hbox hp rfl ?_) rfl
    intro u hu
    obtain ⟨b, hb, rfl⟩ := map_eq_ok.1 hu
    exact ⟨b, rfl, statementBox_params hb⟩

theorem accounted_of_among (ht : Among (layoutPieces options.simplify 0 pieces) t) :
    Accounted options pieces box t := by
  induction ht with
  | here ht => exact pieces_accounted hproper hus hbox ht
  | inside _ hpart ht ih =>
    cases ih with
    | stmt hs => exact hs.inside hpart ht
    | @case path k c hc =>
      cases c with
      | mk pattern guard body =>
        obtain ⟨rfl, hsuite⟩ := suiteAt_of_case options hc
        obtain rfl := List.mem_singleton.1 hpart
        exact hsuite.accounted ht
      | lacking part c => exact hc.whole.elim
    | other _ _ hstep =>
      rw [hstep] at hpart
      cases hpart

end

end

end CodeChart.Chart
