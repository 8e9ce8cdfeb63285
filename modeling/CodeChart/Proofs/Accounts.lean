import CodeChart.Proofs.Counting
import CodeChart.Proofs.Layout
import Mathlib

/-! The numbers that code takes. They are counted on the code alone: every statement has a fixed
price besides that of its suites, a loop pays for its body twice, and a loop or a branch that is
drawn in one box pays one more. A chart that can be built takes exactly the numbers counted, so
nested loops take exponentially many. -/
namespace CodeChart.Code

/-- Statements that are drawn as one box which something may follow. -/
def Stmt.isStep : Stmt → Bool
  | .function isAsync .. => isAsync
  | .forEach isAsync .. => isAsync
  | .whileTrue .. | .branch .. | .giveBack _ | .stop | .next => false
  -- a selection without cases is never drawn
  | .select _ cases => cases.isEmpty
  | .lacking _ s => s.isStep
  | _ => true

def Stmt.isJump : Stmt → Bool
  | .stop | .next => true
  | .lacking _ s => s.isJump
  | _ => false

end CodeChart.Code

namespace CodeChart.Chart

open CodeChart.Graph Code

/-- Whether a loop with this body is drawn in one box, if it is simplified. -/
def loopInLine : List Stmt → Bool
  | [] => true
  | [s] => s.isStep
  | _ => false

/-- Whether a branch with these suites is drawn in one box, if it is simplified. -/
def branchInLine (body orelse : List Stmt) : Bool :=
  orelse.isEmpty &&
    match body with
    | [] => false
    | [s] => s.isStep || s.isJump
    | s :: _ => s.isJump

mutual

def numbers (simplify : Bool) : Stmt → Nat
  | .function false _ _ _ body _ _ => 8 + numbersAll simplify body
  | .forEach false _ _ body _ =>
    6 + 2 * numbersAll simplify body + (simplify && loopInLine body).toNat
  | .whileTrue _ body _ => 6 + 2 * numbersAll simplify body + (simplify && loopInLine body).toNat
  | .branch _ body orelse =>
    6 + numbersAll simplify body + numbersAll simplify orelse
      + (simplify && branchInLine body orelse).toNat
  | .giveBack none => 4
  | .giveBack (some _) => 6
  | .select _ cases => 3 + numbersCases cases
  | .lacking _ s => numbers simplify s
  | _ => 2

/-- The numbers that a list of statements takes: one for its group and those of each statement. -/
def numbersAll (simplify : Bool) : List Stmt → Nat
  | [] => 1
  | s :: rest => numbers simplify s + numbersAll simplify rest

/-- The numbers that a case takes. Its body is always simplified; without statements there is no
answer `yes`. -/
def numbersCase : Case → Nat
  | .mk _ _ [] => 6
  | .mk _ _ body => 6 + numbersAll true body
  | .lacking _ c => numbersCase c

def numbersCases : List Case → Nat
  | [] => 0
  | c :: rest => numbersCase c + numbersCases rest

end

mutual

def loopDepth : Stmt → Nat
  | .function false _ _ _ body _ _ => loopDepthAll body
  | .forEach false _ _ body _ => loopDepthAll body + 1
  | .whileTrue _ body _ => loopDepthAll body + 1
  | .branch _ body orelse => max (loopDepthAll body) (loopDepthAll orelse)
  | .select _ cases => loopDepthCases cases
  | .lacking _ s => loopDepth s
  | _ => 0

def loopDepthAll : List Stmt → Nat
  | [] => 0
  | s :: rest => max (loopDepth s) (loopDepthAll rest)

def loopDepthCase : Case → Nat
  | .mk _ _ body => loopDepthAll body
  | .lacking _ c => loopDepthCase c

def loopDepthCases : List Case → Nat
  | [] => 0
  | c :: rest => max (loopDepthCase c) (loopDepthCases rest)

end

/-- A layout is one box exactly if the statement that it stands for is counted as one. -/
def Matches (s : Stmt) : Flow Spot → Prop
  | .step _ => s.isStep = true ∧ s.isJump = false
  | .jump _ => s.isStep = false ∧ s.isJump = true
  | _ => s.isStep = false ∧ s.isJump = false

theorem matches_ofLoop {s : Stmt} (hstep : s.isStep = false) (hjump : s.isJump = false)
    (simplify : Bool) (test : Spot) (body : List (Flow Spot)) :
    Matches s (.ofLoop simplify test body) := by
  unfold Flow.ofLoop
  split <;> exact ⟨hstep, hjump⟩

theorem matches_ofBranch {s : Stmt} (hstep : s.isStep = false) (hjump : s.isJump = false)
    (simplify : Bool) (test : Spot) (body orelse : List (Flow Spot)) :
    Matches s (.ofBranch simplify test body orelse) := by
  unfold Flow.ofBranch
  split <;> exact ⟨hstep, hjump⟩

theorem matches_layout (simplify : Bool) (path : List Nat) (s : Stmt) :
    Matches s (layout simplify path s) := by
  cases s with
  | function isAsync => cases isAsync <;> exact ⟨rfl, rfl⟩
  | forEach isAsync =>
    cases isAsync with
    | true => exact ⟨rfl, rfl⟩
    | false => exact matches_ofLoop rfl rfl _ _ _
  | whileTrue => exact matches_ofLoop rfl rfl _ _ _
  | branch => exact matches_ofBranch rfl rfl _ _ _ _
  | giveBack value => cases value <;> exact ⟨rfl, rfl⟩
  | select subject cases => cases cases <;> exact ⟨rfl, rfl⟩
  | lacking part s => exact matches_layout simplify path s
  | _ => exact ⟨rfl, rfl⟩

theorem oneStep_layouts (simplify : Bool) (path : List Nat) (i : Nat) (idle : Spot)
    (ss : List Stmt) :
    oneStep (orIdleAt idle (layouts simplify path i ss)) = loopInLine ss := by
  rcases ss with _ | ⟨s, _ | ⟨u, rest⟩⟩
  · rfl
  · have hs := matches_layout simplify (i :: path) s
    change oneStep [layout simplify (i :: path) s] = s.isStep
    cases hlayout : layout simplify (i :: path) s <;> rw [hlayout] at hs <;> exact hs.1.symm
  · rw [layouts, layouts]
    cases layout simplify (i :: path) s <;> rfl

theorem oneLine_layouts (simplify : Bool) (path : List Nat) (i : Nat) (body orelse : List Stmt) :
    (orelse.isEmpty && oneLine (layouts simplify path i body)) = branchInLine body orelse := by
  unfold branchInLine
  congr 1
  rcases body with _ | ⟨s, rest⟩
  · rfl
  · have hs := matches_layout simplify (i :: path) s
    rw [layouts]
    cases hlayout : layout simplify (i :: path) s <;> rw [hlayout] at hs <;>
      cases rest <;> simp [oneLine, layouts, hs.1, hs.2]

section

variable {options : Options} {ss : List Stmt} {flows : List (Flow Box)}
  (h : arrange options <$> outlines options ss = .ok flows)
include h

theorem shapeAll_suite :
    Flow.shapeAll flows = Flow.shapeAll (layouts options.simplify [] 0 ss) := by
  obtain ⟨ts, hts, rfl⟩ := map_eq_ok.1 h
  rw [shapeAll_arrange, shape_outlines [] 0 hts]

theorem oneStep_suite : oneStep (orIdle flows) = loopInLine ss := by
  have hshape := shapeAll_orIdle ⟨[], 0⟩ (shapeAll_suite h)
  rw [← oneStep_layouts options.simplify [] 0 ⟨[], 0⟩ ss, ← oneStep_mapAll fun _ => (),
    ← oneStep_mapAll (fun _ => ()) (orIdleAt _ _)]
  exact congrArg oneStep hshape

theorem oneLine_suite : oneLine flows = oneLine (layouts options.simplify [] 0 ss) := by
  rw [← oneLine_mapAll fun _ => (), ← oneLine_mapAll (fun _ => ()) (layouts _ _ _ _)]
  exact congrArg oneLine (shapeAll_suite h)

theorem isEmpty_suite : flows.isEmpty = ss.isEmpty := by
  have hshape := congrArg List.isEmpty (shapeAll_suite h)
  rw [Flow.shapeAll, Flow.shapeAll, Flow.mapAll_eq, Flow.mapAll_eq] at hshape
  cases ss <;> simpa [layouts] using hshape

end

theorem numbersCase_mk (pattern : Pattern) (guard : Option Expr) (body : List Stmt) :
    numbersCase (.mk pattern guard body) = 5 + numbersAll true body + (!body.isEmpty).toNat := by
  cases body with
  | nil => rfl
  | cons s rest =>
    rw [numbersCase]
    · simp only [List.isEmpty_cons, Bool.not_false, Bool.toNat_true]
      omega
    · simp

theorem takes_value (code : Piece) (e : Expr) : Takes (ofValue code e) 2 := by
  fun_induction ofValue code e with
  | case1 value => exact takes_codeBox .yielded code _
  | case2 => exact takes_codeBox .call code _
  | case3 _ e ih => exact ih
  | case4 => exact takes_codeBox .statement code _

section

variable {options : Options} {ss : List Stmt} {m : Nat}
  (h : TakesAll (ofStmts options ss) m) (hm : numbersAll options.simplify ss = 1 + m)
include h hm

theorem takes_stmtSuite :
    Takes (suite options (ofStmts options ss)) (numbersAll options.simplify ss) := by
  rw [hm]
  exact takes_suite options (builds_stmts options ss) h

theorem takes_stmtLoop (code : Piece) :
    Takes (loop options code (suite options (ofStmts options ss)))
      (6 + 2 * numbersAll options.simplify ss + (options.simplify && loopInLine ss).toNat) := by
  refine takes_loop options code (builds_suite options (builds_stmts options ss))
    (takes_stmtSuite h hm) ?_ ?_
  · intro hnone
    rw [List.isEmpty_iff.1 (isEmpty_suite hnone).symm, numbersAll]
  · intro flows hflows
    rw [oneStep_suite hflows]

end

mutual

theorem takes_stmt (options : Options) (code : Piece) (missing : List String) (s : Stmt) :
    Takes (ofStmt options code missing s) (numbers options.simplify s) := by
  -- The induction is on the code. The flows of the suites only tell which box is simplified.
  cases s with
  | function isAsync line name params body decorators result =>
    cases isAsync with
    | true => exact takes_codeBox .statement code _
    | false =>
      obtain ⟨m, h, hm⟩ := takes_stmts options body
      rw [ofStmt, numbers]
      exact takes_function code (builds_unlessMissing missing code "body"
        (builds_suite options (builds_stmts options body)))
        (takes_unlessMissing missing code "body" (takes_stmtSuite h hm))
  | forEach isAsync target source body orelse =>
    cases isAsync with
    | true => exact takes_codeBox .statement code _
    | false =>
      obtain ⟨m, h, hm⟩ := takes_stmts options body
      rw [ofStmt, numbers]
      exact takes_stmtLoop h hm code
  | whileTrue test body orelse =>
    obtain ⟨m, h, hm⟩ := takes_stmts options body
    rw [ofStmt, numbers]
    exact takes_stmtLoop h hm code
  | branch test body orelse =>
    obtain ⟨m, h, hm⟩ := takes_stmts options body
    obtain ⟨m', h', hm'⟩ := takes_stmts options orelse
    rw [ofStmt, numbers]
    refine takes_branch options code (builds_suite options (builds_stmts options body))
      (builds_suite options (builds_stmts options orelse)) (takes_stmtSuite h hm)
      (takes_stmtSuite h' hm') ?_
    intro flows flows' hflows hflows'
    rw [oneLine_suite hflows, isEmpty_suite hflows', oneLine_layouts]
  | giveBack value =>
    have hreturn := takes_returning code value.isSome
    cases value <;> exact hreturn
  | select subject cases =>
    have hselect := takes_selection code
      (if missing.contains "cases" then throw (.noAttribute code.kind "cases") else pure ())
      (buildsAll_ofCases (.expr subject) cases) (takes_cases (.expr subject) cases)
    rw [ofStmt, numbers]
    cases hmissing : missing.contains "cases" <;> rw [hmissing] at hselect <;> exact hselect
  | stop => exact takes_codeBox .jump code _
  | next => exact takes_codeBox .jump code _
  | expr value =>
    rw [ofStmt]
    cases missing.contains "value" with
    | true => exact takes_codeBox .statement code _
    | false => exact takes_value code value
  | lacking part s => exact takes_stmt options code (part :: missing) s
  | _ => exact takes_codeBox .statement code _

theorem takes_stmts (options : Options) (ss : List Stmt) :
    ∃ m, TakesAll (ofStmts options ss) m ∧ numbersAll options.simplify ss = 1 + m := by
  cases ss with
  | nil => exact ⟨0, .nil, rfl⟩
  | cons s rest =>
    obtain ⟨m, h, hm⟩ := takes_stmts options rest
    refine ⟨_, .cons (takes_stmt options (.stmt s) [] s) h, ?_⟩
    rw [numbersAll, hm]
    omega

theorem takes_ofCase (subject code : Piece) (missing : List String) (c : Case) :
    Takes (ofCase subject code missing c) (numbersCase c) := by
  cases c with
  | mk pattern guard body =>
    obtain ⟨m, h, hm⟩ := takes_stmts {} body
    rw [ofCase, numbersCase_mk]
    refine takes_case subject code (builds_unlessMissing missing code "body"
      (builds_suite {} (builds_stmts {} body)))
      (takes_unlessMissing missing code "body" (takes_stmtSuite h hm)) ?_
    intro flows hflows
    cases hmissing : missing.contains "body" with
    | true =>
      rw [hmissing] at hflows
      cases hflows
    | false =>
      rw [hmissing] at hflows
      rw [isEmpty_suite hflows, Bool.not_not]
  | lacking part c => exact takes_ofCase subject code (part :: missing) c

theorem takes_cases (subject : Piece) (cs : List Case) :
    TakesAll (ofCases subject cs) (numbersCases cs) := by
  cases cs with
  | nil => exact .nil
  | cons c rest => exact .cons (takes_ofCase subject (.case c) [] c) (takes_cases subject rest)

end

theorem two_pow_max_le {a b m n : Nat} (ha : 2 ^ a ≤ m) (hb : 2 ^ b ≤ n) :
    2 ^ max a b ≤ m + n := by
  rcases Nat.le_total a b with hab | hab
  · rw [Nat.max_eq_right hab]
    omega
  · rw [Nat.max_eq_left hab]
    omega

mutual

/-- The bound is strict for a statement, as it takes numbers besides those of its suites. -/
theorem two_pow_loopDepth (simplify : Bool) (s : Stmt) : 2 ^ loopDepth s < numbers simplify s := by
  cases s with
  | function isAsync line name params body decorators result =>
    cases isAsync with
    | true => exact Nat.one_lt_two
    | false =>
      have hbody := two_pow_loopDepthAll simplify body
      rw [loopDepth, numbers]
      omega
  | forEach isAsync target source body orelse =>
    cases isAsync with
    | true => exact Nat.one_lt_two
    | false =>
      have hbody := two_pow_loopDepthAll simplify body
      rw [loopDepth, numbers, Nat.pow_succ]
      omega
  | whileTrue test body orelse =>
    have hbody := two_pow_loopDepthAll simplify body
    rw [loopDepth, numbers, Nat.pow_succ]
    omega
  | branch test body orelse =>
    have hsuites := two_pow_max_le (two_pow_loopDepthAll simplify body)
      (two_pow_loopDepthAll simplify orelse)
    rw [loopDepth, numbers]
    omega
  | select subject cases =>
    have hcases := two_pow_loopDepthCases cases
    rw [loopDepth, numbers]
    omega
  | giveBack value => cases value <;> simp [loopDepth, numbers]
  | lacking part s => exact two_pow_loopDepth simplify s
  | _ => exact Nat.one_lt_two

theorem two_pow_loopDepthAll (simplify : Bool) (ss : List Stmt) :
    2 ^ loopDepthAll ss ≤ numbersAll simplify ss := by
  cases ss with
  | nil => exact Nat.le_refl 1
  | cons s rest =>
    exact two_pow_max_le (two_pow_loopDepth simplify s).le (two_pow_loopDepthAll simplify rest)

theorem two_pow_loopDepthCase (c : Case) : 2 ^ loopDepthCase c ≤ numbersCase c := by
  cases c with
  | mk pattern guard body =>
    have hbody := two_pow_loopDepthAll true body
    rw [loopDepthCase, numbersCase_mk]
    omega
  | lacking part c => exact two_pow_loopDepthCase c

theorem two_pow_loopDepthCases (cs : List Case) : 2 ^ loopDepthCases cs ≤ numbersCases cs + 1 := by
  cases cs with
  | nil => exact Nat.le_refl 1
  | cons c rest =>
    rw [numbersCases, Nat.add_assoc]
    exact two_pow_max_le (two_pow_loopDepthCase c) (two_pow_loopDepthCases rest)

end

theorem two_pow_loopDepthAll_lt (simplify : Bool) {ss : List Stmt} (hne : ss ≠ []) :
    2 ^ loopDepthAll ss < numbersAll simplify ss := by
  obtain ⟨s, rest, rfl⟩ := List.exists_cons_of_ne_nil hne
  have hs := two_pow_loopDepth simplify s
  have hboth := two_pow_max_le (Nat.le_sub_one_of_lt hs) (two_pow_loopDepthAll simplify rest)
  have hpos := Nat.zero_lt_of_lt hs
  rw [loopDepthAll, numbersAll]
  omega

/-- Loops around loops, with a statement that does nothing inside. -/
def loopTower : Nat → List Stmt
  | 0 => [.pass]
  | d + 1 => [.whileTrue (.name "x") (loopTower d) []]

theorem loopTower_ne_nil (d : Nat) : loopTower d ≠ [] := by
  cases d <;> exact List.cons_ne_nil _ _

theorem loopDepthAll_loopTower (d : Nat) : loopDepthAll (loopTower d) = d := by
  induction d with
  | zero => rfl
  | succ d ih => rw [loopTower, loopDepthAll, loopDepth, ih, loopDepthAll, Nat.max_zero]

theorem printBlock_loopTower (d indent : Nat) :
    ∃ text, printBlock indent (loopTower d) = .ok text := by
  induction d generalizing indent with
  | zero => exact ⟨_, rfl⟩
  | succ d ih =>
    obtain ⟨text, htext⟩ := ih (indent + 1)
    rw [loopTower, printBlock, Stmt.print, htext]
    exact ⟨_, rfl⟩

theorem outlines_loopTower (options : Options) (d : Nat) :
    ∃ flows, outlines options (loopTower d) = .ok flows := by
  induction d with
  | zero => exact ⟨_, rfl⟩
  | succ d ih =>
    obtain ⟨flows, hflows⟩ := ih
    obtain ⟨text, htext⟩ := printBlock_loopTower d 1
    have hheader : ∃ header, (Piece.stmt (.whileTrue (.name "x") (loopTower d) [])).header
        = .ok header := by
      rw [Piece.header, Piece.text, Piece.print, Stmt.print, htext]
      exact ⟨_, rfl⟩
    obtain ⟨header, hheader⟩ := hheader
    rw [loopTower, outlines, outline, hheader, hflows]
    exact ⟨_, rfl⟩

theorem ofPieces_stmts (options : Options) (ss : List Stmt) :
    ofPieces options (ss.map .stmt) = suite options (ofStmts options ss) := by
  have hacts : (ss.map Piece.stmt).map (ofPiece options) = ofStmts options ss := by
    induction ss with
    | nil => rfl
    | cons s rest ih =>
      rw [List.map_cons, List.map_cons, ih, ofStmts]
      rfl
  rw [ofPieces, hacts]

/-- Statements are built exactly if they have an outline, and then take the numbers counted. -/
theorem stmts_numbered (options : Options) (ss : List Stmt) {σ : Store} (hσ : σ.Sound) :
    Realizes σ (ofPieces options (ss.map .stmt)) (outlines options ss)
      fun _ τ _ => τ.nextId = σ.nextId + numbersAll options.simplify ss := by
  have hsuite := suite_realizes options (builds_stmts options ss) hσ
  obtain ⟨m, htakes, hm⟩ := takes_stmts options ss
  rw [ofPieces_stmts]
  cases hspec : outlines options ss with
  | error fault =>
    rw [hspec] at hsuite
    exact hsuite
  | ok flows =>
    rw [hspec] at hsuite
    obtain ⟨g, τ, hrun, -⟩ := hsuite
    exact .ok hrun (takes_stmtSuite htakes hm σ hσ g τ hrun)

/-- Code that can be drawn takes the numbers counted for it, more than two to the depth of its
loops; and loops nested to any depth can be drawn. -/
theorem code_takes_numbers (options : Options) (ss : List Stmt) (σ : Store) (hσ : σ.Sound) :
    Realizes σ (ofPieces options (ss.map .stmt)) (outlines options ss) (fun _ τ _ =>
      τ.nextId = σ.nextId + numbersAll options.simplify ss ∧
      (ss ≠ [] → σ.nextId + 2 ^ loopDepthAll ss < τ.nextId)) ∧
    ∀ d, ∃ g τ, ofPieces options ((loopTower d).map .stmt) σ = .ok g τ ∧
      σ.nextId + 2 ^ d < τ.nextId := by
  constructor
  · refine (stmts_numbered options ss hσ).mono fun g τ flows _ hcount => ⟨hcount, fun hne => ?_⟩
    have hbound := two_pow_loopDepthAll_lt options.simplify hne
    omega
  · intro d
    obtain ⟨flows, hflows⟩ := outlines_loopTower options d
    have hnested := stmts_numbered options (loopTower d) hσ
    rw [hflows] at hnested
    obtain ⟨g, τ, hrun, hcount⟩ := hnested
    have hbound := two_pow_loopDepthAll_lt options.simplify (loopTower_ne_nil d)
    rw [loopDepthAll_loopTower] at hbound
    exact ⟨g, τ, hrun, by omega⟩

/-- A selection whose case has a branch that is drawn in one box, in a loop that is not. -/
def nestedSelection : List Stmt :=
  [.whileTrue (.name "x")
    [.select (.name "y") [.mk (.value (.name "z")) none [.branch (.name "u") [.stop] []]]] []]

theorem code_takes_numbers_selection :
    (∃ g τ, ofPieces { simplify := false } (nestedSelection.map .stmt) {} = .ok g τ ∧
      τ.nextId = 51) ∧
    ∃ g τ, ofPieces { simplify := false } ((loopTower 10).map .stmt) {} = .ok g τ ∧
      1024 < τ.nextId := by
  obtain ⟨⟨g, τ, hrun, hcount, -⟩, hnested⟩ :=
    code_takes_numbers { simplify := false } nestedSelection {} sound_empty
  obtain ⟨g', τ', hrun', hcount'⟩ := hnested 10
  exact ⟨⟨g, τ, hrun, hcount⟩, g', τ', hrun', Nat.lt_of_add_left_lt hcount'⟩

/-- A case without statements takes one number less than the others: it has no answer `yes`. -/
theorem emptyCase_numbers : ∃ g τ,
    ofPieces {} [.stmt (.select (.name "x") [.mk (.value (.name "z")) none []])] {} = .ok g τ ∧
    τ.nextId ≠ 1 + (3 + (6 + numbersAll true [])) := by
  have hrun : outcome (do
      let g ← ofPieces {} [.stmt (.select (.name "x") [.mk (.value (.name "z")) none []])]
      return (fun τ _ => τ.nextId) (← get) g) {} = some 10 := by decide +kernel
  obtain ⟨g, τ, hrun, hcount⟩ := exists_of_checked hrun
  refine ⟨g, τ, hrun, ?_⟩
  rw [hcount]
  decide

end CodeChart.Chart
