import CodeChart.Chart.Source
import CodeChart.Proofs.Loops
import CodeChart.Proofs.Routines
import CodeChart.Proofs.Selections

/-! Construction follows the outline. Every statement, whatever is nested in it, is built as its
outline says, and so is the chart of a list of pieces. -/
namespace CodeChart.Chart

open CodeChart.Graph Code

theorem builds_codeBox {shape : Shape} (h : shape.letters ≠ "") (hshape : shape ≠ .jump)
    (code : Piece) :
    Builds (codeBox shape code) (.step <$> ((⟨some shape, ·, []⟩) <$> code.text)) := by
  have hstep := builds_step h hshape code code.text
  cases ht : code.text <;> rw [ht] at hstep <;> simpa [codeBox, ht] using hstep

theorem builds_statement (code : Piece) : Builds (statement code) (.step <$> statementBox code) :=
  builds_codeBox (by decide) (by decide) code

theorem builds_value (code : Piece) (e : Expr) :
    Builds (ofValue code e) (.step <$> valueBox code e) := by
  fun_induction ofValue code e with
  | case1 value =>
    have hstep : Builds (newCodeBox .yielded code (outputText <$> code.text)) _ :=
      builds_step (by decide) (by decide) code (outputText <$> code.text)
    rw [valueBox]
    cases ht : code.text <;> rw [ht] at hstep <;> simpa [yielded, ht] using hstep
  | case2 => exact builds_codeBox (by decide) (by decide) code
  | case3 _ e ih => exact ih
  | case4 e hyield hcall hlacking =>
    rw [valueBox]
    exact builds_statement code
    all_goals assumption

theorem builds_suite (options : Options) {acts : List (Action Nat)}
    {specs : Except Fault (List (Flow Box))} (h : BuildsAll Builds acts specs) :
    BuildsSuite (suite options acts) (arrange options <$> specs) :=
  fun _ hσ => suite_realizes options h hσ

theorem builds_unlessMissing (missing : List String) (code : Piece) (part : String)
    {act : Action Nat} {spec : Except Fault (List (Flow Box))} (h : BuildsSuite act spec) :
    BuildsSuite (unlessMissing missing code part act)
      (if missing.contains part then throw (.noAttribute code.kind part) else spec) := by
  intro σ hσ
  unfold unlessMissing
  cases missing.contains part with
  | true => exact ⟨σ, rfl, rfl, rfl⟩
  | false => exact h σ hσ

mutual

theorem builds_stmt (options : Options) (code : Piece) (missing : List String) (s : Stmt) :
    Builds (ofStmt options code missing s) (outline options code missing s) := by
  cases s with
  | function isAsync line name params body decorators result =>
    cases isAsync with
    | true => exact builds_statement code
    | false =>
      have hfunction := builds_function code (builds_unlessMissing missing code "body"
        (builds_suite options (builds_stmts options body)))
      rw [ofStmt, outline]
      cases hm : missing.contains "body" with
      | true =>
        rw [hm] at hfunction
        exact hfunction
      | false =>
        rw [hm] at hfunction
        simpa using hfunction
  | forEach isAsync target source body orelse =>
    cases isAsync with
    | true => exact builds_statement code
    | false =>
      have hloop := builds_loop options code (builds_suite options (builds_stmts options body))
      simpa [ofStmt, outline] using hloop
  | whileTrue test body orelse =>
    have hloop := builds_loop options code (builds_suite options (builds_stmts options body))
    simpa [ofStmt, outline] using hloop
  | branch test body orelse =>
    have hbranch := builds_branch options code (builds_suite options (builds_stmts options body))
      (builds_suite options (builds_stmts options orelse))
    simpa [ofStmt, outline] using hbranch
  | giveBack value =>
    have hreturn := builds_returning code (pure value.isSome)
    cases value <;> simpa [ofStmt, outline] using hreturn
  | select subject cases =>
    have hselect := builds_selection code
      (if missing.contains "cases" then throw (.noAttribute code.kind "cases") else pure ())
      (buildsAll_ofCases (.expr subject) cases)
    rw [ofStmt, outline]
    cases hm : missing.contains "cases" <;> rw [hm] at hselect <;> exact hselect
  | stop => exact builds_jump code code.text
  | next => exact builds_jump code code.text
  | expr value =>
    rw [ofStmt, outline]
    cases missing.contains "value" with
    | true => exact builds_statement code
    | false => exact builds_value code value
  | lacking part s => exact builds_stmt options code (part :: missing) s
  | _ => exact builds_statement code

theorem builds_stmts (options : Options) (ss : List Stmt) :
    BuildsAll Builds (ofStmts options ss) (outlines options ss) := by
  cases ss with
  | nil => exact .nil
  | cons s rest => exact .cons (builds_stmt options (.stmt s) [] s) (builds_stmts options rest)

theorem buildsCase_ofCase (subject code : Piece) (missing : List String) (c : Case) :
    BuildsCase (ofCase subject code missing c) (outlineCase subject code missing c) := by
  cases c with
  | mk pattern guard body =>
    have hcase := builds_case subject code (builds_unlessMissing missing code "body"
      (builds_suite {} (builds_stmts {} body)))
    rw [ofCase, outlineCase]
    have hplain : arrange {} <$> outlines {} body = outlines {} body := id_map _
    rw [hplain] at hcase
    cases hm : missing.contains "body" <;> rw [hm] at hcase <;> exact hcase
  | lacking part c => exact buildsCase_ofCase subject code (part :: missing) c

theorem buildsAll_ofCases (subject : Piece) (cs : List Case) :
    BuildsAll BuildsCase (ofCases subject cs) (outlineCases subject cs) := by
  cases cs with
  | nil => exact .nil
  | cons c rest =>
    exact .cons (buildsCase_ofCase subject (.case c) [] c) (buildsAll_ofCases subject rest)

end

theorem builds_piece (options : Options) (piece : Piece) :
    Builds (ofPiece options piece) (outlinePiece options piece) := by
  cases piece with
  | stmt s => exact builds_stmt options (.stmt s) [] s
  | expr e => exact builds_value (.expr e) e
  | _ => exact builds_statement _

theorem builds_pieces (options : Options) (pieces : List Piece) :
    BuildsAll Builds (pieces.map (ofPiece options)) (outlinePieces options pieces) := by
  induction pieces with
  | nil => exact .nil
  | cons p rest ih => exact .cons (builds_piece options p) ih

end CodeChart.Chart
