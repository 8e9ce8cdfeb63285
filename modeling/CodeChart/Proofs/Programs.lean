import CodeChart.Chart.Source
import CodeChart.Proofs.Endings
import Mathlib.Data.Nat.Init

/-! Programs as they are read. Every statement that the grammar gives has a statement in each of its
suites and a case in each selection, nothing has been taken away from it, its expressions are
writable, and its tests and values are firm. So has every definition that a field names. -/
namespace CodeChart.Code

mutual

/-- No suite of the statement is empty, and no list of cases. -/
def Stmt.Filled : Stmt → Prop
  | .function _ _ _ _ body _ _ => body ≠ [] ∧ FilledAll body
  | .classDef _ _ _ _ body _ => body ≠ [] ∧ FilledAll body
  | .forEach _ _ _ body orelse => body ≠ [] ∧ FilledAll body ∧ FilledAll orelse
  | .whileTrue _ body orelse => body ≠ [] ∧ FilledAll body ∧ FilledAll orelse
  | .branch _ body orelse => body ≠ [] ∧ FilledAll body ∧ FilledAll orelse
  | .within _ _ body => body ≠ [] ∧ FilledAll body
  | .select _ cases => cases ≠ [] ∧ FilledCases cases
  | .attempt _ body handlers orelse final =>
    body ≠ [] ∧ FilledAll body ∧ FilledHandlers handlers ∧ FilledAll orelse ∧ FilledAll final
  | .lacking _ s => s.Filled
  | _ => True

def FilledAll : List Stmt → Prop
  | [] => True
  | s :: rest => s.Filled ∧ FilledAll rest

def Case.Filled : Case → Prop
  | .mk _ _ body => body ≠ [] ∧ FilledAll body
  | .lacking _ c => c.Filled

def FilledCases : List Case → Prop
  | [] => True
  | c :: rest => c.Filled ∧ FilledCases rest

def Handler.Filled : Handler → Prop
  | .mk _ _ body => body ≠ [] ∧ FilledAll body
  | .lacking _ h => h.Filled

def FilledHandlers : List Handler → Prop
  | [] => True
  | h :: rest => h.Filled ∧ FilledHandlers rest

end

theorem filledAll_iff {ss : List Stmt} : FilledAll ss ↔ ∀ s ∈ ss, s.Filled := by
  induction ss with
  | nil => simp [FilledAll]
  | cons s rest ih => simp [FilledAll, ih]

theorem filledCases_iff {cs : List Case} : FilledCases cs ↔ ∀ c ∈ cs, c.Filled := by
  induction cs with
  | nil => simp [FilledCases]
  | cons c rest ih => simp [FilledCases, ih]

theorem filledHandlers_iff {hs : List Handler} : FilledHandlers hs ↔ ∀ h ∈ hs, h.Filled := by
  induction hs with
  | nil => simp [FilledHandlers]
  | cons h rest ih => simp [FilledHandlers, ih]

/-- A statement as it is read: no suite of it is empty, and it is whole. -/
structure Stmt.Proper (s : Stmt) : Prop where
  filled : s.Filled
  whole : s.Whole

def ProperAll (ss : List Stmt) : Prop := FilledAll ss ∧ WholeAll ss

def ProperSuite (ss : List Stmt) : Prop := ss ≠ [] ∧ ProperAll ss

theorem properAll_iff {ss : List Stmt} : ProperAll ss ↔ ∀ s ∈ ss, s.Proper := by
  rw [ProperAll, filledAll_iff, wholeAll_iff]
  exact ⟨fun h s hs => ⟨h.1 s hs, h.2 s hs⟩, fun h =>
    ⟨fun s hs => (h s hs).1, fun s hs => (h s hs).2⟩⟩

theorem properAll_flatten {sss : List (List Stmt)} (h : ∀ ss ∈ sss, ProperSuite ss) :
    ProperAll sss.flatten := by
  refine properAll_iff.2 fun s hs => ?_
  obtain ⟨ss, hss, hs⟩ := List.mem_flatten.1 hs
  exact properAll_iff.1 (h ss hss).2 s hs

theorem properSuite_flatten {sss : List (List Stmt)} (hne : sss ≠ [])
    (h : ∀ ss ∈ sss, ProperSuite ss) :
    ProperSuite sss.flatten := by
  refine ⟨?_, properAll_flatten h⟩
  obtain ⟨ss, rest, rfl⟩ := List.exists_cons_of_ne_nil hne
  intro hempty
  rw [List.flatten_cons, List.append_eq_nil_iff] at hempty
  exact (h ss List.mem_cons_self).1 hempty.1

/-- What reading says of a statement: it is proper, and its tests and values are firm. -/
structure Stmt.Read (s : Stmt) : Prop where
  proper : s.Proper
  firm : s.Firm

def ReadAll (ss : List Stmt) : Prop := ProperAll ss ∧ FirmAll ss

def ReadSuite (ss : List Stmt) : Prop := ProperSuite ss ∧ FirmAll ss

theorem ReadSuite.all {ss : List Stmt} (h : ReadSuite ss) : ReadAll ss := ⟨h.1.2, h.2⟩

theorem readSuite_of_forall {ss : List Stmt} (hne : ss ≠ []) (h : ∀ s ∈ ss, s.Read) :
    ReadSuite ss :=
  ⟨⟨hne, properAll_iff.2 fun s hs => (h s hs).proper⟩, firmAll_iff.2 fun s hs => (h s hs).firm⟩

theorem Stmt.Read.suite {s : Stmt} (h : s.Read) : ReadSuite [s] :=
  readSuite_of_forall (List.cons_ne_nil s []) (List.forall_mem_singleton.2 h)

theorem readSuite_flatten {sss : List (List Stmt)} (hne : sss ≠ []) (h : ∀ ss ∈ sss, ReadSuite ss) :
    ReadSuite sss.flatten :=
  ⟨properSuite_flatten hne fun ss hss => (h ss hss).1, firmAll_flatten fun ss hss => (h ss hss).2⟩

namespace Grammar

open Reader

variable {g : Grammar} (hg : ∀ goal, Gives Expr.Writable (g goal))

section
include hg

theorem rightSide_gives : Gives Expr.Writable (rightSide g) := .after fun _ => .ite (hg _) (hg _)

theorem assignChain_gives : Gives (fun es => ∀ e ∈ es, e.Writable) (assignChain g) := by
  have hright : Gives Expr.Writable (do op "="; rightSide g) := .after fun _ => rightSide_gives hg
  exact hright.many1.mono fun _ h => h.2

theorem declaration_gives {place : Expr} (h : place.Writable) (simple : Bool) :
    Gives Stmt.Read (declaration g place simple) := by
  refine .ite .failure ((hg _).bind fun hint hhint => .after fun b => .ite ?_ ?_)
  · exact .after fun _ => (rightSide_gives hg).bind fun v hv =>
      .pure ⟨⟨trivial, h, hhint, forall_mem_some hv⟩, trivial⟩
  · exact .pure ⟨⟨trivial, h, hhint, by simp⟩, trivial⟩

theorem expressionStatement_gives : Gives Stmt.Read (expressionStatement g) := by
  refine .after fun _ => (hg _).bind fun e he => .after fun t => ?_
  split
  · refine (assignChain_gives hg).bind fun values hvalues => ?_
    have hall : ∀ e' ∈ e :: values, e'.Writable := List.forall_mem_cons.2 ⟨he, hvalues⟩
    dsimp only
    split
    next value hlast =>
      refine .ite (.pure ⟨⟨trivial, fun e' he' => ?_, ?_⟩, trivial⟩) .failure
      · exact hall e' (List.dropLast_subset _ he')
      · exact hall value (List.mem_of_getLast? hlast)
    next => exact .failure
  · exact .after fun _ => declaration_gives hg he _
  · split
    · refine .ite .failure (.after fun o => (rightSide_gives hg).bind fun v hv => ?_)
      exact .pure ⟨⟨trivial, he, hv⟩, trivial⟩
    · exact .pure ⟨⟨trivial, he⟩, trivial⟩
  · exact .pure ⟨⟨trivial, he⟩, trivial⟩

theorem deleteStatement_gives : Gives Stmt.Read (deleteStatement g) := by
  refine .after fun _ => (hg _).commaListWithTail.bind fun p hp => .after fun b => ?_
  exact .ite (.pure ⟨⟨trivial, hp⟩, trivial⟩) .failure

theorem raiseStatement_gives : Gives Stmt.Read (raiseStatement g) := by
  refine .after fun _ => .after fun b => .ite (.pure ⟨⟨trivial, by simp, by simp⟩, trivial⟩) ?_
  refine (hg _).bind fun e he => .after fun b => .ite ?_ ?_
  · exact .after fun _ => (hg _).bind fun c hc =>
      .pure ⟨⟨trivial, forall_mem_some he, forall_mem_some hc⟩, trivial⟩
  · exact .pure ⟨⟨trivial, forall_mem_some he, by simp⟩, trivial⟩

theorem requireStatement_gives : Gives Stmt.Read (requireStatement g) := by
  refine .after fun _ => (hg _).bind fun e he => .after fun b => .ite ?_ ?_
  · exact .after fun _ => (hg _).bind fun m hm => .pure ⟨⟨trivial, he, forall_mem_some hm⟩, trivial⟩
  · exact .pure ⟨⟨trivial, he, by simp⟩, trivial⟩

theorem withItem_gives : Gives WithItem.Writable (withItem g) := by
  refine (hg _).bind fun e he => .after fun b => .ite ?_ (.pure ⟨he, by simp⟩)
  exact .after fun _ => (target_gives hg).bind fun t ht => .pure ⟨he, forall_mem_some ht⟩

theorem withItems_gives : Gives (fun ws => ∀ w ∈ ws, w.Writable) (withItems g) := by
  refine .orElse ?_ (withItem_gives hg).commaList
  refine .after fun _ => (withItem_gives hg).commaListWithTail.bind fun p hp => ?_
  exact .after fun _ => .after fun b => .ite (.pure hp) .failure

theorem decorator_gives : Gives Expr.Writable (decorator g) :=
  .after fun _ => (hg _).bind fun _ he => .after fun _ => .pure he

theorem selectionHead_gives : Gives Expr.Writable (selectionHead g) := by
  have hsubject : Gives Expr.Writable (subject g) := by
    refine (starNamed_gives hg).bind fun e he => .after fun b => .ite ?_ (.ite .failure (.pure he))
    exact (moreItems_gives hg he).bind fun es hes => .pure (.tuple hes)
  refine .after fun _ => hsubject.bind fun e he => .after fun _ => .after fun _ =>
    .after fun _ => ?_
  refine .after fun t => ?_
  split
  · exact .pure he
  · exact .failure

end

variable (hf : ∀ goal, Gives Expr.Firm (g goal))
include hg hf

theorem returnStatement_gives : Gives Stmt.Read (returnStatement g) := by
  refine .after fun _ => .after fun b =>
    .ite (.pure ⟨⟨trivial, by simp [Stmt.Whole]⟩, by simp [Stmt.Firm]⟩) ?_
  exact ((hg _).and (hf _)).bind fun e he =>
    .pure ⟨⟨trivial, forall_mem_some he.1⟩, forall_mem_some he.2⟩

theorem simpleStatement_gives : Gives Stmt.Read (simpleStatement g) := by
  have hplain : ∀ {α : Type} {r : Reader α} {make : α → Stmt}, (∀ a, (make a).Read) →
      Gives Stmt.Read (make <$> r) :=
    fun h => Gives.map (Q := fun _ => True) (fun _ _ _ _ => trivial) fun a _ => h a
  refine .after fun t => ?_
  split
  · exact returnStatement_gives hg hf
  · exact .after fun _ => .after fun names => .pure ⟨⟨trivial, trivial⟩, trivial⟩
  · refine .after fun _ => .after fun level => .after fun source => .ite .failure ?_
    exact .after fun _ => .after fun names => .pure ⟨⟨trivial, trivial⟩, trivial⟩
  · exact raiseStatement_gives hg
  · exact .after fun _ => .pure ⟨⟨trivial, trivial⟩, trivial⟩
  · exact .after fun _ => .pure ⟨⟨trivial, trivial⟩, trivial⟩
  · exact .after fun _ => .pure ⟨⟨trivial, trivial⟩, trivial⟩
  · exact deleteStatement_gives hg
  · exact (hg _).map fun e he => ⟨⟨trivial, he⟩, trivial⟩
  · exact requireStatement_gives hg
  · exact .after fun _ => hplain fun names => ⟨⟨trivial, trivial⟩, trivial⟩
  · exact .after fun _ => hplain fun names => ⟨⟨trivial, trivial⟩, trivial⟩
  · exact expressionStatement_gives hg

theorem simpleLine_gives : Gives ReadSuite (simpleLine g) := by
  have hmore : Gives Stmt.Read (do op ";"; simpleStatement g) :=
    .after fun _ => simpleStatement_gives hg hf
  refine (simpleStatement_gives hg hf).bind fun s hs => hmore.many.bind fun more hmore => ?_
  refine .after fun _ => .after fun _ => .pure (readSuite_of_forall (List.cons_ne_nil s more) ?_)
  exact List.forall_mem_cons.2 ⟨hs, hmore⟩

variable {inner : Statements} (h : Gives ReadSuite inner)
include h

theorem suite_gives : Gives ReadSuite (suite g inner) := by
  refine .after fun _ => .after fun t => ?_
  split
  · refine .after fun _ => .after fun _ => h.many1.bind fun sss hsss => .after fun _ => ?_
    exact .pure (readSuite_flatten hsss.1 hsss.2)
  · exact simpleLine_gives hg hf

theorem elseSuite_gives : Gives ReadAll (elseSuite g inner) := by
  refine .after fun b => .ite ?_ (.pure ⟨⟨trivial, trivial⟩, trivial⟩)
  exact .after fun _ => (suite_gives hg hf h).mono fun _ hss => hss.all

theorem finallySuite_gives : Gives ReadAll (finallySuite g inner) := by
  refine .after fun b => .ite ?_ (.pure ⟨⟨trivial, trivial⟩, trivial⟩)
  exact .after fun _ => (suite_gives hg hf h).mono fun _ hss => hss.all

omit hg hf h in
theorem branch_read {test : Expr} {body orelse : List Stmt} (ht : test.Writable ∧ test.Firm)
    (hb : ReadSuite body) (ho : ReadAll orelse) : (Stmt.branch test body orelse).Read :=
  ⟨⟨⟨hb.1.1, hb.1.2.1, ho.1.1⟩, ht.1, hb.1.2.2, ho.1.2⟩, ht.2, hb.2, ho.2⟩

theorem otherwise_gives (ts : List Token) : Gives ReadAll (otherwise g inner ts) := by
  induction ts with
  | nil => exact .failure
  | cons t ts ih =>
    refine .after fun b => .ite ?_ (elseSuite_gives hg hf h)
    refine .after fun _ => ((hg _).and (hf _)).bind fun test htest => ?_
    refine (suite_gives hg hf h).bind fun body hbody => ?_
    exact ih.bind fun orelse horelse => .pure (branch_read htest hbody horelse).suite.all

theorem branchStatement_gives : Gives Stmt.Read (branchStatement g inner) := by
  refine .after fun _ => ((hg _).and (hf _)).bind fun test htest => ?_
  refine (suite_gives hg hf h).bind fun body hbody => ?_
  exact .after fun ts => (otherwise_gives hg hf h ts).bind fun orelse horelse =>
    .pure (branch_read htest hbody horelse)

theorem whileStatement_gives : Gives Stmt.Read (whileStatement g inner) := by
  refine .after fun _ => ((hg _).and (hf _)).bind fun test htest => ?_
  refine (suite_gives hg hf h).bind fun body hbody => ?_
  exact (elseSuite_gives hg hf h).bind fun orelse horelse =>
    .pure ⟨⟨⟨hbody.1.1, hbody.1.2.1, horelse.1.1⟩, htest.1, hbody.1.2.2, horelse.1.2⟩, htest.2,
      hbody.2⟩

theorem forStatement_gives (isAsync : Bool) : Gives Stmt.Read (forStatement g inner isAsync) := by
  refine .after fun _ => (targets_gives hg).bind fun t ht => .after fun _ => ?_
  refine ((hg _).and (hf _)).bind fun source hsource =>
    (suite_gives hg hf h).bind fun body hbody => ?_
  exact (elseSuite_gives hg hf h).bind fun orelse horelse =>
    .pure ⟨⟨⟨hbody.1.1, hbody.1.2.1, horelse.1.1⟩, ht, hsource.1, hbody.1.2.2, horelse.1.2⟩,
      hsource.2, hbody.2⟩

theorem withStatement_gives (isAsync : Bool) : Gives Stmt.Read (withStatement g inner isAsync) := by
  refine .after fun _ => (withItems_gives hg).bind fun items hitems => ?_
  exact (suite_gives hg hf h).bind fun _ hbody =>
    .pure ⟨⟨⟨hbody.1.1, hbody.1.2.1⟩, hitems, hbody.1.2.2⟩, trivial⟩

theorem handler_gives (grouped : Bool) :
    Gives (fun handler => handler.Filled ∧ handler.Whole) (handler g inner grouped) := by
  have hbare : Gives (fun handler => handler.Filled ∧ handler.Whole) (do
      let body ← suite g inner
      pure (Handler.mk none none body)) :=
    (suite_gives hg hf h).bind fun body hbody =>
      .pure ⟨⟨hbody.1.1, hbody.1.2.1⟩, by simp, hbody.1.2.2⟩
  have htyped : Gives (fun handler => handler.Filled ∧ handler.Whole) (do
      let e ← g .expression
      let n ← asName
      let body ← suite g inner
      pure (Handler.mk (some e) n body)) :=
    (hg _).bind fun e he => .after fun n => (suite_gives hg hf h).bind fun body hbody =>
      .pure ⟨⟨hbody.1.1, hbody.1.2.1⟩, forall_mem_some he, hbody.1.2.2⟩
  refine .after fun _ => .ite (.after fun _ => ?_) ?_
  · exact .after fun b => .ite hbare htyped
  · exact .after fun b => .ite hbare htyped

theorem tryStatement_gives : Gives Stmt.Read (tryStatement g inner) := by
  refine .after fun _ => (suite_gives hg hf h).bind fun body hread => .after fun b => ?_
  have hbody := hread.1
  refine .ite ?_ ?_
  · refine .after fun t => (handler_gives hg hf h _).many1.bind fun handlers hhandlers => ?_
    refine (elseSuite_gives hg hf h).bind fun orelse horelse => ?_
    refine (finallySuite_gives hg hf h).bind fun final hfinal => .pure ⟨⟨?_, ?_⟩, trivial⟩
    · have hhandlers := filledHandlers_iff.2 fun h hh => (hhandlers.2 h hh).1
      exact ⟨hbody.1, hbody.2.1, hhandlers, horelse.1.1, hfinal.1.1⟩
    · have hhandlers := wholeHandlers_iff.2 fun h hh => (hhandlers.2 h hh).2
      exact ⟨hbody.2.2, hhandlers, horelse.1.2, hfinal.1.2⟩
  · refine .after fun _ => (suite_gives hg hf h).bind fun final hfinal => .pure ⟨⟨?_, ?_⟩, trivial⟩
    · exact ⟨hbody.1, hbody.2.1, trivial, trivial, hfinal.1.2.1⟩
    · exact ⟨hbody.2.2, trivial, trivial, hfinal.1.2.2⟩

theorem functionStatement_gives {decorators : List Expr} (hd : ∀ e ∈ decorators, e.Writable)
    (asyncLine : Option Nat) :
    Gives Stmt.Read (functionStatement g inner decorators asyncLine) := by
  refine .after fun line => .after fun id => .after fun _ =>
    (params_gives hg _ _).bind fun ps hps => ?_
  have hrest : ∀ result : Option Expr, (∀ e ∈ result, e.Writable) → Gives Stmt.Read (do
      let body ← suite g inner
      pure (.function asyncLine.isSome (asyncLine.getD line) id ps body decorators result)) :=
    fun result hresult => (suite_gives hg hf h).bind fun body hbody =>
      .pure ⟨⟨⟨hbody.1.1, hbody.1.2.1⟩, hps, hbody.1.2.2, hd, hresult⟩, hbody.2⟩
  refine .after fun _ => .after fun b => .ite ?_ ?_
  · have hresult : Gives (fun e? => ∀ e ∈ e?, e.Writable) (some <$> g .expression) :=
      (hg _).map fun e he => forall_mem_some he
    exact .after fun _ => hresult.bind hrest
  · exact (Gives.pure (by simp)).bind hrest

theorem classStatement_gives {decorators : List Expr} (hd : ∀ e ∈ decorators, e.Writable) :
    Gives Stmt.Read (classStatement g inner decorators) := by
  refine .after fun line => .after fun id => ?_
  have hrest : ∀ args : List Expr × List Keyword, (∀ e ∈ args.1, e.Writable) ∧
      (∀ k ∈ args.2, k.Writable) →
      Gives Stmt.Read (do
        let body ← suite g inner
        pure (.classDef line id args.1 args.2 body decorators)) :=
    fun args hargs => (suite_gives hg hf h).bind fun body hbody =>
      .pure ⟨⟨⟨hbody.1.1, hbody.1.2.1⟩, hargs.1, hargs.2, hbody.1.2.2, hd⟩, hbody.2⟩
  refine .after fun b => .ite ?_ ?_
  · exact .after fun _ => (arguments_gives hg).bind fun args hargs => .after fun _ =>
      .bind (.pure hargs) hrest
  · exact .bind (.pure ⟨by simp, by simp⟩) hrest

theorem decorated_gives : Gives Stmt.Read (decorated g inner) := by
  refine (decorator_gives hg).many1.bind fun ds hds => .after fun t => ?_
  split
  · exact classStatement_gives hg hf h hds.2
  · exact .after fun line => functionStatement_gives hg hf h hds.2 (some line)
  · exact functionStatement_gives hg hf h hds.2 none

theorem asyncStatement_gives : Gives Stmt.Read (asyncStatement g inner) := by
  refine .after fun line => .after fun t => ?_
  split
  · exact functionStatement_gives hg hf h (by simp) (some line)
  · exact forStatement_gives hg hf h true
  · exact withStatement_gives hg hf h true

variable {p : PatternReader} (hp : Gives Pattern.Writable p)
include hp

theorem caseBlock_gives : Gives (fun c => (c.Filled ∧ c.Whole) ∧ c.Firm) (caseBlock g p inner) := by
  refine .after fun _ => (patterns_gives hp).bind fun ps hps => ?_
  have hrest : ∀ test : Option Expr, (∀ e ∈ test, e.Writable) →
      Gives (fun c => (c.Filled ∧ c.Whole) ∧ c.Firm) (do
        let body ← suite g inner
        pure (Case.mk ps test body)) :=
    fun test htest => (suite_gives hg hf h).bind fun body hbody =>
      .pure ⟨⟨⟨hbody.1.1, hbody.1.2.1⟩, hps, htest, hbody.1.2.2⟩, hbody.2⟩
  refine .after fun b => .ite ?_ ?_
  · have htest : Gives (fun e? => ∀ e ∈ e?, e.Writable) (some <$> g .named) :=
      (hg _).map fun e he => forall_mem_some he
    exact .after fun _ => htest.bind hrest
  · exact (Gives.pure (by simp)).bind hrest

theorem statement_gives : Gives ReadSuite (statement g p inner) := by
  have hone : ∀ s : Stmt, s.Read → ReadSuite (List.singleton s) := fun s hs => hs.suite
  refine .after fun t => ?_
  split
  · exact (branchStatement_gives hg hf h).map hone
  · exact (whileStatement_gives hg hf h).map hone
  · exact (forStatement_gives hg hf h false).map hone
  · exact (withStatement_gives hg hf h false).map hone
  · exact (tryStatement_gives hg hf h).map hone
  · exact (functionStatement_gives hg hf h (by simp) none).map hone
  · exact (classStatement_gives hg hf h (by simp)).map hone
  · exact (asyncStatement_gives hg hf h).map hone
  · exact (decorated_gives hg hf h).map hone
  · refine (selectionHead_gives hg).maybe.bind fun head hhead => ?_
    split
    next e =>
      refine (caseBlock_gives hg hf h hp).many1.bind fun cases hcases => .after fun _ => .pure ?_
      have hfilled := filledCases_iff.2 fun c hc => (hcases.2 c hc).1.1
      have hwhole := wholeCases_iff.2 fun c hc => (hcases.2 c hc).1.2
      have hfirm := firmCases_iff.2 fun c hc => (hcases.2 c hc).2
      exact Stmt.Read.suite ⟨⟨⟨hcases.1, hfilled⟩, hhead e rfl, hwhole⟩, hfirm⟩
    next => exact simpleLine_gives hg hf
  · exact simpleLine_gives hg hf

end Grammar

theorem readStatement_gives {g : Grammar} (hg : ∀ goal, Gives Expr.Writable (g goal))
    (hf : ∀ goal, Gives Expr.Firm (g goal)) {p : Grammar.PatternReader}
    (hp : Gives Pattern.Writable p) (depth : Nat) :
    Gives ReadSuite (fun ts => readStatement g p depth ts) := by
  induction depth with
  | zero => exact .failure
  | succ depth ih => exact Grammar.statement_gives hg hf ih hp

theorem parse_read {source : String} {m : Module} (h : Module.parse source = .ok m) :
    ReadAll m.body := by
  unfold Module.parse at h
  dsimp only at h
  split at h
  · cases h
  · split at h
    next hread =>
      cases h
      have hg := readExpr_gives (source.toList.length + 2)
      have hf := readExpr_firm (source.toList.length + 2)
      have hp := readPattern_gives hg (source.toList.length + 2)
      refine Gives.bind (P := fun m : Module => ReadAll m.body)
        (readStatement_gives hg hf hp _).many
        (fun sss hsss => .after fun _ => .pure ?_) _ _ _ hread
      exact ⟨properAll_flatten fun ss hss => (hsss ss hss).1, firmAll_flatten fun ss hss =>
        (hsss ss hss).2⟩
    next => cases h

theorem parse_proper {source : String} {m : Module} (h : Module.parse source = .ok m) :
    ProperAll m.body :=
  (parse_read h).1

theorem mem_of_lastDefinition {name : String} {body : List Stmt} {i : Nat} {s : Stmt}
    (h : lastDefinition name body = some (i, s)) : s ∈ body := by
  unfold lastDefinition at h
  obtain ⟨⟨s', i'⟩, hfind, heq⟩ := Option.map_eq_some_iff.1 h
  cases heq
  have hmem := List.mem_of_find?_eq_some hfind
  rw [List.mem_reverse] at hmem
  exact List.fst_mem_of_mem_zipIdx hmem

def Place.Proper : Place → Prop
  | .module m => ProperAll m.body
  | .definition s => s.Proper

theorem Place.Proper.body {place : Place} (h : place.Proper) : ProperAll place.body := by
  cases place with
  | module m => exact h
  | definition s =>
    cases s with
    | function isAsync line name params body decorators result => exact ⟨h.filled.2, h.whole.2.1⟩
    | classDef line name bases keywords body decorators => exact ⟨h.filled.2, h.whole.2.2.1⟩
    | _ => exact ⟨trivial, trivial⟩

theorem Place.withBody_nil (place : Place) : (place.withBody []).body = [] := by
  cases place with
  | module m => rfl
  | definition s => cases s <;> rfl

/-- What holds of the module, and in each definition in the body of a place that it holds of, holds
of the place that is found with a body. -/
theorem lookup_induction {P : Place → Prop} {m : Module} (hm : P (.module m))
    (hstep : ∀ place s, P place → s ∈ place.body → P (.definition s)) (field : String)
    (hne : (m.lookup field).place.body ≠ []) : P (m.lookup field).place := by
  have hdescend : ∀ (names : List String) (place : Place), P place → P (place.descend names).2 := by
    intro names
    induction names with
    | nil => exact fun place h => h
    | cons name rest ih =>
      intro place h
      unfold Place.descend
      split
      next i s hlast => exact ih _ (hstep place s h (mem_of_lastDefinition hlast))
      next => exact ih place h
  unfold Module.lookup at hne ⊢
  split
  · exact hm
  next hfield =>
    rw [if_neg hfield] at hne
    dsimp only at hne ⊢
    split
    · exact hdescend _ _ hm
    next hname =>
      rw [if_neg hname] at hne
      exact absurd (Place.withBody_nil _) hne

/-- A module or a statement with firm tests and values. -/
def Piece.Firm : Piece → Prop
  | .module m => FirmAll m.body
  | .stmt s => s.Firm
  | _ => True

def Piece.Proper : Piece → Prop
  | .module m => ProperAll m.body
  | .stmt s => s.Proper
  | _ => False

end CodeChart.Code

namespace CodeChart.Chart

open Code

/-- What holds of a module, and of each statement of a place that it holds of, holds of all pieces
of a field. -/
theorem fieldPieces_induction {P : Piece → Prop} {m : Module} (hm : P (.module m))
    (hstep : ∀ (place : Place), P place.piece → ∀ s ∈ place.body, P (.stmt s)) {field : String}
    {inner : Bool} {pieces : List Piece} (h : fieldPieces m field inner = .ok pieces) :
    pieces ≠ [] ∧ ∀ p ∈ pieces, P p := by
  unfold fieldPieces at h
  dsimp only at h
  split at h
  · cases h
  next hbody =>
    have hne : (m.lookup field).place.body ≠ [] := by simpa using hbody
    have hplace := lookup_induction (P := fun place => P place.piece) hm
      (fun place s hplace hs => hstep place hplace s hs) field hne
    cases h
    cases inner with
    | true =>
      refine ⟨by simpa using hne, ?_⟩
      rintro _ hp
      obtain ⟨s, hs, rfl⟩ := List.mem_map.1 hp
      exact hstep _ hplace s hs
    | false => exact ⟨by simp, List.forall_mem_singleton.2 hplace⟩

theorem fieldPieces_proper {m : Module} (hm : ProperAll m.body) {field : String} {inner : Bool}
    {pieces : List Piece} (h : fieldPieces m field inner = .ok pieces) :
    pieces ≠ [] ∧ ∀ p ∈ pieces, p.Proper := by
  refine fieldPieces_induction (P := Piece.Proper) hm (fun place hplace s hs => ?_) h
  have hproper : place.Proper := by
    cases place with
    | module m => exact hplace
    | definition s => exact hplace
  exact properAll_iff.1 hproper.body s hs

theorem pieces_eq_ok {source : Source} {pieces : List Piece} (h : source.pieces = .ok pieces) :
    ∃ m, Module.parse source.code = .ok m ∧ fieldPieces m source.field source.inner
      = .ok pieces := by
  unfold Source.pieces at h
  cases hm : Module.parse source.code with
  | error f =>
    rw [hm] at h
    cases h
  | ok m =>
    rw [hm] at h
    exact ⟨m, rfl, h⟩

theorem pieces_proper {source : Source} {pieces : List Piece} (h : source.pieces = .ok pieces) :
    pieces ≠ [] ∧ ∀ p ∈ pieces, p.Proper := by
  obtain ⟨m, hm, hfield⟩ := pieces_eq_ok h
  exact fieldPieces_proper (parse_proper hm) hfield

theorem pieces_firm {source : Source} {pieces : List Piece} (h : source.pieces = .ok pieces) :
    ∀ p ∈ pieces, p.Firm := by
  obtain ⟨m, hm, hfield⟩ := pieces_eq_ok h
  refine (fieldPieces_induction (P := Piece.Firm) (parse_read hm).2
    (fun place hplace s hs => ?_) hfield).2
  have hbody : FirmAll place.body := by
    cases place with
    | module m => exact hplace
    | definition s =>
      cases s with
      | function isAsync line name params body decorators result => exact hplace
      | classDef line name bases keywords body decorators => exact hplace
      | _ => exact trivial
  exact firmAll_iff.1 hbody s hs

end CodeChart.Chart
