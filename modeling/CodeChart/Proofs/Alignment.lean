import CodeChart.Proofs.Building
import CodeChart.Proofs.Legible
import CodeChart.Proofs.Numbering
import CodeChart.Proofs.Options

/-! Alignment marks a chart and changes nothing else. The chart of code with aligned branches has
the nodes and lines of the chart without, in the same order and under the same names; all that it
has besides are the parameters of those tests that another branch follows. -/
namespace CodeChart.Chart

open CodeChart.Graph Code CodeChart.Chart.Flow

section

variable {α β γ δ : Type}

/-- Two results that are faults together, and then the same one. -/
def SameFaults (x : Except Fault α) (y : Except Fault β) : Prop := ∀ f, x = .error f ↔ y = .error f

namespace SameFaults

theorem refl (x : Except Fault α) : SameFaults x x := fun _ => .rfl

theorem pure (a : α) (b : β) : SameFaults (Pure.pure a) (Pure.pure b) := by
  intro f
  constructor <;> rintro ⟨⟩

theorem error (f : Fault) : SameFaults (.error f : Except Fault α) (.error f : Except Fault β) := by
  intro f'
  constructor <;> rintro ⟨⟩ <;> rfl

theorem bind {x : Except Fault α} {y : Except Fault β} (h : SameFaults x y) {k : α → Except Fault γ}
    {l : β → Except Fault δ} (hnext : ∀ a b, SameFaults (k a) (l b)) :
    SameFaults (x >>= k) (y >>= l) := by
  cases x with
  | error f =>
    obtain rfl := (h f).1 rfl
    exact error f
  | ok a =>
    cases y with
    | error f => cases (h f).2 rfl
    | ok b => exact hnext a b

/-- Results that depend on one value. -/
theorem after (x : Except Fault α) {k : α → Except Fault γ} {l : α → Except Fault δ}
    (hnext : ∀ a, SameFaults (k a) (l a)) : SameFaults (x >>= k) (x >>= l) := by
  cases x with
  | error f => exact error f
  | ok a => exact hnext a

end SameFaults

end

section

variable (options options' : Options)

theorem loop_sameFaults (code : Piece) {body body' : Except Fault (List (Flow Box))}
    (h : SameFaults body body') :
    SameFaults
      (do
        let test ← code.header
        let body ← body
        return loopFlow options ⟨none, test, []⟩ (orIdle (arrange options body)))
      (do
        let test ← code.header
        let body ← body'
        return loopFlow options' ⟨none, test, []⟩ (orIdle (arrange options' body))) :=
  .after _ fun _ => h.bind fun _ _ => .pure _ _

mutual

theorem outline_sameFaults (code : Piece) (missing : List String) (s : Stmt) :
    SameFaults (outline options code missing s) (outline options' code missing s) := by
  cases s with
  | function isAsync line name params body decorators result =>
    cases isAsync with
    | true => exact .refl _
    | false =>
      rw [outline, outline]
      refine .after _ fun _ => .after _ fun _ => ?_
      split
      · exact .refl _
      · exact (outlines_sameFaults body).bind fun _ _ => .pure _ _
  | forEach isAsync target source body orelse =>
    cases isAsync with
    | true => exact .refl _
    | false =>
      rw [outline, outline]
      exact loop_sameFaults options options' code (outlines_sameFaults body)
  | whileTrue test body orelse =>
    rw [outline, outline]
    exact loop_sameFaults options options' code (outlines_sameFaults body)
  | branch test body orelse =>
    rw [outline, outline]
    exact .after _ fun _ => (outlines_sameFaults body).bind fun _ _ =>
      (outlines_sameFaults orelse).bind fun _ _ => .pure _ _
  | giveBack value => cases value <;> exact .refl _
  | lacking part s => exact outline_sameFaults code (part :: missing) s
  | _ => exact .refl _

theorem outlines_sameFaults (ss : List Stmt) :
    SameFaults (outlines options ss) (outlines options' ss) := by
  cases ss with
  | nil => exact .refl _
  | cons s rest =>
    rw [outlines, outlines]
    exact (outline_sameFaults (.stmt s) [] s).bind fun _ _ =>
      (outlines_sameFaults rest).bind fun _ _ => .pure _ _

end

theorem outlinePieces_sameFaults (pieces : List Piece) :
    SameFaults (outlinePieces options pieces) (outlinePieces options' pieces) := by
  induction pieces with
  | nil => exact .refl _
  | cons p rest ih =>
    rw [outlinePieces, outlinePieces]
    have hpiece : SameFaults (outlinePiece options p) (outlinePiece options' p) := by
      cases p with
      | stmt s => exact outline_sameFaults options options' (.stmt s) [] s
      | _ => exact .refl _
    exact hpiece.bind fun _ _ => ih.bind fun _ _ => .pure _ _

end

theorem own_map {V W : Type} (f : V → W) (t : Flow V) : (t.map f).own = t.own.map f := by
  cases t with
  | halt output finish => cases output <;> rfl
  | _ => rfl

theorem own_outline {options : Options} {code : Piece} {missing : List String} {s : Stmt}
    {u : Flow Box} (h : outline options code missing s = .ok u) : ∀ b ∈ u.own, b.params = [] := by
  have hstep : .step <$> statementBox code = .ok u → ∀ b ∈ u.own, b.params = [] := by
    intro h
    obtain ⟨b, hb, rfl⟩ := map_eq_ok.1 h
    exact List.forall_mem_singleton.2 (statementBox_params hb)
  have hloop : ∀ test body, loopFlow options ⟨none, test, []⟩ body = u →
      ∀ b ∈ u.own, b.params = [] := by
    rintro test body rfl
    unfold loopFlow
    split <;> exact List.forall_mem_singleton.2 rfl
  cases s with
  | function isAsync line name params body decorators result =>
    cases isAsync with
    | true => exact hstep h
    | false =>
      obtain ⟨name, input, ts, -, rfl⟩ := outline_function_ok h
      simp [own]
  | forEach isAsync target source body orelse =>
    cases isAsync with
    | true => exact hstep h
    | false =>
      obtain ⟨test, ts, -, -, h⟩ := bind₂_eq_ok.1 h
      exact hloop test _ h
  | whileTrue test body orelse =>
    obtain ⟨test, ts, -, -, h⟩ := bind₂_eq_ok.1 h
    exact hloop test _ h
  | branch test body orelse =>
    obtain ⟨test, ts, us, -, -, -, rfl⟩ := outline_branch_ok h
    unfold branchFlow
    split <;> exact List.forall_mem_singleton.2 rfl
  | giveBack value =>
    cases value with
    | none =>
      cases h
      exact List.forall_mem_singleton.2 rfl
    | some e =>
      obtain ⟨text, -, rfl⟩ := map_eq_ok.1 h
      simp [own]
  | select subject cases =>
    obtain ⟨first, rest, -, rfl⟩ := outline_select_ok h
    simp [own]
  | stop =>
    obtain ⟨text, -, rfl⟩ := map_eq_ok.1 h
    exact List.forall_mem_singleton.2 rfl
  | next =>
    obtain ⟨text, -, rfl⟩ := map_eq_ok.1 h
    exact List.forall_mem_singleton.2 rfl
  | expr value =>
    obtain ⟨b, hb, rfl⟩ := map_eq_ok.1 h
    refine List.forall_mem_singleton.2 ?_
    split at hb
    · exact statementBox_params hb
    · exact valueBox_params hb
  | lacking part s => exact own_outline (s := s) h
  | _ => exact hstep h

/-- Whether the test of the statement at a path is marked: it is a branch outside all cases, and
another branch comes next. -/
def markedAt (pieces : List Piece) (path : List Nat) : Bool :=
  (stmtAt pieces path).any Stmt.isBranch && !insideCase pieces path && followedByBranch pieces path

section

variable {options : Options} {pieces : List Piece} {box : Spot → Box}
  {path : List Nat} {t : Flow Spot}
  {s : Stmt}

theorem align_optionsAt (options : Options) (pieces : List Piece) (path : List Nat) :
    (optionsAt options pieces path).align = (options.align && !insideCase pieces path) := by
  unfold optionsAt
  cases insideCase pieces path <;> simp

theorem Stands.own_path (h : Stands options pieces box path s t) {v : Spot} (hv : v ∈ t.own) :
    v.path = path := by
  rw [h.laid] at hv
  exact own_layout _ _ _ hv

theorem eq_of_align_merged {u : Flow Box} {aligned isBranch : Bool} {b : Box}
    (h : (if aligned then u.align else u) = .merged isBranch b) : u = .merged isBranch b := by
  cases u with
  | branch test body orelse => cases aligned <;> cases h
  | _ => cases aligned <;> exact h

/-- The boxes of a statement are without parameters, but for the test of a branch that is marked. -/
theorem Stands.params (h : Stands options pieces box path s t) {v : Spot} (hv : v ∈ t.own) :
    (box v).params
      = alignment (((box v).shape = none) && options.align && markedAt pieces v.path) := by
  have hpath := h.own_path hv
  obtain ⟨u, hu, hshown⟩ := h.shown
  have hown : box v ∈ (t.map box).own := by
    rw [own_map]
    exact List.mem_map_of_mem hv
  have hplain : s.isBranch = false → (box v).params = [] := by
    intro hs
    rw [align_of_not_branch ((isBranch_outline hu).trans hs), ite_self] at hshown
    rw [hshown] at hown
    exact own_outline hu _ hown
  have hmarked : markedAt pieces v.path
      = (s.isBranch && !insideCase pieces path && followedByBranch pieces path) := by
    rw [hpath, markedAt, h.found, Option.any_some]
  rw [hmarked]
  cases hs : s.isBranch with
  | false => simpa [alignment] using hplain hs
  | true =>
    cases s with
    | branch test body orelse =>
      obtain ⟨header, -, ⟨-, rfl, hshape⟩ | ⟨rfl, hbox, -⟩⟩ := h.branch
      · obtain rfl := List.mem_singleton.1 hv
        rw [eq_of_align_merged hshown.symm] at hu
        rw [own_outline hu _ (List.mem_singleton.2 rfl), hshape]
        rfl
      · obtain rfl := List.mem_singleton.1 hv
        rw [hbox, align_optionsAt]
        simp [Bool.and_assoc]
    | lacking part s => exact h.proper.whole.elim
    | _ => cases hs

theorem StandsCase.params {k : Nat} {c : Case} (h : StandsCase pieces box path k c t) {v : Spot}
    (hv : v ∈ t.own) : v.path = path ∧ (box v).params = [] := by
  obtain ⟨subject, code, hout⟩ := h.shown
  obtain rfl := h.laid
  cases c with
  | mk pattern guard body =>
    obtain rfl := List.mem_singleton.1 hv
    obtain ⟨test, us, -, hout⟩ := outlineCase_ok hout
    injection hout with hbox _
    exact ⟨rfl, by rw [hbox]⟩
  | lacking part c => exact h.whole.elim

section

variable {us : List (Flow Box)} (hproper : ∀ p ∈ pieces, p.Proper)
  (hus : outlinePieces options pieces = .ok us)
  (hbox : mapAll box (layoutPieces options.simplify 0 pieces) = arrange options us)
include hproper hus hbox

theorem params_of_place {v : Spot} (hv : v ∈ placesAll (layoutPieces options.simplify 0 pieces)) :
    (box v).params
      = alignment (((box v).shape = none) && options.align && markedAt pieces v.path) := by
  have hunmarked : markedAt pieces v.path = false → (box v).params = [] →
      (box v).params
        = alignment (((box v).shape = none) && options.align && markedAt pieces v.path) := by
    intro hmarked hparams
    rw [hmarked, hparams, Bool.and_false]
    rfl
  obtain ⟨t, hamong, hown⟩ := among_of_mem_placesAll _ hv
  cases accounted_of_among hproper hus hbox hamong with
  | stmt hs => exact hs.params hown
  | case hc =>
    obtain ⟨hpath, hparams⟩ := hc.params hown
    obtain ⟨subject, cases, hfound, -⟩ := hc.found
    refine hunmarked ?_ hparams
    rw [hpath, markedAt, hfound]
    rfl
  | other hnone hparams hstep =>
    subst hstep
    obtain rfl := List.mem_singleton.1 hown
    refine hunmarked ?_ hparams
    rw [markedAt, hnone]
    rfl

end

end

/-- The same source with or without alignment. -/
def Source.aligned (source : Source) (align : Bool) : Source :=
  { source with options := { source.options with align } }

theorem right_not_mem_arrowLabels : ∀ labels ∈ arrowLabels, "right" ∉ labels := by decide

theorem Portrays.labelled {ts : List (Flow Spot)} {us : List (Flow Box)} {f : Spot → Named}
    {d : Drawing} (h : Portrays ts us f d) : ∀ k ∈ d.lines, k.labels ∈ arrowLabels := by
  intro k hk
  obtain ⟨entry, -, hd⟩ := h.drawn
  obtain ⟨x, hx, -, a, ha, w, -, rfl⟩ := (hd.lines k).1 hk
  exact verticesAll_labelled (by decide) ts x hx a ha

theorem Portrays.seen_lines {ts : List (Flow Spot)} {us : List (Flow Box)} {f : Spot → Named}
    {d : Drawing} (h : Portrays ts us f d) : d.lines.map (Line.seen false) = d.lines := by
  have hseen : ∀ k ∈ d.lines, k.seen false = k := by
    intro k hk
    have hright := right_not_mem_arrowLabels _ (h.labelled k hk)
    have hlabels : k.labels.filter (· ≠ "right") = k.labels :=
      List.filter_eq_self.2 fun l hl => decide_eq_true fun heq => hright (heq ▸ hl)
    simp only [Line.seen, hlabels]
  rw [List.map_congr_left hseen, List.map_id']

theorem Portrays.place_of_node {ts : List (Flow Spot)} {us : List (Flow Box)} {f : Spot → Named}
    {d : Drawing} (h : Portrays ts us f d) {n : Definition} (hn : n ∈ d.nodes) :
    ∃ v ∈ placesAll ts, n = (f v).definition := by
  obtain ⟨entry, hentry, hd⟩ := h.drawn
  obtain ⟨v, hv, rfl⟩ := (hd.nodes n).1 hn
  refine ⟨v, ?_, rfl⟩
  rw [← map_place_verticesAll [] ts]
  exact hv.mem (verticesAll_targets [] ts) (mem_of_entryOf [] ts hentry)

section

variable {options : Options} {pieces : List Piece} {us : List (Flow Box)}
  {f : Spot → Named} {d : Drawing}
  (hproper : ∀ p ∈ pieces, p.Proper) (hus : outlinePieces options pieces = .ok us)
  (h : Portrays (layoutPieces options.simplify 0 pieces) (arrange options us) f d)
include hproper hus h

theorem Portrays.params {v : Spot} (hv : v ∈ placesAll (layoutPieces options.simplify 0 pieces)) :
    (f v).definition.params = alignment
      ((f v).definition.word = "condition" && options.align && markedAt pieces v.path) := by
  have hword : ((f v).definition.word = "condition") = ((f v).box.shape = none) :=
    propext word_eq_condition
  simp only [hword]
  exact params_of_place hproper hus h.boxes hv

theorem Portrays.seen_nodes (halign : options.align = false) :
    d.nodes.map (Definition.seen false) = d.nodes := by
  have hseen : ∀ n ∈ d.nodes, n.seen false = n := by
    intro n hn
    obtain ⟨v, hv, rfl⟩ := h.place_of_node hn
    have hparams := h.params hproper hus hv
    rw [halign, Bool.and_false, Bool.false_and] at hparams
    simp only [Definition.seen]
    rw [← show _ = [] from hparams]
  rw [List.map_congr_left hseen, List.map_id']

end

/-- Alignment marks a chart and changes nothing else: with it and without it, the same code gives
the same nodes with the same names, words and texts, and the same lines, both in the same order, or
else the same fault. What alignment adds is a parameter of each branch that is drawn as a test,
stands outside all cases and has another branch as its next statement. -/
theorem alignment_annotates (source : Source) (σ : Store) (hσ : σ.Sound) :
    (∃ fault τ τ', (source.aligned true).draw σ = .error fault τ ∧
      (source.aligned false).draw σ = .error fault τ') ∨
    ∃ pieces flows f, ∃ (d d' : Drawing) (τ τ' : Store), source.pieces = .ok pieces ∧
      (source.aligned true).draw σ = .ok d.text τ ∧ (source.aligned false).draw σ = .ok d'.text τ' ∧
      d'.nodes = d.nodes.map (fun n => { n with params := [] }) ∧ d'.lines = d.lines ∧
      outlinePieces (source.aligned true).options pieces = .ok flows ∧
      Portrays (layoutPieces source.options.simplify 0 pieces)
        (arrange (source.aligned true).options flows) f d ∧
      (∀ n ∈ d.nodes, ∃ v ∈ placesAll (layoutPieces source.options.simplify 0 pieces),
        n = (f v).definition) ∧
      ∀ v ∈ placesAll (layoutPieces source.options.simplify 0 pieces), (f v).definition.params
        = alignment
          ((f v).definition.word = "condition" && (stmtAt pieces v.path).any Stmt.isBranch &&
          !insideCase pieces v.path && followedByBranch pieces v.path) := by
  cases hpieces : source.pieces with
  | error fault =>
    have hfail : ∀ align, (source.aligned align).draw σ = .error fault σ := by
      intro align
      have hsame : (source.aligned align).pieces = .error fault := hpieces
      unfold Source.draw Source.chart
      rw [hsame]
      rfl
    exact .inl ⟨fault, σ, σ, hfail true, hfail false⟩
  | ok pieces =>
    obtain ⟨hne, hproper⟩ := pieces_proper hpieces
    have hdraw : ∀ align, (source.aligned align).draw σ
        = (chartOf (source.aligned align).options pieces >>= chartText) σ := by
      intro align
      have hsame : (source.aligned align).pieces = .ok pieces := hpieces
      exact draw_of_pieces hsame σ
    have hfaults :=
      outlinePieces_sameFaults (source.aligned true).options (source.aligned false).options pieces
    cases hspec : outlinePieces (source.aligned true).options pieces with
    | error fault =>
      have hspec' := (hfaults fault).1 hspec
      obtain ⟨τ, hrun, -⟩ : Realizes σ _ (.error fault) _ :=
        hspec ▸ chart_realizes (source.aligned true).options hne hσ
      obtain ⟨τ', hrun', -⟩ : Realizes σ _ (.error fault) _ :=
        hspec' ▸ chart_realizes (source.aligned false).options hne hσ
      exact .inl ⟨fault, τ, τ', (hdraw true).trans hrun, (hdraw false).trans hrun'⟩
    | ok flows =>
      cases hspec' : outlinePieces (source.aligned false).options pieces with
      | error fault =>
        rw [(hfaults fault).2 hspec'] at hspec
        cases hspec
      | ok flows' =>
        obtain ⟨g₀, τ₀, τ₀', order₀, hrun₀, hshown₀⟩ := chartOf_shown _ hne sound_empty hspec
        obtain ⟨g, τ, τ', order, hrun, hshown⟩ := chartOf_shown _ hne hσ hspec
        obtain ⟨g', υ, υ', order', hrun', hshown'⟩ := chartOf_shown _ hne hσ hspec'
        -- both charts are copies of the aligned chart in the empty store
        have hsame := hshown₀.renumber hrun₀ hshown hrun
        have hallows : Allows (σ.offset false) (source.aligned true).options
            (source.aligned false).options :=
          ⟨rfl, .inr ⟨rfl, rfl⟩⟩
        have hseen := hshown₀.seen hallows hrun₀ hshown' hrun'
        rw [← hsame] at hseen
        obtain ⟨f, hportrays⟩ := hshown.portrays
        obtain ⟨f', hportrays'⟩ := hshown'.portrays
        have hnodes := congrArg Drawing.nodes hseen
        have hlines := congrArg Drawing.lines hseen
        simp only [Drawing.seen] at hnodes hlines
        rw [hportrays'.seen_nodes hproper hspec' rfl] at hnodes
        rw [hportrays'.seen_lines, hportrays.seen_lines] at hlines
        refine .inr ⟨pieces, flows, f, _, _, τ', υ', rfl, ?_, ?_, hnodes, hlines, hspec, hportrays,
          fun n hn => hportrays.place_of_node hn, fun v hv => ?_⟩
        · rw [hdraw, bind_ok hrun, hshown.drawn]
        · rw [hdraw, bind_ok hrun', hshown'.drawn]
        · have hparams := hportrays.params hproper hspec hv
          rw [show (source.aligned true).options.align = true from rfl, Bool.and_true, markedAt,
            ← Bool.and_assoc, ← Bool.and_assoc] at hparams
          exact hparams

theorem pieces_aligned (source : Source) (align : Bool) :
    (source.aligned align).pieces = source.pieces := rfl

/-- Two branches that follow each other, and two more inside a case. -/
def consecutiveBranches : Source where
  code := "if a:\n    b\n    c\nif d:\n    e\nmatch f:\n    case 1:\n        if g:\n" ++
    "            h\n            i\n        if j:\n            k\n"

/-- The chart of these branches, with the parameters of the first test. -/
def consecutiveText (params : String) : String :=
  "cond3" ++ params ++ "=>condition: if a\nop7=>operation: b\nop9=>operation: c\n" ++
    "cond15=>operation: e if  d\ncond28=>condition: if f match case 1\n" ++
    "cond33=>condition: if g\nop37=>operation: h\nop39=>operation: i\n" ++
    "cond45=>operation: k if  j\n\ncond3(yes)->op7\nop7->op9\nop9->cond15\ncond15->cond28\n" ++
    "cond28(yes)->cond33\ncond33(yes)->op37\nop37->op39\nop39->cond45\ncond33(no)->cond45\n" ++
    "cond3(no)->cond15\n"

/-- The first branch is marked; the one inside the case is not, though another one follows it. -/
theorem alignment_annotates_consecutive :
    ∃ pieces, ∃ (f : Spot → Named) (d d' : Drawing) (τ τ' : Store),
    consecutiveBranches.pieces = .ok pieces ∧
    (consecutiveBranches.aligned true).draw {} = .ok d.text τ ∧
    (consecutiveBranches.aligned false).draw {} = .ok d'.text τ' ∧
    d.text = consecutiveText "(align-next=no)" ∧ d'.text = consecutiveText "" ∧
    d'.nodes = d.nodes.map (fun n => { n with params := [] }) ∧ d'.lines = d.lines ∧
    (f ⟨[0], 0⟩).definition.params = [("align-next", "no")] ∧
    followedByBranch pieces [0, 0, 2] = true ∧ (f ⟨[0, 0, 2], 0⟩).definition.params = [] := by
  have hfound : (consecutiveBranches.aligned true).pieces.toOption.any (fun pieces =>
      ((outlinePieces (consecutiveBranches.aligned true).options pieces).toOption.any fun flows =>
        (entryOf (arrange (consecutiveBranches.aligned true).options flows)).any fun b =>
          b.shape.isNone) &&
      decide (entryOf (layoutPieces true 0 pieces) = some ⟨[0], 0⟩) &&
      decide (⟨[0, 0, 2], 0⟩ ∈ placesAll (layoutPieces true 0 pieces)) &&
      markedAt pieces [0] && insideCase pieces [0, 0, 2] && followedByBranch pieces [0, 0, 2] &&
      decide (chartedText (consecutiveBranches.aligned true).options pieces 30
        = some (consecutiveText "(align-next=no)")) &&
      decide (chartedText (consecutiveBranches.aligned false).options pieces 30
        = some (consecutiveText ""))) = true := by
    decide +kernel
  obtain ⟨pieces, hpieces, hfound⟩ := exists_ok_of_any hfound
  simp only [Bool.and_eq_true, decide_eq_true_eq] at hfound
  obtain ⟨⟨⟨⟨⟨⟨⟨hshape, hfirst⟩, hplace⟩, hmarked⟩, hinside⟩, hfollowed⟩, htext⟩, htext'⟩ := hfound
  obtain ⟨flows, hspec, hshape⟩ := exists_ok_of_any hshape
  have hdraw := draw_realizes hpieces sound_empty
  rw [hspec] at hdraw
  obtain ⟨text, υ, hdraw, -⟩ := hdraw
  rcases alignment_annotates consecutiveBranches {} sound_empty with ⟨fault, τ, τ', hfault, -⟩ |
    ⟨pieces', flows', f, d, d', τ, τ', hpieces', hrun, hrun', hnodes, hlines, hspec',
      hportrays, -, hparams⟩
  · cases hdraw.symm.trans hfault
  · cases hpieces.symm.trans hpieces'
    cases hspec.symm.trans hspec'
    have hentry : entryOf (arrange (consecutiveBranches.aligned true).options flows)
        = some (f ⟨[0], 0⟩).box := by
      rw [← hportrays.boxes, entryOf_mapAll]
      exact congrArg _ hfirst
    rw [hentry, Option.any_some, Option.isNone_iff_eq_none] at hshape
    obtain ⟨_, htext⟩ := draw_of_chartedText hpieces htext
    obtain ⟨_, htext'⟩ :=
      draw_of_chartedText ((pieces_aligned consecutiveBranches false).trans hpieces) htext'
    refine ⟨pieces, f, d, d', τ, τ', hpieces, hrun, hrun', value_unique hrun htext,
      value_unique hrun' htext', hnodes, hlines, ?_, hfollowed, ?_⟩
    · have hword : (f ⟨[0], 0⟩).definition.word = "condition" := word_eq_condition.2 hshape
      unfold markedAt at hmarked
      rw [hparams _ (entryOf_mem_placesAll hfirst), decide_eq_true hword, Bool.true_and, hmarked]
      rfl
    · rw [hparams _ hplace, hinside, Bool.not_true, Bool.and_false, Bool.false_and]
      rfl

end CodeChart.Chart
