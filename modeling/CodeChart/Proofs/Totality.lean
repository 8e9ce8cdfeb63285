import Mathlib.Tactic.Common
import CodeChart.Proofs.Charts
import CodeChart.Proofs.Programs
import CodeChart.Proofs.Splitting

/-! Every program has a chart. The chart of proper code is drawn without a fault, a message or a
warning, unless some part of the code has no text. -/
namespace CodeChart.Code

/-- The piece `p` stands at the end of some path from `root`. -/
def Piece.Reaches (root p : Piece) : Prop :=
  ∃ path, (Part.piece root).follow path = .ok (.piece p)

theorem Part.follow_append {p q : Part} {path : List PathStep} (h : p.follow path = .ok q)
    (more : List PathStep) : p.follow (path ++ more) = q.follow more := by
  fun_induction Part.follow p path with
  | case1 p =>
    cases h
    rfl
  | case2 p a rest part hpart ih =>
    rw [List.cons_append, Part.follow, hpart]
    exact ih h
  | case3 => cases h
  | case4 ps i rest p hp ih =>
    rw [List.cons_append, Part.follow, hp]
    exact ih h
  | case5 => cases h
  | case6 => cases h
  | case7 => cases h

namespace Piece.Reaches

variable {root p q : Piece}

theorem refl (p : Piece) : p.Reaches p := ⟨[], rfl⟩

theorem trans (h : root.Reaches p) (h' : p.Reaches q) : root.Reaches q := by
  obtain ⟨path, hpath⟩ := h
  obtain ⟨more, hmore⟩ := h'
  exact ⟨path ++ more, (Part.follow_append hpath more).trans hmore⟩

theorem of_part (name : String) (h : root.part? name = some (.piece p)) : root.Reaches p := by
  refine ⟨[.named name], ?_⟩
  rw [Part.follow, h]
  rfl

theorem of_mem (name : String) {ps : List Piece} (h : root.part? name = some (.pieces ps))
    (hp : p ∈ ps) :
    root.Reaches p := by
  obtain ⟨i, hi, rfl⟩ := List.mem_iff_getElem.1 hp
  have hplace : placeIn ps.length (i : Int) = some i := by
    have hnonneg : ¬ (i : Int) < 0 := by omega
    simp [placeIn, hnonneg, hi]
  refine ⟨[.named name, .at i], ?_⟩
  rw [Part.follow, h]
  change Part.follow (.pieces ps) [.at i] = _
  rw [Part.follow, hplace, Option.bind_some, List.getElem?_eq_getElem hi]
  rfl

theorem of_body (name : String) {ss : List Stmt}
    (h : root.part? name = some (.pieces (ss.map .stmt))) :
    ∀ s ∈ ss, root.Reaches (.stmt s) :=
  fun _ hs => of_mem name h (List.mem_map_of_mem hs)

end Piece.Reaches

variable {α β : Type}

/-- Every fault is that of writing some part of the piece, which has no text. -/
def FaultsOf (root : Piece) (x : Except Fault α) : Prop :=
  ∀ fault, x = .error fault →
    fault.isUnwritable = true ∧ ∃ p, root.Reaches p ∧ p.print = .error fault

namespace FaultsOf

variable {root p : Piece} {x : Except Fault α}

theorem pure (a : α) : FaultsOf root (Pure.pure a : Except Fault α) := by
  rintro fault ⟨⟩

theorem bind_ok {k : α → Except Fault β} (h : FaultsOf root x)
    (hk : ∀ a, x = .ok a → FaultsOf root (k a)) : FaultsOf root (x >>= k) := by
  cases x with
  | error fault' =>
    rintro fault ⟨⟩
    exact h _ rfl
  | ok a => exact hk a rfl

theorem bind {k : α → Except Fault β} (h : FaultsOf root x) (hk : ∀ a, FaultsOf root (k a)) :
    FaultsOf root (x >>= k) := h.bind_ok fun a _ => hk a

theorem map (h : FaultsOf root x) (f : α → β) : FaultsOf root (f <$> x) := by
  rw [← bind_pure_comp]
  exact h.bind fun a => pure (f a)

theorem text (hr : root.Reaches p) (hp : Writes p.print) : FaultsOf root p.text := by
  intro fault hfault
  cases hprint : p.print with
  | error fault' =>
    rw [Piece.text, hprint] at hfault
    cases hfault
    exact ⟨hp _ hprint, p, hr, hprint⟩
  | ok t =>
    rw [Piece.text, hprint] at hfault
    cases hfault

end FaultsOf

end CodeChart.Code

namespace CodeChart.Chart

open CodeChart.Graph Code

variable {root : Piece} {options : Options}

theorem valueBox_faults {code : Piece} (h : FaultsOf root code.text) (e : Expr) :
    FaultsOf root (valueBox code e) := by
  obtain ⟨shape, -, wording, heq⟩ := valueBox_eq code e
  rw [heq]
  exact h.map _

theorem caseText_faults {subject : Expr} (hs : subject.Writable)
    (hsubject : root.Reaches (.expr subject)) {pattern : Pattern} {guard : Option Expr}
    {body : List Stmt} (hc : (Case.mk pattern guard body).Whole)
    (hcase : root.Reaches (.case (.mk pattern guard body))) :
    FaultsOf root (caseText (.expr subject) (.case (.mk pattern guard body))) := by
  have hpattern : root.Reaches (.pattern pattern) := hcase.trans (.of_part "pattern" rfl)
  refine (FaultsOf.text hsubject (hs false _)).bind fun _ => ?_
  refine (FaultsOf.text hpattern (hc.1 _)).bind fun _ => ?_
  cases guard with
  | none => exact .pure _
  | some e =>
    have hguard : root.Reaches (.expr e) := hcase.trans (.of_part "guard" rfl)
    exact (FaultsOf.text hguard (hc.2.1 e rfl false _)).bind fun _ => .pure _

theorem outlineCases_ne_nil {subject : Piece} {cs : List Case} {ts : List (Flow Box)}
    (hne : cs ≠ []) (h : outlineCases subject cs = .ok ts) : ts ≠ [] := by
  obtain ⟨c, rest, rfl⟩ := List.exists_cons_of_ne_nil hne
  obtain ⟨t, us, -, -, rfl⟩ := bind₂_eq_ok.1 h
  exact List.cons_ne_nil t us

mutual

theorem outline_faults (options : Options) (s : Stmt) (h : s.Filled) (hw : s.Whole)
    (hr : root.Reaches (.stmt s)) : FaultsOf root (outline options (.stmt s) [] s) := by
  have htext : FaultsOf root (Piece.stmt s).text := .text hr (writes_stmt 0 s hw)
  have hheader : FaultsOf root (Piece.stmt s).header := htext.map _
  cases s with
  | function isAsync line name params body decorators result =>
    cases isAsync with
    | true => exact (htext.map _).map _
    | false =>
      cases params with
      | lacking part of => exact hw.1.elim
      | mk positional ordinary rest keywordOnly keywordRest =>
        have hbody := fun s hs => hr.trans (Piece.Reaches.of_body "body" rfl s hs)
        exact (outlines_faults options body h.2 hw.2.1 hbody).bind fun _ => .pure _
  | forEach isAsync target source body orelse =>
    cases isAsync with
    | true => exact (htext.map _).map _
    | false =>
      have hbody := fun s hs => hr.trans (Piece.Reaches.of_body "body" rfl s hs)
      exact hheader.bind fun _ => (outlines_faults options body h.2.1 hw.2.2.1 hbody).bind fun _ =>
        .pure _
  | whileTrue test body orelse =>
    have hbody := fun s hs => hr.trans (Piece.Reaches.of_body "body" rfl s hs)
    exact hheader.bind fun _ => (outlines_faults options body h.2.1 hw.2.1 hbody).bind fun _ =>
      .pure _
  | branch test body orelse =>
    have hbody := fun s hs => hr.trans (Piece.Reaches.of_body "body" rfl s hs)
    have horelse := fun s hs => hr.trans (Piece.Reaches.of_body "orelse" rfl s hs)
    exact hheader.bind fun _ => (outlines_faults options body h.2.1 hw.2.1 hbody).bind fun _ =>
      (outlines_faults options orelse h.2.2 hw.2.2 horelse).bind fun _ => .pure _
  | giveBack value =>
    cases value with
    | none => exact .pure _
    | some e => exact htext.bind fun _ => .pure _
  | select subject cases =>
    have hsubject : root.Reaches (.expr subject) := hr.trans (.of_part "subject" rfl)
    have hcases : ∀ c ∈ cases, root.Reaches (.case c) :=
      fun c hc => hr.trans (.of_mem "cases" rfl (List.mem_map_of_mem hc))
    refine FaultsOf.bind_ok (outlineCases_faults hw.1 hsubject cases h.2 hw.2 hcases) fun ts hts =>
      ?_
    obtain ⟨first, rest, rfl⟩ := List.exists_cons_of_ne_nil (outlineCases_ne_nil h.1 hts)
    exact .pure _
  | stop => exact htext.map _
  | next => exact htext.map _
  | expr value => exact (valueBox_faults htext value).map _
  | lacking part s => exact hw.elim
  | _ => exact (htext.map _).map _

theorem outlines_faults (options : Options) (ss : List Stmt) (h : FilledAll ss) (hw : WholeAll ss)
    (hr : ∀ s ∈ ss, root.Reaches (.stmt s)) : FaultsOf root (outlines options ss) := by
  cases ss with
  | nil => exact .pure _
  | cons s rest =>
    obtain ⟨hs, hrest⟩ := List.forall_mem_cons.1 hr
    exact (outline_faults options s h.1 hw.1 hs).bind fun _ =>
      (outlines_faults options rest h.2 hw.2 hrest).bind fun _ => .pure _

theorem outlineCase_faults {subject : Expr} (hs : subject.Writable)
    (hsubject : root.Reaches (.expr subject)) (c : Case) (h : c.Filled) (hw : c.Whole)
    (hr : root.Reaches (.case c)) :
    FaultsOf root (outlineCase (.expr subject) (.case c) [] c) := by
  cases c with
  | mk pattern guard body =>
    have hbody := fun s hs => hr.trans (Piece.Reaches.of_body "body" rfl s hs)
    exact (caseText_faults hs hsubject hw hr).bind fun _ =>
      (outlines_faults {} body h.2 hw.2.2 hbody).bind fun _ => .pure _
  | lacking part of => exact hw.elim

theorem outlineCases_faults {subject : Expr} (hs : subject.Writable)
    (hsubject : root.Reaches (.expr subject)) (cs : List Case) (h : FilledCases cs)
    (hw : WholeCases cs) (hr : ∀ c ∈ cs, root.Reaches (.case c)) :
    FaultsOf root (outlineCases (.expr subject) cs) := by
  cases cs with
  | nil => exact .pure _
  | cons c rest =>
    obtain ⟨hc, hrest⟩ := List.forall_mem_cons.1 hr
    exact (outlineCase_faults hs hsubject c h.1 hw.1 hc).bind fun _ =>
      (outlineCases_faults hs hsubject rest h.2 hw.2 hrest).bind fun _ => .pure _

end

theorem outlinePiece_faults (options : Options) {p : Piece} (h : p.Proper) (hr : root.Reaches p) :
    FaultsOf root (outlinePiece options p) := by
  cases p with
  | module m => exact ((FaultsOf.text hr (writes_body 0 m.body h.2)).map _).map _
  | stmt s => exact outline_faults options s h.filled h.whole hr
  | _ => exact h.elim

theorem outlinePieces_faults (options : Options) {pieces : List Piece} (h : ∀ p ∈ pieces, p.Proper)
    (hr : ∀ p ∈ pieces, root.Reaches p) : FaultsOf root (outlinePieces options pieces) := by
  induction pieces with
  | nil => exact .pure _
  | cons p rest ih =>
    obtain ⟨hp, hrest⟩ := List.forall_mem_cons.1 h
    obtain ⟨hroot, hroots⟩ := List.forall_mem_cons.1 hr
    exact (outlinePiece_faults options hp hroot).bind fun _ => (ih hrest hroots).bind fun _ =>
      .pure _

theorem place_reaches {place : Place} (s : Stmt) (hs : s ∈ place.body) :
    place.piece.Reaches (.stmt s) := by
  cases place with
  | module m => exact .of_body "body" rfl s hs
  | definition d =>
    cases d with
    | function => exact .of_body "body" rfl s hs
    | classDef => exact .of_body "body" rfl s hs
    | _ => cases hs

/-- A place that is found with a body, and so each of its statements, stands in the module. -/
theorem lookup_reaches {m : Module} (field : String) (hne : (m.lookup field).place.body ≠ []) :
    (Piece.module m).Reaches (m.lookup field).place.piece := by
  refine lookup_induction (P := fun place => (Piece.module m).Reaches place.piece)
    (.refl _) ?_ field hne
  intro place s hplace hs
  exact hplace.trans (place_reaches s hs)

theorem fieldPieces_reaches {m : Module} {field : String} (hne : (m.lookup field).place.body ≠ [])
    (inner : Bool) :
    ∃ pieces, fieldPieces m field inner = .ok pieces ∧
      ∀ p ∈ pieces, (Piece.module m).Reaches p := by
  refine ⟨_, if_neg (by simpa using hne), ?_⟩
  intro p hp
  cases inner with
  | true =>
    obtain ⟨s, hs, rfl⟩ := List.mem_map.1 hp
    exact (lookup_reaches field hne).trans (place_reaches s hs)
  | false =>
    obtain rfl := List.mem_singleton.1 hp
    exact lookup_reaches field hne

theorem draw_of_pieces {source : Source} {pieces : List Piece} (h : source.pieces = .ok pieces)
    (σ : Store) : source.draw σ = (chartOf source.options pieces >>= chartText) σ := by
  unfold Source.draw Source.chart
  rw [h]
  rfl

/-- The chart of a program shows the layout of the program with the boxes of its outline. -/
theorem draw_realizes {source : Source} {pieces : List Piece} (h : source.pieces = .ok pieces)
    {σ : Store} (hσ : σ.Sound) :
    Realizes σ source.draw (outlinePieces source.options pieces) fun text _ flows => ∃ f d,
      text = d.text ∧
      Portrays (layoutPieces source.options.simplify 0 pieces) (arrange source.options flows) f
        d := by
  have hchart := chart_realizes source.options (pieces_proper h).1 hσ
  unfold Realizes at hchart ⊢
  rw [draw_of_pieces h]
  refine Realizes.mono hchart fun text τ flows _ hpost => ?_
  obtain ⟨f, d, htext, hportrays, -⟩ := hpost
  exact ⟨f, d, htext, hportrays⟩

/-- The chart of a program is drawn in silence. It fails only where some part of the code has no
text, with the fault of that part. -/
theorem draw_total (source : Source) (m : Module) (hparse : Module.parse source.code = .ok m)
    (hbody : (m.lookup source.field).place.body ≠ []) (σ : Store) (hσ : σ.Sound) :
    (∃ text τ, source.draw σ = .ok text τ ∧ Silent σ τ) ∨
      ∃ fault τ, source.draw σ = .error fault τ ∧ Silent σ τ ∧ fault.isUnwritable = true ∧
        ∃ p, (Piece.module m).Reaches p ∧ p.print = .error fault := by
  obtain ⟨pieces, hfield, hreaches⟩ := fieldPieces_reaches hbody source.inner
  have hpieces : source.pieces = .ok pieces := by
    unfold Source.pieces
    rw [hparse]
    exact hfield
  obtain ⟨hne, hproper⟩ := fieldPieces_proper (parse_proper hparse) hfield
  have hchart := chart_realizes source.options hne hσ
  rw [draw_of_pieces hpieces]
  cases hspec : outlinePieces source.options pieces with
  | ok flows =>
    rw [hspec] at hchart
    obtain ⟨text, τ, hrun, f, d, -, -, hsilent⟩ := hchart
    exact .inl ⟨text, τ, hrun, hsilent⟩
  | error fault =>
    rw [hspec] at hchart
    obtain ⟨τ, hrun, hsilent⟩ := hchart
    obtain ⟨hfault, hp⟩ := outlinePieces_faults source.options hproper hreaches fault hspec
    exact .inr ⟨fault, τ, hrun, hsilent, hfault, hp⟩

/-- A method with a selection and a formatted string, drawn as a whole. -/
def method : Source where
  code := "class C:\n    def f(self, x):\n        match x:\n            case [y, *_] if y:\n" ++
    "                return f'\x7by!r:>3\x7d'\n            case _:\n                pass\n"
  field := "C.f"
  inner := false

theorem draw_total_method : ∃ m, Module.parse method.code = .ok m ∧
    (m.lookup method.field).place.body ≠ [] ∧
    ((∃ text τ, method.draw {} = .ok text τ ∧ Silent {} τ) ∨
      ∃ fault τ, method.draw {} = .error fault τ ∧ Silent {} τ ∧ fault.isUnwritable = true ∧
        ∃ p, (Piece.module m).Reaches p ∧ p.print = .error fault) := by
  have hfound : (match Module.parse method.code with
      | .ok m =>
        let place := ((Place.module m).descend ["C", "f"]).2
        (place.name? == some "f") && !place.body.isEmpty
      | .error _ => false) = true := by decide +kernel
  cases hparse : Module.parse method.code with
  | error fault =>
    rw [hparse] at hfound
    cases hfound
  | ok m =>
    rw [hparse] at hfound
    simp only [Bool.and_eq_true, beq_iff_eq, Bool.not_eq_true', List.isEmpty_eq_false_iff] at hfound
    obtain ⟨hname, hbody⟩ := hfound
    have hsplit : method.field.splitOn "." = ["C", "f"] :=
      (Text.splitOn_singleton method.field '.').trans (by decide +kernel)
    have hne : (m.lookup method.field).place.body ≠ [] := by
      rw [Module.lookup, if_neg (by decide), hsplit]
      dsimp only
      rw [if_pos (by simp [hname])]
      exact hbody
    exact ⟨m, rfl, hne, draw_total method m hparse hne {} sound_empty⟩

end CodeChart.Chart
