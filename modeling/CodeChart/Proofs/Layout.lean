import CodeChart.Proofs.Outline
import CodeChart.Proofs.Relabel

/-! Where statements stand. A spot names a statement by its path in the code and one of its boxes by
a number. The layout of code is the shape of its outline with a spot in every place; it depends on
the code alone, and no spot comes twice. -/
namespace CodeChart.Chart

open CodeChart.Graph Code

/-- A box of a statement. The path leads from the statement outwards: the index in its suite, the
suite, and the path of the statement around it. -/
structure Spot where
  path : List Nat
  part : Nat
  deriving DecidableEq, Repr

namespace Flow

variable {V W : Type}

/-- A loop, as one box if it is simplified and its body is one step. -/
def ofLoop (simplify : Bool) (test : V) (body : List (Flow V)) : Flow V :=
  match simplify, body with
  | true, [.step _] => .merged false test
  | _, _ => .loop test body

/-- A branch, as one box if it is simplified, has no alternative, and its body is one step or begins
with a jump. -/
def ofBranch (simplify : Bool) (test : V) (body orelse : List (Flow V)) : Flow V :=
  match simplify, body, orelse with
  | true, [.step _], [] => .merged true test
  | true, .jump _ :: _, [] => .merged true test
  | _, _, _ => .branch test body orelse

def ofCases (empty : V) : List (Flow V) → Flow V
  | [] => .step empty
  | first :: rest => .select first rest

end Flow

/-- The body of a loop: an empty one is drawn as a step of the loop itself. -/
def orIdleAt (idle : Spot) : List (Flow Spot) → List (Flow Spot)
  | [] => [.step idle]
  | ts => ts

mutual

def layout (simplify : Bool) (path : List Nat) : Stmt → Flow Spot
  | .function false _ _ _ body _ _ =>
    .routine ⟨path, 0⟩ ⟨path, 1⟩ (layouts simplify (0 :: path) 0 body) ⟨path, 2⟩
  | .forEach false _ _ body _ =>
    .ofLoop simplify ⟨path, 0⟩ (orIdleAt ⟨path, 1⟩ (layouts simplify (0 :: path) 0 body))
  | .whileTrue _ body _ =>
    .ofLoop simplify ⟨path, 0⟩ (orIdleAt ⟨path, 1⟩ (layouts simplify (0 :: path) 0 body))
  | .branch _ body orelse =>
    .ofBranch simplify ⟨path, 0⟩ (layouts simplify (0 :: path) 0 body)
      (layouts simplify (1 :: path) 0 orelse)
  | .giveBack none => .halt none ⟨path, 1⟩
  | .giveBack (some _) => .halt (some ⟨path, 0⟩) ⟨path, 1⟩
  | .select _ cases => .ofCases ⟨path, 0⟩ (layoutCases path 0 cases)
  | .stop => .jump ⟨path, 0⟩
  | .next => .jump ⟨path, 0⟩
  | .lacking _ s => layout simplify path s
  | _ => .step ⟨path, 0⟩

/-- The layouts of the statements of a suite from an index on. -/
def layouts (simplify : Bool) (path : List Nat) (i : Nat) : List Stmt → List (Flow Spot)
  | [] => []
  | s :: rest => layout simplify (i :: path) s :: layouts simplify path (i + 1) rest

/-- The layout of a case; its body is always simplified. -/
def layoutCase (path : List Nat) (i : Nat) : Case → Flow Spot
  | .mk _ _ body => .case ⟨path, i⟩ (layouts true (i :: path) 0 body)
  | .lacking _ c => layoutCase path i c

def layoutCases (path : List Nat) (i : Nat) : List Case → List (Flow Spot)
  | [] => []
  | c :: rest => layoutCase path i c :: layoutCases path (i + 1) rest

end

def layoutPiece (simplify : Bool) (path : List Nat) : Piece → Flow Spot
  | .stmt s => layout simplify path s
  | _ => .step ⟨path, 0⟩

/-- The layout of a list of pieces from an index on. -/
def layoutPieces (simplify : Bool) (i : Nat) : List Piece → List (Flow Spot)
  | [] => []
  | p :: rest => layoutPiece simplify [i] p :: layoutPieces simplify (i + 1) rest

namespace Flow

variable {V W : Type}

theorem map_ofLoop (f : V → W) (simplify : Bool) (test : V) (body : List (Flow V)) :
    (ofLoop simplify test body).map f = ofLoop simplify (f test) (mapAll f body) := by
  rcases simplify with _ | _
  · rfl
  · rcases body with _ | ⟨t, _ | ⟨u, rest⟩⟩
    · rfl
    · cases t <;> rfl
    · cases t <;> rfl

theorem map_ofBranch (f : V → W) (simplify : Bool) (test : V) (body orelse : List (Flow V)) :
    (ofBranch simplify test body orelse).map f
      = ofBranch simplify (f test) (mapAll f body) (mapAll f orelse) := by
  rcases simplify with _ | _
  · rfl
  · rcases body with _ | ⟨t, _ | ⟨u, rest⟩⟩ <;> rcases orelse with _ | ⟨o, orelse⟩ <;>
      first | rfl | (cases t <;> rfl)

theorem shape_align (t : Flow Box) : t.align.shape = t.shape := by
  cases t <;> rfl

theorem shapeAll_alignAll (ts : List (Flow Box)) : shapeAll (alignAll ts) = shapeAll ts := by
  fun_induction alignAll ts with
  | case1 t u rest ih =>
    simp only [shapeAll, mapAll] at ih ⊢
    rw [ih]
    split
    · rw [show t.align.map (fun _ => ()) = t.map fun _ => () from shape_align t]
    · rfl
  | case2 ts _ => rfl

end Flow

open CodeChart.Chart.Flow

theorem shapeAll_arrange (options : Options) (ts : List (Flow Box)) :
    shapeAll (arrange options ts) = shapeAll ts := by
  unfold arrange
  split
  · exact shapeAll_alignAll ts
  · rfl

theorem shape_loopFlow (options : Options) (test : Box) (body : List (Flow Box)) :
    (loopFlow options test body).shape = ofLoop options.simplify () (shapeAll body) := by
  unfold loopFlow
  cases options.simplify with
  | false => rfl
  | true =>
    rcases body with _ | ⟨t, _ | ⟨u, rest⟩⟩
    · rfl
    · cases t <;> rfl
    · cases t <;> rfl

theorem shape_branchFlow (options : Options) (test : Box) (body orelse : List (Flow Box)) :
    (branchFlow options test body orelse).shape
      = ofBranch options.simplify () (shapeAll body) (shapeAll orelse) := by
  unfold branchFlow
  cases options.simplify with
  | false => rfl
  | true =>
    rcases body with _ | ⟨t, _ | ⟨u, rest⟩⟩ <;> rcases orelse with _ | ⟨o, orelse⟩ <;>
      first | rfl | (cases t <;> rfl)

theorem shapeAll_orIdle {body : List (Flow Box)} {us : List (Flow Spot)} (idle : Spot)
    (h : shapeAll body = shapeAll us) : shapeAll (orIdle body) = shapeAll (orIdleAt idle us) := by
  rcases body with _ | ⟨t, rest⟩ <;> rcases us with _ | ⟨u, us⟩
  · rfl
  · cases h
  · cases h
  · exact h

theorem shape_select (empty : Spot) {first : Flow Box} {rest : List (Flow Box)}
    {us : List (Flow Spot)} (h : shapeAll (first :: rest) = shapeAll us) :
    (Flow.select first rest).shape = (Flow.ofCases empty us).shape := by
  rcases us with _ | ⟨u, us⟩
  · cases h
  · injection h with hfirst hrest
    exact congrArg₂ Flow.select hfirst hrest

theorem bind_eq_ok {α β : Type} {x : Except Fault α} {f : α → Except Fault β} {b : β} :
    x >>= f = .ok b ↔ ∃ a, x = .ok a ∧ f a = .ok b := by
  cases x with
  | error e =>
    constructor
    · intro h
      cases h
    · rintro ⟨a, h, -⟩
      cases h
  | ok a => exact ⟨fun h => ⟨a, rfl, h⟩, by rintro ⟨_, ⟨⟩, h⟩; exact h⟩

theorem bind₂_eq_ok {α β γ : Type} {x : Except Fault α} {y : Except Fault β}
    {f : α → β → γ} {c : γ} :
    (do let a ← x; let b ← y; return f a b) = .ok c ↔ ∃ a b, x = .ok a ∧ y = .ok b ∧ f a b = c := by
  constructor
  · intro h
    obtain ⟨a, ha, h⟩ := bind_eq_ok.1 h
    obtain ⟨b, hb, h⟩ := bind_eq_ok.1 h
    cases h
    exact ⟨a, b, ha, hb, rfl⟩
  · rintro ⟨a, b, rfl, rfl, rfl⟩
    rfl

theorem map_eq_ok {α β : Type} {x : Except Fault α} {f : α → β} {b : β} :
    f <$> x = .ok b ↔ ∃ a, x = .ok a ∧ f a = b := by
  cases x with
  | error e =>
    constructor
    · intro h
      cases h
    · rintro ⟨a, h, -⟩
      cases h
  | ok a =>
    constructor
    · intro h
      cases h
      exact ⟨a, rfl, rfl⟩
    · rintro ⟨_, ⟨⟩, rfl⟩
      rfl

theorem exists_ok_of_any {α : Type} {x : Except Fault α} {p : α → Bool}
    (h : x.toOption.any p = true) :
    ∃ a, x = .ok a ∧ p a = true := by
  cases x with
  | error f => cases h
  | ok a => exact ⟨a, rfl, h⟩

theorem valueBox_params {code : Piece} {e : Expr} {b : Box} (h : valueBox code e = .ok b) :
    b.params = [] := by
  obtain ⟨shape, -, wording, heq⟩ := valueBox_eq code e
  rw [heq] at h
  obtain ⟨text, -, rfl⟩ := map_eq_ok.1 h
  rfl

theorem statementBox_params {code : Piece} {b : Box} (h : statementBox code = .ok b) :
    b.params = [] := by
  obtain ⟨text, -, rfl⟩ := map_eq_ok.1 h
  rfl

theorem ite_throw_eq_ok {α β : Type} {c : Bool} {fault : Fault} {f : α → Except Fault β}
    {x : Except Fault β} {b : β} :
    (if c then throw fault >>= f else x) = .ok b ↔ c = false ∧ x = .ok b := by
  cases c with
  | true => exact ⟨fun h => (nomatch h), fun h => (nomatch h.1)⟩
  | false => exact ⟨fun h => ⟨rfl, h⟩, fun h => h.2⟩

section

variable {options : Options} {code : Piece} {missing : List String} {t : Flow Box}

theorem outline_function_ok {line : Nat} {name : String} {params : Params} {body : List Stmt}
    {decorators : List Expr} {result : Option Expr}
    (h : outline options code missing (.function false line name params body decorators result)
      = .ok t) :
    ∃ name input ts, outlines options body = .ok ts ∧
      t = .routine ⟨some .functionStart, "start " ++ name, []⟩
        ⟨some .functionInput, "input: " ++ input, []⟩ (arrange options ts)
        ⟨some .functionEnd, "end " ++ name, []⟩ := by
  rw [outline] at h
  obtain ⟨name, -, h⟩ := bind_eq_ok.1 h
  obtain ⟨input, -, h⟩ := bind_eq_ok.1 h
  obtain ⟨-, h⟩ := ite_throw_eq_ok.1 h
  obtain ⟨ts, hts, h⟩ := bind_eq_ok.1 h
  cases h
  exact ⟨name, input, ts, hts, rfl⟩

theorem outline_branch_ok {test : Expr} {body orelse : List Stmt}
    (h : outline options code missing (.branch test body orelse) = .ok t) :
    ∃ header ts us, code.header = .ok header ∧ outlines options body = .ok ts ∧
      outlines options orelse = .ok us ∧
      t = branchFlow options ⟨none, header, []⟩ (arrange options ts) (arrange options us) := by
  rw [outline] at h
  obtain ⟨header, hheader, h⟩ := bind_eq_ok.1 h
  obtain ⟨ts, us, hts, hus, rfl⟩ := bind₂_eq_ok.1 h
  exact ⟨header, ts, us, hheader, hts, hus, rfl⟩

theorem outline_select_ok {subject : Expr} {cases : List Case}
    (h : outline options code missing (.select subject cases) = .ok t) :
    ∃ first rest, outlineCases (.expr subject) cases = .ok (first :: rest) ∧
      t = .select first rest := by
  rw [outline] at h
  obtain ⟨-, h⟩ := ite_throw_eq_ok.1 h
  obtain ⟨-, h⟩ := ite_throw_eq_ok.1 h
  obtain ⟨ts, hts, h⟩ := bind_eq_ok.1 h
  rcases ts with _ | ⟨first, rest⟩
  · cases h
  · cases h
    exact ⟨first, rest, hts, rfl⟩

theorem outlineCase_ok {subject : Piece} {pattern : Pattern} {guard : Option Expr}
    {body : List Stmt} (h : outlineCase subject code missing (.mk pattern guard body) = .ok t) :
    ∃ test ts, outlines {} body = .ok ts ∧ t = .case ⟨none, test, []⟩ ts := by
  rw [outlineCase] at h
  obtain ⟨test, -, h⟩ := bind_eq_ok.1 h
  obtain ⟨-, h⟩ := ite_throw_eq_ok.1 h
  obtain ⟨ts, hts, h⟩ := bind_eq_ok.1 h
  cases h
  exact ⟨test, ts, hts, rfl⟩

end

mutual

theorem shape_outline {options : Options} {code : Piece} {missing : List String} {s : Stmt}
    {t : Flow Box} (path : List Nat) (h : outline options code missing s = .ok t) :
    t.shape = (layout options.simplify path s).shape := by
  cases s with
  | function isAsync line name params body decorators result =>
    cases isAsync with
    | true =>
      obtain ⟨b, -, rfl⟩ := map_eq_ok.1 h
      rfl
    | false =>
      obtain ⟨name, input, ts, hts, rfl⟩ := outline_function_ok h
      have hbody := shape_outlines (0 :: path) 0 hts
      rw [← shapeAll_arrange options] at hbody
      exact congrArg (Flow.routine () () · ()) hbody
  | forEach isAsync target source body orelse =>
    cases isAsync with
    | true =>
      obtain ⟨b, -, rfl⟩ := map_eq_ok.1 h
      rfl
    | false =>
      obtain ⟨test, ts, -, hts, rfl⟩ := bind₂_eq_ok.1 h
      have hbody := shape_outlines (0 :: path) 0 hts
      rw [← shapeAll_arrange options] at hbody
      rw [shape_loopFlow, layout, shape, map_ofLoop, shapeAll_orIdle ⟨path, 1⟩ hbody]
      rfl
  | whileTrue test body orelse =>
    obtain ⟨test, ts, -, hts, rfl⟩ := bind₂_eq_ok.1 h
    have hbody := shape_outlines (0 :: path) 0 hts
    rw [← shapeAll_arrange options] at hbody
    rw [shape_loopFlow, layout, shape, map_ofLoop, shapeAll_orIdle ⟨path, 1⟩ hbody]
    rfl
  | branch test body orelse =>
    obtain ⟨test, ts, us, -, hts, hus, rfl⟩ := outline_branch_ok h
    have hbody := shape_outlines (0 :: path) 0 hts
    have horelse := shape_outlines (1 :: path) 0 hus
    rw [← shapeAll_arrange options] at hbody horelse
    rw [shape_branchFlow, layout, shape, map_ofBranch, hbody, horelse]
    rfl
  | giveBack value =>
    cases value with
    | none =>
      cases h
      rfl
    | some e =>
      obtain ⟨text, -, rfl⟩ := map_eq_ok.1 h
      rfl
  | select subject cases =>
    obtain ⟨first, rest, hts, rfl⟩ := outline_select_ok h
    exact shape_select _ (shape_outlineCases path 0 hts)
  | stop =>
    obtain ⟨text, -, rfl⟩ := map_eq_ok.1 h
    rfl
  | next =>
    obtain ⟨text, -, rfl⟩ := map_eq_ok.1 h
    rfl
  | lacking part s => exact shape_outline path (s := s) h
  | _ =>
    obtain ⟨b, -, rfl⟩ := map_eq_ok.1 h
    rfl

theorem shape_outlines {options : Options} {ss : List Stmt} {ts : List (Flow Box)}
    (path : List Nat) (i : Nat) (h : outlines options ss = .ok ts) :
    shapeAll ts = shapeAll (layouts options.simplify path i ss) := by
  cases ss with
  | nil =>
    cases h
    rfl
  | cons s rest =>
    obtain ⟨t, us, ht, hus, rfl⟩ := bind₂_eq_ok.1 h
    exact congrArg₂ List.cons (shape_outline (i :: path) ht) (shape_outlines path (i + 1) hus)

theorem shape_outlineCase {subject code : Piece} {missing : List String} {c : Case} {t : Flow Box}
    (path : List Nat) (i : Nat) (h : outlineCase subject code missing c = .ok t) :
    t.shape = (layoutCase path i c).shape := by
  cases c with
  | mk pattern guard body =>
    obtain ⟨test, ts, hts, rfl⟩ := outlineCase_ok h
    exact congrArg (Flow.case ()) (shape_outlines (i :: path) 0 hts)
  | lacking part c => exact shape_outlineCase path i (c := c) h

theorem shape_outlineCases {subject : Piece} {cs : List Case} {ts : List (Flow Box)}
    (path : List Nat) (i : Nat) (h : outlineCases subject cs = .ok ts) :
    shapeAll ts = shapeAll (layoutCases path i cs) := by
  cases cs with
  | nil =>
    cases h
    rfl
  | cons c rest =>
    obtain ⟨t, us, ht, hus, rfl⟩ := bind₂_eq_ok.1 h
    exact congrArg₂ List.cons (shape_outlineCase path i ht) (shape_outlineCases path (i + 1) hus)

end

theorem shape_outlinePiece {options : Options} {piece : Piece} {t : Flow Box} (path : List Nat)
    (h : outlinePiece options piece = .ok t) :
    t.shape = (layoutPiece options.simplify path piece).shape := by
  cases piece with
  | stmt s => exact shape_outline path h
  | _ =>
    obtain ⟨b, -, rfl⟩ := map_eq_ok.1 h
    rfl

theorem shape_outlinePieces {options : Options} {pieces : List Piece} {ts : List (Flow Box)}
    (i : Nat) (h : outlinePieces options pieces = .ok ts) :
    shapeAll ts = shapeAll (layoutPieces options.simplify i pieces) := by
  induction pieces generalizing ts i with
  | nil =>
    cases h
    rfl
  | cons p rest ih =>
    obtain ⟨t, us, ht, hus, rfl⟩ := bind₂_eq_ok.1 h
    exact congrArg₂ List.cons (shape_outlinePiece [i] ht) (ih (i + 1) hus)

/-- The spot belongs to the statement at a path or to one nested in it. -/
def Spot.Below (path : List Nat) (v : Spot) : Prop := path <:+ v.path

theorem Spot.Below.cons {path : List Nat} {i : Nat} {v : Spot} (h : v.Below (i :: path)) :
    v.Below path := (List.suffix_cons i path).trans h

theorem Spot.Below.index {path : List Nat} {i j : Nat} {v : Spot} (hi : v.Below (i :: path))
    (hj : v.Below (j :: path)) : i = j := by
  have := (List.suffix_of_suffix_length_le hi hj (by simp)).eq_of_length (by simp)
  exact (List.cons.inj this).1

theorem Spot.Below.ne {path : List Nat} {i n : Nat} {v : Spot} (h : v.Below (i :: path)) :
    v ≠ ⟨path, n⟩ := by
  rintro rfl
  exact Nat.not_succ_le_self _ h.length_le

namespace Flow

variable {V : Type}

theorem places_ofLoop (simplify : Bool) (test : V) (body : List (Flow V)) :
    (ofLoop simplify test body).places.Sublist (test :: placesAll body) := by
  unfold ofLoop
  split
  · exact (List.nil_sublist _).cons_cons test
  · exact List.Sublist.refl _

theorem places_ofBranch (simplify : Bool) (test : V) (body orelse : List (Flow V)) :
    (ofBranch simplify test body orelse).places.Sublist
      (test :: (placesAll body ++ placesAll orelse)) := by
  unfold ofBranch
  split
  · exact (List.nil_sublist _).cons_cons test
  · exact (List.nil_sublist _).cons_cons test
  · exact List.Sublist.refl _

end Flow

/-- Different spots of the statement at a path and of what is nested in it. -/
structure Fresh (path : List Nat) (vs : List Spot) : Prop where
  nodup : vs.Nodup
  below : ∀ v ∈ vs, v.Below path

/-- Different spots of the statements of a suite from an index on. -/
structure FreshFrom (path : List Nat) (i : Nat) (vs : List Spot) : Prop where
  nodup : vs.Nodup
  below : ∀ v ∈ vs, ∃ j, i ≤ j ∧ v.Below (j :: path)

/-- Different spots of the cases of a selection from an index on. -/
structure FreshCases (path : List Nat) (i : Nat) (vs : List Spot) : Prop where
  nodup : vs.Nodup
  below : ∀ v ∈ vs, ∃ j, i ≤ j ∧ (v = ⟨path, j⟩ ∨ v.Below (j :: path))

section

variable {path : List Nat} {i k n : Nat} {vs ws : List Spot}

theorem Fresh.own (path : List Nat) (n : Nat) : Fresh path [⟨path, n⟩] :=
  ⟨by simp, by simp [Spot.Below]⟩

theorem Fresh.sublist (h : Fresh path vs) (hs : ws.Sublist vs) : Fresh path ws :=
  ⟨h.nodup.sublist hs, fun v hv => h.below v (hs.subset hv)⟩

theorem FreshFrom.nil (path : List Nat) (i : Nat) : FreshFrom path i [] :=
  ⟨List.nodup_nil, by simp⟩

theorem FreshFrom.append (h : Fresh (i :: path) vs) (h' : FreshFrom path (i + 1) ws) :
    FreshFrom path i (vs ++ ws) := by
  refine ⟨List.nodup_append.2 ⟨h.nodup, h'.nodup, ?_⟩, ?_⟩
  · rintro v hv _ hv' rfl
    obtain ⟨j, hj, hbelow⟩ := h'.below v hv'
    have := (h.below v hv).index hbelow
    omega
  · intro v hv
    rcases List.mem_append.1 hv with hv | hv
    · exact ⟨i, Nat.le_refl i, h.below v hv⟩
    · obtain ⟨j, hj, hbelow⟩ := h'.below v hv
      exact ⟨j, by omega, hbelow⟩

theorem FreshFrom.suite (h : FreshFrom (k :: path) i vs) : Fresh (k :: path) vs :=
  ⟨h.nodup, fun v hv => by
    obtain ⟨j, -, hj⟩ := h.below v hv
    exact hj.cons⟩

theorem Fresh.own_not_mem (h : Fresh (k :: path) vs) (n : Nat) : (⟨path, n⟩ : Spot) ∉ vs :=
  fun hmem => (h.below _ hmem).ne rfl

theorem Fresh.cons (h : Fresh (k :: path) vs) (n : Nat) : Fresh path (⟨path, n⟩ :: vs) := by
  refine ⟨List.nodup_cons.2 ⟨h.own_not_mem n, h.nodup⟩, ?_⟩
  intro v hv
  rcases List.mem_cons.1 hv with rfl | hv
  · exact List.suffix_refl path
  · exact (h.below v hv).cons

theorem Fresh.routine (h : Fresh (k :: path) vs) :
    Fresh path (⟨path, 0⟩ :: ⟨path, 1⟩ :: (vs ++ [⟨path, 2⟩])) := by
  refine ⟨?_, ?_⟩
  · have := h.own_not_mem
    simp only [List.nodup_cons, List.mem_cons, List.mem_append, Spot.mk.injEq, List.nodup_append,
      h.nodup]
    simp [this]
    rintro v hv rfl
    exact this 2 hv
  · intro v hv
    simp only [List.mem_cons, List.mem_append, List.not_mem_nil, or_false] at hv
    rcases hv with rfl | rfl | hv | rfl
    · exact List.suffix_refl path
    · exact List.suffix_refl path
    · exact (h.below v hv).cons
    · exact List.suffix_refl path

theorem Fresh.branch (h : Fresh (0 :: path) vs) (h' : Fresh (1 :: path) ws) :
    Fresh path (⟨path, 0⟩ :: (vs ++ ws)) := by
  refine ⟨List.nodup_cons.2 ⟨?_, List.nodup_append.2 ⟨h.nodup, h'.nodup, ?_⟩⟩, ?_⟩
  · rw [List.mem_append, not_or]
    exact ⟨h.own_not_mem 0, h'.own_not_mem 0⟩
  · rintro v hv _ hv' rfl
    cases (h.below v hv).index (h'.below v hv')
  · intro v hv
    simp only [List.mem_cons, List.mem_append] at hv
    rcases hv with rfl | hv | hv
    · exact List.suffix_refl path
    · exact (h.below v hv).cons
    · exact (h'.below v hv).cons

theorem FreshCases.nil (path : List Nat) (i : Nat) : FreshCases path i [] :=
  ⟨List.nodup_nil, by simp⟩

theorem FreshCases.append (h : Fresh (i :: path) vs) (h' : FreshCases path (i + 1) ws) :
    FreshCases path i (⟨path, i⟩ :: vs ++ ws) := by
  refine ⟨List.nodup_append.2 ⟨(h.cons i).nodup, h'.nodup, ?_⟩, ?_⟩
  · rintro v hv _ hv' rfl
    obtain ⟨j, hj, hcases⟩ := h'.below v hv'
    rcases List.mem_cons.1 hv with rfl | hv <;> rcases hcases with heq | hbelow
    · simp only [Spot.mk.injEq, true_and] at heq
      omega
    · exact hbelow.ne rfl
    · exact (h.below v hv).ne heq
    · have := (h.below v hv).index hbelow
      omega
  · intro v hv
    rcases List.mem_append.1 hv with hv | hv
    · rcases List.mem_cons.1 hv with rfl | hv
      · exact ⟨i, Nat.le_refl i, .inl rfl⟩
      · exact ⟨i, Nat.le_refl i, .inr (h.below v hv)⟩
    · obtain ⟨j, hj, hcases⟩ := h'.below v hv
      exact ⟨j, by omega, hcases⟩

theorem FreshCases.fresh (h : FreshCases path i vs) : Fresh path vs := by
  refine ⟨h.nodup, fun v hv => ?_⟩
  obtain ⟨j, -, rfl | hj⟩ := h.below v hv
  · exact List.suffix_refl path
  · exact hj.cons

theorem fresh_loop {ts : List (Flow Spot)} (h : Fresh (0 :: path) (placesAll ts))
    (simplify : Bool) :
    Fresh path (Flow.ofLoop simplify ⟨path, 0⟩ (orIdleAt ⟨path, 1⟩ ts)).places := by
  refine .sublist ?_ (places_ofLoop _ _ _)
  cases ts with
  | nil =>
    exact ⟨by simp [orIdleAt, placesAll, places], by simp [orIdleAt, placesAll, places, Spot.Below]⟩
  | cons t ts => exact h.cons 0

theorem fresh_ofCases {ts : List (Flow Spot)} (h : FreshCases path 0 (placesAll ts)) :
    Fresh path (Flow.ofCases ⟨path, 0⟩ ts).places := by
  cases ts with
  | nil => exact .own path 0
  | cons t ts => exact h.fresh

end

mutual

theorem layout_fresh (simplify : Bool) (path : List Nat) (s : Stmt) :
    Fresh path (layout simplify path s).places := by
  cases s with
  | function isAsync line name params body decorators result =>
    cases isAsync with
    | true => exact .own path 0
    | false => exact (layouts_fresh simplify (0 :: path) 0 body).suite.routine
  | forEach isAsync target source body orelse =>
    cases isAsync with
    | true => exact .own path 0
    | false => exact fresh_loop (layouts_fresh simplify (0 :: path) 0 body).suite simplify
  | whileTrue test body orelse =>
    exact fresh_loop (layouts_fresh simplify (0 :: path) 0 body).suite simplify
  | branch test body orelse =>
    exact ((layouts_fresh simplify (0 :: path) 0 body).suite.branch
      (layouts_fresh simplify (1 :: path) 0 orelse).suite).sublist (places_ofBranch _ _ _ _)
  | giveBack value =>
    cases value with
    | none => exact .own path 1
    | some e => exact ⟨by simp [layout, places], by simp [layout, places, Spot.Below]⟩
  | select subject cases => exact fresh_ofCases (layoutCases_fresh path 0 cases)
  | lacking part s => exact layout_fresh simplify path s
  | _ => exact .own path 0

theorem layouts_fresh (simplify : Bool) (path : List Nat) (i : Nat) (ss : List Stmt) :
    FreshFrom path i (placesAll (layouts simplify path i ss)) := by
  cases ss with
  | nil => exact .nil path i
  | cons s rest =>
    exact .append (layout_fresh simplify (i :: path) s) (layouts_fresh simplify path (i + 1) rest)

theorem layoutCases_fresh (path : List Nat) (i : Nat) (cs : List Case) :
    FreshCases path i (placesAll (layoutCases path i cs)) := by
  cases cs with
  | nil => exact .nil path i
  | cons c rest =>
    obtain ⟨vs, hvs, hfresh⟩ := layoutCase_fresh path i c
    rw [layoutCases, placesAll, hvs]
    exact .append hfresh (layoutCases_fresh path (i + 1) rest)

theorem layoutCase_fresh (path : List Nat) (i : Nat) (c : Case) :
    ∃ vs, (layoutCase path i c).places = ⟨path, i⟩ :: vs ∧ Fresh (i :: path) vs := by
  cases c with
  | mk pattern guard body => exact ⟨_, rfl, (layouts_fresh true (i :: path) 0 body).suite⟩
  | lacking part c => exact layoutCase_fresh path i c

end

theorem layoutPieces_fresh (simplify : Bool) (i : Nat) (pieces : List Piece) :
    FreshFrom [] i (placesAll (layoutPieces simplify i pieces)) := by
  induction pieces generalizing i with
  | nil => exact .nil [] i
  | cons p rest ih =>
    refine .append ?_ (ih (i + 1))
    cases p with
    | stmt s => exact layout_fresh simplify [i] s
    | _ => exact .own [i] 0

end CodeChart.Chart
