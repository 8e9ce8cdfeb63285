import CodeChart.Proofs.Charts

/-! Runs of structured code. The code is made of statements that run as a whole, branches, loops and
returns; a run records what it passes, and tests may be answered either way. The walks through the
unsimplified chart of such code are the beginnings of its runs. -/
namespace CodeChart.Code

def Stmt.simple : Stmt → Bool
  | .function false .. => false
  | .forEach false .. => false
  | .whileTrue .. => false
  | .branch .. => false
  | .giveBack _ => false
  | .select .. => false
  | .stop => false
  | .next => false
  | .lacking .. => false
  | _ => true

/-- The body of a loop that has nothing to run at its end. -/
def Stmt.loopBody? : Stmt → Option (List Stmt)
  | .forEach false _ _ body [] => some body
  | .whileTrue _ body [] => some body
  | _ => none

mutual

/-- Statements made of simple ones, branches, loops and returns. -/
def Stmt.structured : Stmt → Bool
  | .branch _ body orelse => structuredAll body && structuredAll orelse
  | .forEach false _ _ body orelse => !body.isEmpty && structuredAll body && orelse.isEmpty
  | .whileTrue _ body orelse => !body.isEmpty && structuredAll body && orelse.isEmpty
  | .giveBack _ => true
  | s => s.simple

def structuredAll : List Stmt → Bool
  | [] => true
  | s :: rest => s.structured && structuredAll rest

end

/-- A structured statement is of one of four kinds. -/
inductive Stmt.Kind : Stmt → Prop
  | simple {s : Stmt} (h : s.simple = true) : Kind s
  | branch {test : Expr} {body orelse : List Stmt} (hbody : structuredAll body = true)
      (horelse : structuredAll orelse = true) : Kind (.branch test body orelse)
  | loop {s : Stmt} {body : List Stmt} (h : s.loopBody? = some body) (hne : body ≠ [])
      (hbody : structuredAll body = true) : Kind s
  | giveBack (value : Option Expr) : Kind (.giveBack value)

theorem Stmt.kind_of_structured {s : Stmt} (h : s.structured = true) : s.Kind := by
  cases s with
  | branch test body orelse =>
    rw [structured, Bool.and_eq_true] at h
    exact .branch h.1 h.2
  | forEach isAsync target source body orelse =>
    cases isAsync with
    | true => exact .simple rfl
    | false =>
      obtain ⟨⟨hne, hbody⟩, rfl⟩ : (body ≠ [] ∧ structuredAll body = true) ∧ orelse = [] := by
        simpa [structured] using h
      exact .loop rfl hne hbody
  | whileTrue test body orelse =>
    obtain ⟨⟨hne, hbody⟩, rfl⟩ : (body ≠ [] ∧ structuredAll body = true) ∧ orelse = [] := by
      simpa [structured] using h
    exact .loop rfl hne hbody
  | giveBack value => exact .giveBack value
  | function isAsync line name params body decorators result =>
    cases isAsync with
    | true => exact .simple rfl
    | false => cases h
  | _ => exact .simple h

theorem structuredAll_cons {s : Stmt} {rest : List Stmt} (h : structuredAll (s :: rest) = true) :
    s.structured = true ∧ structuredAll rest = true := by
  rwa [structuredAll, Bool.and_eq_true] at h

end CodeChart.Code

namespace CodeChart.Chart

open CodeChart.Graph Code

variable {V W : Type}

/-- What a run records: a place it passes and, at a test, the answer. -/
structure Event (V : Type) where
  place : V
  answer : Option Bool
  deriving DecidableEq, Repr

def Event.map (g : V → W) (e : Event V) : Event W := ⟨g e.place, e.answer⟩

def answerOf : List String → Option Bool
  | ["yes"] => some true
  | ["no"] => some false
  | _ => none

/-- A trace begins with some events and then passes a place. -/
def Begins (trace es : List (Event V)) (v : V) : Prop :=
  ∃ answer later, trace = es ++ ⟨v, answer⟩ :: later

inductive Outcome where
  | completed
  | returned
  deriving DecidableEq, Repr

/-- Where a run goes when the code is left. -/
def Outcome.target (next : Option V) : Outcome → Option V
  | .completed => next
  | .returned => none

/-- The first statement of a suite at a path records an event, runs its suite number `k`, and leaves
the statements `after` from index `j` on. -/
inductive Turn (path : List Nat) (i : Nat) :
    List Stmt → Event Spot → (k : Nat) → (body : List Stmt) → (j : Nat) →
      (after : List Stmt) → Prop where
  | simple {s : Stmt} {rest : List Stmt} (h : s.simple = true) :
      Turn path i (s :: rest) ⟨⟨i :: path, 0⟩, none⟩ 0 [] (i + 1) rest
  | yes {test : Expr} {body orelse rest : List Stmt} :
      Turn path i (.branch test body orelse :: rest) ⟨⟨i :: path, 0⟩, some true⟩ 0 body (i + 1) rest
  | no {test : Expr} {body orelse rest : List Stmt} :
      Turn path i (.branch test body orelse :: rest) ⟨⟨i :: path, 0⟩, some false⟩ 1
        orelse (i + 1) rest
  | again {s : Stmt} {body rest : List Stmt} (h : s.loopBody? = some body) :
      Turn path i (s :: rest) ⟨⟨i :: path, 0⟩, some true⟩ 0 body i (s :: rest)
  | leave {s : Stmt} {body rest : List Stmt} (h : s.loopBody? = some body) :
      Turn path i (s :: rest) ⟨⟨i :: path, 0⟩, some false⟩ 0 [] (i + 1) rest

/-- Runs of the statements of the suite at a path from an index on. A return without a value records
its end, one with a value its output and its end. -/
inductive Runs : List Nat → Nat → List Stmt → List (Event Spot) → Outcome → Prop where
  | done {path : List Nat} {i : Nat} : Runs path i [] [] .completed
  | proceed {path : List Nat} {i j k : Nat} {ss body after : List Stmt} {e : Event Spot}
      {inner trace : List (Event Spot)} {outcome : Outcome} (h : Turn path i ss e k body j after)
      (hbody : Runs (k :: i :: path) 0 body inner .completed)
        (hafter : Runs path j after trace outcome) :
      Runs path i ss (e :: (inner ++ trace)) outcome
  | leave {path : List Nat} {i j k : Nat} {ss body after : List Stmt} {e : Event Spot}
      {inner : List (Event Spot)} (h : Turn path i ss e k body j after)
      (hbody : Runs (k :: i :: path) 0 body inner .returned) : Runs path i ss (e :: inner) .returned
  | giveUp {path : List Nat} {i : Nat} {rest : List Stmt} :
      Runs path i (.giveBack none :: rest) [⟨⟨i :: path, 1⟩, none⟩] .returned
  | giveBack {path : List Nat} {i : Nat} {value : Expr} {rest : List Stmt} :
      Runs path i (.giveBack (some value) :: rest) [⟨⟨i :: path, 0⟩, none⟩, ⟨⟨i :: path, 1⟩, none⟩]
        .returned

theorem exists_run (ss : List Stmt) (h : structuredAll ss = true) (path : List Nat) (i : Nat) :
    ∃ trace outcome, Runs path i ss trace outcome := by
  match ss with
  | [] => exact ⟨_, _, .done⟩
  | s :: rest =>
    obtain ⟨hs, hrest⟩ := structuredAll_cons h
    obtain ⟨trace, outcome, hrun⟩ := exists_run rest hrest path (i + 1)
    match s, Stmt.kind_of_structured hs with
    | _, .simple hsimple => exact ⟨_, _, .proceed (.simple hsimple) .done hrun⟩
    | .branch test body orelse, .branch hbody horelse =>
      obtain ⟨inner, o, hinner⟩ := exists_run orelse horelse (1 :: i :: path) 0
      cases o with
      | completed => exact ⟨_, _, .proceed .no hinner hrun⟩
      | returned => exact ⟨_, _, .leave .no hinner⟩
    | _, .loop hloop _ _ => exact ⟨_, _, .proceed (.leave hloop) .done hrun⟩
    | _, .giveBack none => exact ⟨_, _, .giveUp⟩
    | _, .giveBack (some value) => exact ⟨_, _, .giveBack⟩

/-- From a place with an answer along an arrow, to where it leads. -/
def Moves (xs : List (Vertex V)) (e : Event V) (next : Option V) : Prop :=
  ∃ x ∈ xs, x.place = e.place ∧ ∃ a ∈ x.arrows, a.target = next ∧ answerOf a.labels = e.answer

/-- From a place, if there is one, along arrows. A walk that has nowhere to go is over. -/
inductive Walks (xs : List (Vertex V)) : Option V → List (Event V) → Option V → Prop where
  | here {v : Option V} : Walks xs v [] v
  | move {e : Event V} {v w : Option V} {es : List (Event V)} (h : Moves xs e v)
      (hw : Walks xs v es w) : Walks xs (some e.place) (e :: es) w
  | finish {v : V} (h : .box v none ∈ xs) : Walks xs (some v) [⟨v, none⟩] none

section

variable {xs : List (Vertex V)}

theorem Moves.walks {v : V} {answer : Option Bool} {u w : Option V} {es : List (Event V)}
    (h : Moves xs ⟨v, answer⟩ u) (hw : Walks xs u es w) : Walks xs (some v) (⟨v, answer⟩ :: es) w :=
  .move h hw

theorem Walks.trans {u v w : Option V} {es fs : List (Event V)} (h : Walks xs u es v)
    (h' : Walks xs v fs w) : Walks xs u (es ++ fs) w := by
  induction h with
  | here => exact h'
  | move hmove _ ih => exact .move hmove (ih h')
  | finish hx =>
    cases h' with
    | here => exact .finish hx

theorem Walks.of_begins {u w : Option V} {v : V} {trace es : List (Event V)}
    (h : Walks xs u trace w) (hb : Begins trace es v) : Walks xs u es (some v) := by
  obtain ⟨answer, later, rfl⟩ := hb
  induction es generalizing u with
  | nil =>
    cases h with
    | move _ _ => exact .here
    | finish _ => exact .here
  | cons e es ih =>
    rw [List.cons_append] at h
    generalize hrest : es ++ ⟨v, answer⟩ :: later = rest at h
    cases h with
    | move hmove hw =>
      subst hrest
      exact .move hmove (ih hw)
    | finish _ => simp at hrest

section

variable {v : V} {next : Option V} {e : Event V} {w : Option V}

theorem moves_of_box {labels : List String} {target : Option V}
    (hx : (Vertex.box v (some ⟨labels, target⟩)).lead next ∈ xs) (hl : answerOf labels = none) :
    Moves xs ⟨v, none⟩ (target.or next) :=
  ⟨_, hx, rfl, _, List.mem_singleton.2 rfl, rfl, hl⟩

theorem moves_of_yes {yes no : Option V} (hx : (Vertex.test v (some yes) no).lead next ∈ xs) :
    Moves xs ⟨v, some true⟩ (yes.or next) :=
  ⟨_, hx, rfl, _, Flow.mem_arrows_test.2 (.inl ⟨_, rfl, rfl⟩), rfl, rfl⟩

theorem moves_of_no {yes : Option (Option V)} {no : Option V}
    (hx : (Vertex.test v yes no).lead next ∈ xs) : Moves xs ⟨v, some false⟩ (no.or next) :=
  ⟨_, hx, rfl, _, Flow.mem_arrows_test.2 (.inr rfl), rfl, rfl⟩

variable (hxs : (xs.map Vertex.place).Nodup)
include hxs

theorem Moves.arrow {y : Vertex V} (hy : y ∈ xs) (h : Moves xs e w) (he : e.place = y.place) :
    ∃ a ∈ y.arrows, a.target = w ∧ answerOf a.labels = e.answer := by
  obtain ⟨x, hx, hplace, harrow⟩ := h
  rwa [List.inj_on_of_nodup_map hxs hx hy (hplace.trans he)] at harrow

theorem Moves.of_box {labels : List String} {target : Option V}
    (hx : (Vertex.box v (some ⟨labels, target⟩)).lead next ∈ xs) (h : Moves xs e w)
    (he : e.place = v) :
    e = ⟨v, answerOf labels⟩ ∧ w = target.or next := by
  obtain ⟨a, ha, rfl, hanswer⟩ := h.arrow hxs hx he
  obtain rfl := List.mem_singleton.1 ha
  obtain ⟨place, answer⟩ := e
  cases he
  cases hanswer
  exact ⟨rfl, rfl⟩

theorem Moves.not_of_final (hx : .box v none ∈ xs) (h : Moves xs e w) (he : e.place = v) :
    False := by
  obtain ⟨a, ha, -⟩ := h.arrow hxs hx he
  cases ha

theorem Walks.of_final {u : V} {es : List (Event V)} (hx : .box v none ∈ xs)
    (h : Walks xs (some v) es (some u)) : es = [] ∧ u = v := by
  cases h with
  | here => exact ⟨rfl, rfl⟩
  | move hmove _ => exact (hmove.not_of_final hxs hx rfl).elim

theorem Moves.of_test {yes no : Option V} (hx : (Vertex.test v (some yes) no).lead next ∈ xs)
    (h : Moves xs e w) (he : e.place = v) : e = ⟨v, some true⟩ ∧ w = yes.or next ∨
      e = ⟨v, some false⟩ ∧ w = no.or next := by
  obtain ⟨a, ha, rfl, hanswer⟩ := h.arrow hxs hx he
  obtain ⟨place, answer⟩ := e
  cases he
  cases hanswer
  rcases Flow.mem_arrows_test.1 ha with ⟨y, hy, rfl⟩ | rfl
  · cases hy
    exact .inl ⟨rfl, rfl⟩
  · exact .inr ⟨rfl, rfl⟩

end

end

theorem layout_simple {s : Stmt} (h : s.simple = true) (simplify : Bool) (path : List Nat) :
    layout simplify path s = .step ⟨path, 0⟩ := by
  cases s with
  | function isAsync line name params body decorators result =>
    cases isAsync with
    | true => rfl
    | false => cases h
  | forEach isAsync target source body orelse =>
    cases isAsync with
    | true => rfl
    | false => cases h
  | whileTrue test body orelse => cases h
  | branch test body orelse => cases h
  | giveBack value => cases h
  | select subject cases => cases h
  | stop => cases h
  | next => cases h
  | lacking part s => cases h
  | _ => rfl

theorem layout_loop {s : Stmt} {body : List Stmt} (h : s.loopBody? = some body) (hne : body ≠ [])
    (path : List Nat) :
    layout false path s = .loop ⟨path, 0⟩ (layouts false (0 :: path) 0 body) := by
  have hbody : ∀ idle, orIdleAt idle (layouts false (0 :: path) 0 body)
      = layouts false (0 :: path) 0 body := by
    intro idle
    cases body with
    | nil => exact absurd rfl hne
    | cons s rest => rfl
  unfold Stmt.loopBody? at h
  split at h
  · cases h
    rw [layout, hbody]
    rfl
  · cases h
    rw [layout, hbody]
    rfl
  · cases h

/-- Where statements are entered; an empty suite is passed at once. -/
def startOf (next : Option Spot) (path : List Nat) (i : Nat) (ss : List Stmt) : Option Spot :=
  (Flow.entryOf (layouts false path i ss)).or next

/-- Structured code whose layout stands in a graph, with `next` after it. -/
structure Laid (xs : List (Vertex Spot)) (next : Option Spot) (path : List Nat) (i : Nat)
    (ss : List Stmt) : Prop where
  structured : structuredAll ss = true
  placed : ∃ direction, answerOf direction = none ∧
    Flow.Placed xs next (Flow.verticesAll direction (layouts false path i ss))

section

variable {xs : List (Vertex Spot)} {next : Option Spot} {path : List Nat} {i : Nat} {s : Stmt}
  {rest : List Stmt}

theorem Laid.nil : Laid xs next path i [] :=
  ⟨rfl, [], rfl, fun _ hy => (List.not_mem_nil hy).elim⟩

theorem Laid.tail (h : Laid xs next path i (s :: rest)) : Laid xs next path (i + 1) rest := by
  obtain ⟨direction, hd, hplaced⟩ := h.placed
  exact ⟨(structuredAll_cons h.structured).2, direction, hd, Flow.placed_tail hplaced⟩

theorem Laid.head (h : Laid xs next path i (s :: rest)) : ∃ direction, answerOf direction = none ∧
    Flow.Placed xs (startOf next path (i + 1) rest)
      (Flow.vertices direction (layout false (i :: path) s)) := by
  obtain ⟨direction, hd, hplaced⟩ := h.placed
  obtain ⟨direction', hd', hplaced'⟩ := Flow.placed_head hplaced
  refine ⟨direction', ?_, hplaced'⟩
  rcases hd' with rfl | rfl
  · rfl
  · exact hd

theorem Laid.simple (h : Laid xs next path i (s :: rest)) (hs : s.simple = true) :
    ∃ direction, answerOf direction = none ∧
      (Vertex.box ⟨i :: path, 0⟩ (some ⟨direction, none⟩)).lead
        (startOf next path (i + 1) rest) ∈ xs := by
  obtain ⟨direction, hd, hplaced⟩ := h.head
  rw [layout_simple hs] at hplaced
  exact ⟨direction, hd, hplaced.head⟩

/-- The suites of a branch lead to what follows it. -/
theorem Laid.branch {test : Expr} {body orelse : List Stmt}
    (h : Laid xs next path i (.branch test body orelse :: rest)) :
    Laid xs (startOf next path (i + 1) rest) (0 :: i :: path) 0 body ∧
    Laid xs (startOf next path (i + 1) rest) (1 :: i :: path) 0 orelse ∧
    (Vertex.test ⟨i :: path, 0⟩ (some (Flow.entryOf (layouts false (0 :: i :: path) 0 body)))
      (Flow.entryOf (layouts false (1 :: i :: path) 0 orelse))).lead
        (startOf next path (i + 1) rest) ∈ xs := by
  obtain ⟨hbody, horelse⟩ : structuredAll body = true ∧ structuredAll orelse = true := by
    simpa [Stmt.structured] using (structuredAll_cons h.structured).1
  obtain ⟨direction, -, hplaced⟩ := h.head
  exact ⟨⟨hbody, [], rfl, hplaced.tail.left⟩, ⟨horelse, [], rfl, hplaced.tail.right⟩, hplaced.head⟩

/-- The body of a loop leads back to the test. -/
theorem Laid.loop {body : List Stmt} (h : Laid xs next path i (s :: rest))
    (hs : s.loopBody? = some body) : body ≠ [] ∧
    Laid xs (some ⟨i :: path, 0⟩) (0 :: i :: path) 0 body ∧
    (Vertex.test ⟨i :: path, 0⟩ (some (Flow.entryOf (layouts false (0 :: i :: path) 0 body)))
      none).lead
      (startOf next path (i + 1) rest) ∈ xs := by
  obtain ⟨hne, hbody⟩ : body ≠ [] ∧ structuredAll body = true := by
    have hstructured := (structuredAll_cons h.structured).1
    unfold Stmt.loopBody? at hs
    split at hs
    · cases hs
      simpa [Stmt.structured] using hstructured
    · cases hs
      simpa [Stmt.structured] using hstructured
    · cases hs
  obtain ⟨direction, -, hplaced⟩ := h.head
  rw [layout_loop hs hne] at hplaced
  exact ⟨hne, ⟨hbody, ["left"], rfl, hplaced.tail.of_lead⟩, hplaced.head⟩

theorem startOf_or (next : Option Spot) (path : List Nat) (i : Nat) {ss : List Stmt} (hne : ss ≠ [])
    (next' : Option Spot) :
    startOf next path i ss = (Flow.entryOf (layouts false path i ss)).or next' := by
  cases ss with
  | nil => exact absurd rfl hne
  | cons s rest => rfl

/-- The first statement of a suite is entered at the place that its turn records. -/
theorem Turn.start {e : Event Spot} {ss body after : List Stmt} {j k : Nat}
    (h : Turn path i ss e k body j after) (hss : Laid xs next path i ss) :
    startOf next path i ss = some e.place := by
  cases h with
  | simple hs => simp [startOf, layouts, layout_simple hs, Flow.entry]
  | yes => rfl
  | no => rfl
  | again hs => simp [startOf, layouts, layout_loop hs (hss.loop hs).1, Flow.entry]
  | leave hs => simp [startOf, layouts, layout_loop hs (hss.loop hs).1, Flow.entry]

theorem Turn.laid {e : Event Spot} {ss body after : List Stmt} {j k : Nat}
    (h : Turn path i ss e k body j after) (hss : Laid xs next path i ss) :
    Laid xs (startOf next path j after) (k :: i :: path) 0 body ∧ Laid xs next path j after ∧
      Moves xs e (startOf (startOf next path j after) (k :: i :: path) 0 body) := by
  cases h with
  | simple hs =>
    obtain ⟨direction, hd, hx⟩ := hss.simple hs
    exact ⟨.nil, hss.tail, moves_of_box hx hd⟩
  | yes =>
    obtain ⟨hbody, -, hx⟩ := hss.branch
    exact ⟨hbody, hss.tail, moves_of_yes hx⟩
  | no =>
    obtain ⟨-, horelse, hx⟩ := hss.branch
    exact ⟨horelse, hss.tail, moves_of_no hx⟩
  | again hs =>
    have hstart := (Turn.again hs).start hss
    obtain ⟨hne, hbody, hx⟩ := hss.loop hs
    rw [hstart, startOf_or _ _ _ hne]
    exact ⟨hbody, hss, moves_of_yes hx⟩
  | leave hs =>
    obtain ⟨-, -, hx⟩ := hss.loop hs
    exact ⟨.nil, hss.tail, moves_of_no hx⟩

theorem Laid.finish {value : Option Expr} (h : Laid xs next path i (.giveBack value :: rest)) :
    .box ⟨i :: path, 1⟩ none ∈ xs := by
  obtain ⟨direction, -, hplaced⟩ := h.head
  cases value with
  | none => exact hplaced.head
  | some value => exact hplaced.tail.head

theorem Laid.output {value : Expr} (h : Laid xs next path i (.giveBack (some value) :: rest)) :
    (Vertex.box ⟨i :: path, 0⟩ (some ⟨[], some ⟨i :: path, 1⟩⟩)).lead
      (startOf next path (i + 1) rest) ∈ xs := by
  obtain ⟨direction, -, hplaced⟩ := h.head
  exact hplaced.head

/-- Every move from the first statement of a suite is a turn, or leads to the end of a return. -/
theorem Laid.turn_of_moves (hxs : (xs.map Vertex.place).Nodup) (h : Laid xs next path i (s :: rest))
    {e : Event Spot} {w : Option Spot} (hmove : Moves xs e w)
    (he : e.place = (layout false (i :: path) s).entry) :
    (∃ k body j after, Turn path i (s :: rest) e k body j after ∧
      w = startOf (startOf next path j after) (k :: i :: path) 0 body) ∨
    ∃ value, s = .giveBack (some value) ∧ e = ⟨⟨i :: path, 0⟩, none⟩ ∧ w = some ⟨i :: path, 1⟩ := by
  cases Stmt.kind_of_structured (structuredAll_cons h.structured).1 with
  | simple hs =>
    obtain ⟨direction, hd, hx⟩ := h.simple hs
    rw [layout_simple hs] at he
    obtain ⟨rfl, rfl⟩ := hmove.of_box hxs hx he
    rw [hd]
    exact .inl ⟨_, _, _, _, .simple hs, rfl⟩
  | branch hbody horelse =>
    obtain ⟨-, -, hx⟩ := h.branch
    rcases hmove.of_test hxs hx he with ⟨rfl, rfl⟩ | ⟨rfl, rfl⟩
    · exact .inl ⟨_, _, _, _, .yes, rfl⟩
    · exact .inl ⟨_, _, _, _, .no, rfl⟩
  | loop hs hne hbody =>
    obtain ⟨-, -, hx⟩ := h.loop hs
    rw [layout_loop hs hne] at he
    rcases hmove.of_test hxs hx he with ⟨rfl, rfl⟩ | ⟨rfl, rfl⟩
    · exact .inl ⟨_, _, _, _, .again hs, (startOf_or _ _ _ hne _).symm⟩
    · exact .inl ⟨_, _, _, _, .leave hs, rfl⟩
  | giveBack value =>
    cases value with
    | none => exact (hmove.not_of_final hxs h.finish he).elim
    | some value =>
      obtain ⟨rfl, rfl⟩ := hmove.of_box hxs h.output he
      exact .inr ⟨value, rfl, rfl, rfl⟩

theorem Runs.walks {ss : List Stmt} {trace : List (Event Spot)} {outcome : Outcome}
    (h : Runs path i ss trace outcome) (hss : Laid xs next path i ss) :
    Walks xs (startOf next path i ss) trace (outcome.target next) := by
  induction h generalizing next with
  | done => exact .here
  | proceed hturn _ _ ihbody ihafter =>
    obtain ⟨hbody, hafter, hmove⟩ := hturn.laid hss
    rw [hturn.start hss]
    exact .move hmove ((ihbody hbody).trans (ihafter hafter))
  | leave hturn _ ihbody =>
    obtain ⟨hbody, -, hmove⟩ := hturn.laid hss
    rw [hturn.start hss]
    exact .move hmove (ihbody hbody)
  | giveUp => exact .finish hss.finish
  | giveBack => exact .move (moves_of_box hss.output rfl) (.finish hss.finish)

/-- The walk stays in a run of the code, or the code completes and the walk goes on. -/
def Explained (xs : List (Vertex Spot)) (next : Option Spot) (path : List Nat) (i : Nat)
    (ss : List Stmt) (es : List (Event Spot)) (w : Spot) : Prop :=
  (∃ trace outcome, Runs path i ss trace outcome ∧ Begins trace es w) ∨
  ∃ inner later, Runs path i ss inner .completed ∧ es = inner ++ later ∧
    Walks xs next later (some w)

variable {ss body after : List Stmt} {e : Event Spot} {es inner : List (Event Spot)}
  {w : Spot} {j k : Nat}

theorem Runs.begins (hss : Laid xs next path i (s :: rest)) {trace : List (Event Spot)}
    {outcome : Outcome} (h : Runs path i (s :: rest) trace outcome) :
    Begins trace [] (layout false (i :: path) s).entry := by
  have hentry : startOf next path i (s :: rest) = some (layout false (i :: path) s).entry := rfl
  cases h with
  | @proceed _ _ _ _ _ _ _ e _ _ _ hturn _ _ =>
    rw [hturn.start hss] at hentry
    exact ⟨e.answer, _, by rw [← Option.some.inj hentry]; rfl⟩
  | @leave _ _ _ _ _ _ _ e _ hturn _ =>
    rw [hturn.start hss] at hentry
    exact ⟨e.answer, _, by rw [← Option.some.inj hentry]; rfl⟩
  | giveUp => exact ⟨_, _, rfl⟩
  | giveBack => exact ⟨_, _, rfl⟩

theorem Turn.explained_inside (h : Turn path i ss e k body j after)
    (hafter : structuredAll after = true) {trace : List (Event Spot)} {outcome : Outcome}
    (hrun : Runs (k :: i :: path) 0 body trace outcome) (hb : Begins trace es w) :
    Explained xs next path i ss (e :: es) w := by
  obtain ⟨answer, later, rfl⟩ := hb
  cases outcome with
  | completed =>
    obtain ⟨trace', outcome', hrun'⟩ := exists_run after hafter path j
    exact .inl ⟨_, _, .proceed h hrun hrun', answer, later ++ trace', by simp⟩
  | returned => exact .inl ⟨_, _, .leave h hrun, answer, later, rfl⟩

theorem Turn.explained_after (h : Turn path i ss e k body j after)
    (hrun : Runs (k :: i :: path) 0 body inner .completed)
    (hafter : Explained xs next path j after es w) :
    Explained xs next path i ss (e :: (inner ++ es)) w := by
  rcases hafter with ⟨trace, outcome, hrun', answer, later, rfl⟩ |
      ⟨inner', later, hrun', rfl, hwalk⟩
  · exact .inl ⟨_, _, .proceed h hrun hrun', answer, later, by simp⟩
  · exact .inr ⟨_, later, .proceed h hrun hrun', by simp, hwalk⟩

/-- Every walk from the entry of code follows a run of it. The induction is on the length of the
walk: every turn passes a place. -/
theorem explained_of_walks (hxs : (xs.map Vertex.place).Nodup) (hss : Laid xs next path i ss)
    (h : Walks xs (startOf next path i ss) es (some w)) : Explained xs next path i ss es w := by
  induction hn : es.length using Nat.strong_induction_on generalizing next path i ss es with
  | _ n ih =>
    cases ss with
    | nil => exact .inr ⟨[], es, .done, rfl, h⟩
    | cons s rest =>
      generalize hstart : startOf next path i (s :: rest) = start at h
      cases h with
      | here =>
        obtain ⟨trace, outcome, hrun⟩ := exists_run (s :: rest) hss.structured path i
        obtain rfl : (layout false (i :: path) s).entry = w := Option.some.inj hstart
        exact .inl ⟨trace, outcome, hrun, hrun.begins hss⟩
      | @move e v _ es hmove hw =>
        rcases hss.turn_of_moves hxs hmove (Option.some.inj hstart).symm with
          ⟨k, body, j, after, hturn, rfl⟩ | ⟨value, rfl, rfl, rfl⟩
        · obtain ⟨hbody, hafter, -⟩ := hturn.laid hss
          rcases ih es.length (by simp at hn; omega) hbody hw rfl with
            ⟨trace, outcome, hrun, hb⟩ | ⟨inner, later, hrun, rfl, hlater⟩
          · exact hturn.explained_inside hafter.structured hrun hb
          · refine hturn.explained_after hrun (ih later.length ?_ hafter hlater rfl)
            simp at hn
            omega
        · obtain ⟨rfl, rfl⟩ := hw.of_final hxs hss.finish
          exact .inl ⟨_, _, .giveBack, none, [], rfl⟩

end

/-- A path along the lines of a drawing. -/
inductive Path (d : Drawing) : String → List (Event String) → String → Prop where
  | here {name : String} : Path d name [] name
  | line {k : Line} {es : List (Event String)} {name : String} (hk : k ∈ d.lines)
      (h : Path d k.target es name) : Path d k.source (⟨k.source, answerOf k.labels⟩ :: es) name

/-- The events of a trace with the names of their places. -/
def namesOf (f : Spot → Named) (trace : List (Event Spot)) : List (Event String) :=
  trace.map (Event.map fun v => (f v).name)

section

variable {ts : List (Flow Spot)} {f : Spot → Named} {d : Drawing} {entry v w : Spot}
  (hd : Depicts (Flow.verticesAll [] ts) entry f d)
include hd

/-- A walk through the graph is a path of the drawing. -/
theorem Walks.path {trace : List (Event Spot)}
    (h : Walks (Flow.verticesAll [] ts) (some v) trace (some w))
    (hv : Reached (Flow.verticesAll [] ts) entry v) :
    Path d (f v).name (namesOf f trace) (f w).name := by
  generalize hstart : some v = start, hstop : some w = stop at h
  induction h generalizing v with
  | here =>
    cases hstart.trans hstop.symm
    exact .here
  | @move e next _ es hmove hw ih =>
    obtain rfl := Option.some.inj hstart
    obtain ⟨x, hx, hplace, a, ha, htarget, hanswer⟩ := hmove
    cases next with
    | none =>
      subst hstop
      cases hw
    | some u =>
      rw [← hplace] at hv
      have hline : (⟨(f x.place).name, a.labels, (f u).name⟩ : Line) ∈ d.lines :=
        (hd.lines _).2 ⟨x, hx, hv, a, ha, u, htarget, rfl⟩
      have hpath := Path.line hline (ih (.arrow hv hx ha htarget) rfl hstop)
      rw [hplace, hanswer] at hpath
      exact hpath
  | finish _ => cases hstop

theorem Path.walks {name name' : String} {es : List (Event String)} (h : Path d name es name')
    (hapart : ∀ v ∈ Flow.placesAll ts, ∀ w ∈ Flow.placesAll ts, (f v).name = (f w).name → v = w)
    (hentry : Flow.entryOf ts = some entry) (hv : Reached (Flow.verticesAll [] ts) entry v)
    (hname : name = (f v).name) : ∃ trace w,
      Walks (Flow.verticesAll [] ts) (some v) trace (some w) ∧ es = namesOf f trace ∧
        name' = (f w).name := by
  have hmem : ∀ {u}, Reached (Flow.verticesAll [] ts) entry u → u ∈ Flow.placesAll ts := by
    intro u hu
    rw [← Flow.map_place_verticesAll [] ts]
    exact hu.mem (Flow.verticesAll_targets [] ts) (Flow.mem_of_entryOf [] ts hentry)
  induction h generalizing v with
  | here => exact ⟨[], v, .here, rfl, hname⟩
  | line hk _ ih =>
    obtain ⟨x, hx, hreached, a, ha, u, htarget, rfl⟩ := (hd.lines _).1 hk
    obtain rfl := hapart _ (hmem hreached) _ (hmem hv) hname
    obtain ⟨trace, w, hwalk, rfl, rfl⟩ := ih (.arrow hv hx ha htarget) rfl
    have hmove : Moves (Flow.verticesAll [] ts) ⟨x.place, answerOf a.labels⟩ (some u) :=
      ⟨x, hx, rfl, a, ha, htarget, rfl⟩
    exact ⟨_, w, hmove.walks hwalk, rfl, rfl⟩

end

/-- The walks through the graph of structured code are the beginnings of its runs. -/
theorem walks_iff_run {ss : List Stmt} (hss : structuredAll ss = true) {entry w : Spot}
    (hentry : Flow.entryOf (layouts false [] 0 ss) = some entry) {es : List (Event Spot)} :
    Walks (Flow.verticesAll [] (layouts false [] 0 ss)) (some entry) es (some w) ↔
      ∃ trace outcome, Runs [] 0 ss trace outcome ∧ Begins trace es w := by
  have hlaid : Laid (Flow.verticesAll [] (layouts false [] 0 ss)) none [] 0 ss :=
    ⟨hss, [], rfl, Flow.placed_self _⟩
  have hstart : startOf none [] 0 ss = some entry := by
    rw [startOf, hentry]
    rfl
  have hnodup : ((Flow.verticesAll [] (layouts false [] 0 ss)).map Vertex.place).Nodup := by
    rw [Flow.map_place_verticesAll]
    exact (layouts_fresh false [] 0 ss).nodup
  rw [← hstart]
  constructor
  · intro h
    rcases explained_of_walks hnodup hlaid h with hrun | ⟨inner, later, -, -, hwalk⟩
    · exact hrun
    · cases hwalk
  · rintro ⟨trace, outcome, hrun, hb⟩
    exact (hrun.walks hlaid).of_begins hb

/-- The paths of the unsimplified chart of structured code, from its first node on, are the
beginnings of the runs of the code. -/
theorem paths_are_runs (options : Options) (hsimplify : options.simplify = false) (ss : List Stmt)
    (hss : structuredAll ss = true) (hne : ss ≠ []) (σ : Store) (hσ : σ.Sound) :
    Realizes σ (chartOf options (ss.map .stmt) >>= chartText) (outlines options ss)
      fun text _ flows => ∃ f d first, text = d.text ∧
        Portrays (layouts false [] 0 ss) (arrange options flows) f d ∧ d.nodes.head? = some first ∧
        ∀ es name, Path d first.name es name ↔
          ∃ trace outcome, Runs [] 0 ss trace outcome ∧ Begins (namesOf f trace) es name := by
  refine (chart_stmts_realizes options ss hne hσ).mono fun text τ flows _ h => ?_
  obtain ⟨f, d, htext, hportrays, -⟩ := h
  rw [hsimplify] at hportrays
  obtain ⟨entry, hentry, hd⟩ := hportrays.drawn
  refine ⟨f, d, _, htext, hportrays, hd.first, fun es name => ⟨fun hpath => ?_, ?_⟩⟩
  · obtain ⟨trace, w, hwalk, rfl, rfl⟩ := hpath.walks hd hportrays.apart hentry .entry rfl
    obtain ⟨trace', outcome, hrun, answer, later, rfl⟩ := (walks_iff_run hss hentry).1 hwalk
    exact ⟨_, outcome, hrun, answer, namesOf f later, by simp [namesOf, Event.map]⟩
  · rintro ⟨trace, outcome, hrun, answer, later, hsplit⟩
    obtain ⟨before, after, rfl, rfl, hafter⟩ := List.map_eq_append_iff.1 hsplit
    obtain ⟨e, later, rfl, he, rfl⟩ := List.map_eq_cons_iff.1 hafter
    have hwalk := (walks_iff_run hss hentry).2 ⟨_, outcome, hrun, e.answer, later, rfl⟩
    have hpath := hwalk.path hd .entry
    rwa [show (f e.place).name = name from congrArg Event.place he] at hpath

/-- A loop whose body may return: twice around and out, and once around to the return. -/
theorem paths_are_runs_loop : ∃ text τ f d first,
    (chartOf { simplify := false } ([.whileTrue (.name "x") [.branch (.name "y")
      [.giveBack (some (.name "z"))] [.pass]] [], .pass].map .stmt) >>= chartText) {} = .ok text τ ∧
    text = d.text ∧ d.nodes.head? = some first ∧
    Path d first.name (namesOf f [⟨⟨[0], 0⟩, some true⟩, ⟨⟨[0, 0, 0], 0⟩, some false⟩,
      ⟨⟨[0, 1, 0, 0, 0], 0⟩, none⟩, ⟨⟨[0], 0⟩, some false⟩]) (f ⟨[1], 0⟩).name ∧
    Path d first.name (namesOf f [⟨⟨[0], 0⟩, some true⟩, ⟨⟨[0, 0, 0], 0⟩, some true⟩,
      ⟨⟨[0, 0, 0, 0, 0], 0⟩, none⟩]) (f ⟨[0, 0, 0, 0, 0], 1⟩).name := by
  obtain ⟨text, τ, hrun, f, d, first, htext, -, hfirst, hpaths⟩ :=
    paths_are_runs { simplify := false } rfl
      [.whileTrue (.name "x") [.branch (.name "y") [.giveBack (some (.name "z"))] [.pass]] [],
        .pass]
      (by decide) (by simp) {} sound_empty
  refine ⟨text, τ, f, d, first, hrun, htext, hfirst, (hpaths _ _).2 ?_, (hpaths _ _).2 ?_⟩
  · exact ⟨_, _, .proceed (.again rfl) (.proceed .no (.proceed (.simple rfl) .done .done) .done)
      (.proceed (.leave rfl) .done (.proceed (.simple rfl) .done .done)), _, _, rfl⟩
  · exact ⟨_, _, .leave (.again rfl) (.leave .yes .giveBack), _, _, rfl⟩

end CodeChart.Chart
