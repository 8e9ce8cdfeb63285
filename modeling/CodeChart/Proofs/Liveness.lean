import CodeChart.Proofs.Charts

/-! Live code. A statement is live if every statement before it, in its own suite and in those
around it, can complete. The chart of code shows all of its live statements, each by a box of its
own or by the one box of the branch or loop whose body it is. -/
namespace CodeChart.Code

/-- How code is read. `loopElse`: the suite that runs when a loop has ended counts as code.
`bodies`: a definition completes only if its body does. -/
structure Reading where
  loopElse : Bool
  bodies : Bool

mutual

def Stmt.completes (bodies : Bool) : Stmt → Bool
  | .function false _ _ _ body _ _ => !bodies || (!body.isEmpty && completesAll bodies body)
  | .branch _ body orelse => completesAll bodies body || completesAll bodies orelse
  | .giveBack _ => false
  | .stop => false
  | .next => false
  | .lacking _ s => s.completes bodies
  | _ => true

def completesAll (bodies : Bool) : List Stmt → Bool
  | [] => true
  | s :: rest => s.completes bodies && completesAll bodies rest

end

variable (r : Reading) (p : List Nat) (t : Stmt)

mutual

/-- Statement `t` stands at path `p` inside the statement at `path`, and is live there. -/
def LiveIn (path : List Nat) : Stmt → Prop
  | .function false _ _ _ body _ _ => LiveAmong (0 :: path) 0 body
  | .forEach false _ _ body orelse =>
    LiveAmong (0 :: path) 0 body ∨ r.loopElse = true ∧ LiveAmong (1 :: path) 0 orelse
  | .whileTrue _ body orelse =>
    LiveAmong (0 :: path) 0 body ∨ r.loopElse = true ∧ LiveAmong (1 :: path) 0 orelse
  | .branch _ body orelse => LiveAmong (0 :: path) 0 body ∨ LiveAmong (1 :: path) 0 orelse
  | .select _ cases => LiveAmongCases path 0 cases
  | .lacking _ s => LiveIn path s
  | _ => False

/-- Statement `t` stands at path `p` among the statements of a suite from an index on, or inside one
of them, and is live if the first of them is. -/
def LiveAmong (path : List Nat) (i : Nat) : List Stmt → Prop
  | [] => False
  | s :: rest => (p = i :: path ∧ t = s) ∨ LiveIn (i :: path) s ∨
      s.completes r.bodies = true ∧ LiveAmong path (i + 1) rest

def LiveInCase (path : List Nat) (i : Nat) : Case → Prop
  | .mk _ _ body => LiveAmong (i :: path) 0 body
  | .lacking _ c => LiveInCase path i c

def LiveAmongCases (path : List Nat) (i : Nat) : List Case → Prop
  | [] => False
  | c :: rest => LiveInCase path i c ∨ LiveAmongCases path (i + 1) rest

end

end CodeChart.Code

namespace CodeChart.Chart

open CodeChart.Graph Code

/-- A reached box of the statement at a path, or the box of the branch or loop whose body it is. -/
def Represented (xs : List (Vertex Spot)) (e : Spot) (merged : List Spot) (p : List Nat) : Prop :=
  ∃ v, Reached xs e v ∧ (v.path = p ∨ v ∈ merged ∧ ∃ i, p = i :: 0 :: v.path)

/-- Live code as far as charts promise to show it. -/
def drawnReading : Reading := ⟨false, true⟩

section

variable {V : Type} {xs : List (Vertex V)} {e v w : V}

theorem reached_of_exit {labels : List String} {next : Option V}
    (hx : (Vertex.box v (some ⟨labels, none⟩)).lead next ∈ xs) (hv : Reached xs e v)
    (hw : next = some w) : Reached xs e w := by
  subst hw
  exact .arrow (x := .box v (some ⟨labels, some w⟩)) hv hx (List.mem_singleton.2 rfl) rfl

theorem reached_of_arrow {labels : List String} {next : Option V}
    (hx : (Vertex.box v (some ⟨labels, some w⟩)).lead next ∈ xs) (hv : Reached xs e v) :
    Reached xs e w :=
  .arrow (x := .box v (some ⟨labels, some w⟩)) hv hx (List.mem_singleton.2 rfl) rfl

theorem reached_of_yes {yes no next : Option V}
    (hx : (Vertex.test v (some yes) no).lead next ∈ xs) (hv : Reached xs e v)
    (hw : yes.or next = some w) : Reached xs e w :=
  .arrow (x := .test v (some (yes.or next)) (no.or next)) hv hx
    (Flow.mem_arrows_test.2 (.inl ⟨_, rfl, rfl⟩)) hw

theorem reached_of_no {yes : Option (Option V)} {no next : Option V}
    (hx : (Vertex.test v yes no).lead next ∈ xs) (hv : Reached xs e v)
    (hw : no.or next = some w) : Reached xs e w :=
  .arrow (x := (Vertex.test v yes no).lead next) hv hx (Flow.mem_arrows_test.2 (.inr rfl)) hw

end

namespace Flow

variable {V : Type}

@[simp] theorem entry_ofLoop (simplify : Bool) (test : V) (body : List (Flow V)) :
    (ofLoop simplify test body).entry = test := by
  unfold ofLoop
  split <;> rfl

@[simp] theorem entry_ofBranch (simplify : Bool) (test : V) (body orelse : List (Flow V)) :
    (ofBranch simplify test body orelse).entry = test := by
  unfold ofBranch
  split <;> rfl

theorem isPlain_ofLoop (simplify : Bool) (test : V) (body : List (Flow V)) :
    (ofLoop simplify test body).isPlain = false := by
  unfold ofLoop
  split <;> rfl

theorem isPlain_ofBranch (simplify : Bool) (test : V) (body orelse : List (Flow V)) :
    (ofBranch simplify test body orelse).isPlain = false := by
  unfold ofBranch
  split <;> rfl

end Flow

theorem layoutCase_entry (path : List Nat) (i : Nat) (c : Case) :
    (layoutCase path i c).entry = ⟨path, i⟩ := by
  cases c with
  | mk pattern guard body => rfl
  | lacking part c => exact layoutCase_entry path i c

theorem entry_path (simplify : Bool) (path : List Nat) (s : Stmt) :
    (layout simplify path s).entry.path = path := by
  cases s with
  | function isAsync line name params body decorators result => cases isAsync <;> rfl
  | forEach isAsync target source body orelse =>
    cases isAsync with
    | true => rfl
    | false => rw [layout, Flow.entry_ofLoop]
  | whileTrue test body orelse => rw [layout, Flow.entry_ofLoop]
  | branch test body orelse => rw [layout, Flow.entry_ofBranch]
  | giveBack value => cases value <;> rfl
  | select subject cases =>
    cases cases with
    | nil => rfl
    | cons c rest => exact congrArg Spot.path (layoutCase_entry path 0 c)
  | lacking part s => exact entry_path simplify path s
  | _ => rfl

variable {r : Reading} {p : List Nat} {t : Stmt}

theorem not_liveIn_of_plain {simplify : Bool} {path : List Nat} {s : Stmt}
    (h : (layout simplify path s).isPlain = true) : ¬LiveIn r p t path s := by
  cases s with
  | function isAsync line name params body decorators result =>
    cases isAsync with
    | true => exact id
    | false => cases h
  | forEach isAsync target source body orelse =>
    cases isAsync with
    | true => exact id
    | false =>
      rw [layout, Flow.isPlain_ofLoop] at h
      cases h
  | whileTrue test body orelse =>
    rw [layout, Flow.isPlain_ofLoop] at h
    cases h
  | branch test body orelse =>
    rw [layout, Flow.isPlain_ofBranch] at h
    cases h
  | giveBack value => cases value <;> exact id
  | select subject cases =>
    cases cases with
    | nil => exact id
    | cons c rest => cases h
  | lacking part s => exact not_liveIn_of_plain (s := s) h
  | _ => exact id

section

variable {xs : List (Vertex Spot)} {e : Spot} {merged : List Spot} {next : Option Spot}
  {direction : List String} {simplify : Bool} {path : List Nat}

/-- A flow in a graph: its boxes are listed among the merged ones, and it is entered. -/
structure Entered (xs : List (Vertex Spot)) (e : Spot) (merged : List Spot) (next : Option Spot)
    (direction : List String) (u : Flow Spot) : Prop where
  placed : Flow.Placed xs next (Flow.vertices direction u)
  listed : ∀ v ∈ u.mergedBoxes, v ∈ merged
  entry : Reached xs e u.entry

structure EnteredAll (xs : List (Vertex Spot)) (e : Spot) (merged : List Spot) (next : Option Spot)
    (direction : List String) (us : List (Flow Spot)) : Prop where
  placed : Flow.Placed xs next (Flow.verticesAll direction us)
  listed : ∀ v ∈ Flow.mergedBoxesAll us, v ∈ merged
  entry : ∀ v, Flow.entryOf us = some v → Reached xs e v

def Passed (xs : List (Vertex Spot)) (e : Spot) (next : Option Spot) : Prop :=
  ∀ w, next = some w → Reached xs e w

/-- The first of a list of flows. -/
theorem EnteredAll.head {u : Flow Spot} {us : List (Flow Spot)}
    (h : EnteredAll xs e merged next direction (u :: us)) :
    ∃ direction', Entered xs e merged ((Flow.entryOf us).or next) direction' u := by
  obtain ⟨direction', -, hplaced⟩ := Flow.placed_head h.placed
  exact ⟨direction', hplaced, fun v hv => h.listed v (List.mem_append_left _ hv), h.entry _ rfl⟩

theorem EnteredAll.tail {u : Flow Spot} {us : List (Flow Spot)}
    (h : EnteredAll xs e merged next direction (u :: us))
    (hp : Passed xs e ((Flow.entryOf us).or next)) : EnteredAll xs e merged next direction us where
  placed := Flow.placed_tail h.placed
  listed v hv := h.listed v (List.mem_append_right _ hv)
  entry v hv := hp v (by rw [hv]; rfl)

section

variable {v : Spot} {body orelse : List (Flow Spot)}

theorem Entered.step (h : Entered xs e merged next direction (.step v)) : Passed xs e next :=
  fun _ hw => reached_of_exit h.placed.head h.entry hw

theorem Entered.joint {isBranch : Bool}
    (h : Entered xs e merged next direction (.merged isBranch v)) :
    v ∈ merged ∧ Reached xs e v ∧ Passed xs e next :=
  ⟨h.listed v List.mem_cons_self, h.entry, fun _ hw => reached_of_exit h.placed.head h.entry hw⟩

theorem Entered.branch (h : Entered xs e merged next direction (.branch v body orelse)) :
    EnteredAll xs e merged next [] body ∧ EnteredAll xs e merged next [] orelse ∧
      (body = [] ∨ orelse = [] → Passed xs e next) := by
  refine ⟨⟨h.placed.tail.left, fun w hw => h.listed w (List.mem_append_left _ hw), ?_⟩,
    ⟨h.placed.tail.right, fun w hw => h.listed w (List.mem_append_right _ hw), ?_⟩, ?_⟩
  · intro w hw
    exact reached_of_yes h.placed.head h.entry (by rw [hw]; rfl)
  · intro w hw
    exact reached_of_no h.placed.head h.entry (by rw [hw]; rfl)
  · rintro (rfl | rfl) w hw
    · exact reached_of_yes h.placed.head h.entry hw
    · exact reached_of_no h.placed.head h.entry hw

theorem Entered.loop (h : Entered xs e merged next direction (.loop v body)) :
    EnteredAll xs e merged (some v) ["left"] body ∧ Passed xs e next := by
  refine ⟨⟨h.placed.tail.of_lead, h.listed, fun w hw => ?_⟩, fun w hw => ?_⟩
  · exact reached_of_yes h.placed.head h.entry (by rw [hw]; rfl)
  · exact reached_of_no h.placed.head h.entry hw

theorem Entered.routine {input finish : Spot}
    (h : Entered xs e merged next direction (.routine v input body finish)) :
    EnteredAll xs e merged (some finish) [] body ∧
      (Passed xs e (some finish) → Passed xs e next) := by
  have hinput : Reached xs e input := reached_of_arrow h.placed.head h.entry
  refine ⟨⟨h.placed.tail.tail.left.of_lead, h.listed, fun w hw => ?_⟩, fun hfinish w hw => ?_⟩
  · have hplaced := h.placed.tail.head
    rw [hw] at hplaced
    exact reached_of_arrow hplaced hinput
  · exact reached_of_exit h.placed.tail.tail.right.head (hfinish finish rfl) hw

theorem Entered.case (h : Entered xs e merged next direction (.case v body)) :
    EnteredAll xs e merged next [] body ∧ Passed xs e next := by
  refine ⟨⟨h.placed.tail, h.listed, fun w hw => ?_⟩, fun w hw => ?_⟩
  · have hplaced := h.placed.head
    rw [hw] at hplaced
    exact reached_of_yes hplaced h.entry rfl
  · exact reached_of_no h.placed.head h.entry hw

theorem Entered.select {first : Flow Spot} {rest : List (Flow Spot)}
    (h : Entered xs e merged next direction (.select first rest)) :
    EnteredAll xs e merged next [] (first :: rest) where
  placed := h.placed
  listed := h.listed
  entry w hw := by
    cases hw
    exact h.entry

end

theorem completes_of_jump {bodies : Bool} {s : Stmt} {v : Spot}
    (h : layout simplify path s = .jump v) : s.completes bodies = false := by
  have hplain : (layout simplify path s).isPlain = true := by
    rw [h]
    rfl
  cases s with
  | function isAsync line name params body decorators result => cases isAsync <;> cases h
  | forEach isAsync target source body orelse =>
    cases isAsync with
    | true => cases h
    | false =>
      rw [layout, Flow.isPlain_ofLoop] at hplain
      cases hplain
  | whileTrue test body orelse =>
    rw [layout, Flow.isPlain_ofLoop] at hplain
    cases hplain
  | branch test body orelse =>
    rw [layout, Flow.isPlain_ofBranch] at hplain
    cases hplain
  | giveBack value => cases value <;> cases h
  | select subject cases => cases cases <;> cases h
  | stop => rfl
  | next => rfl
  | lacking part s => exact completes_of_jump (s := s) h
  | _ => cases h

/-- The only live statement of a suite that is drawn together with its test is the first. -/
theorem path_of_merged {i : Nat} {ss : List Stmt} {u : Flow Spot} {us : List (Flow Spot)}
    (h : layouts simplify path i ss = u :: us) (hplain : u.isPlain = true)
    (hlast : us = [] ∨ ∃ v, u = .jump v) (hlive : LiveAmong r p t path i ss) : p = i :: path := by
  cases ss with
  | nil => cases h
  | cons s rest =>
    rw [layouts] at h
    injection h with hu hus
    rcases hlive with ⟨rfl, -⟩ | hin | ⟨hcompletes, hlater⟩
    · rfl
    · exact absurd hin (not_liveIn_of_plain (by rwa [hu]))
    · rcases hlast with rfl | ⟨v, rfl⟩
      · cases rest with
        | nil => exact hlater.elim
        | cons s' rest => cases hus
      · rw [completes_of_jump hu] at hcompletes
        cases hcompletes

theorem eq_nil_of_layouts {i : Nat} {ss : List Stmt} (h : layouts simplify path i ss = []) :
    ss = [] := by
  cases ss with
  | nil => rfl
  | cons s rest => cases h

theorem represented_of_merged {i : Nat} (hm : (⟨path, 0⟩ : Spot) ∈ merged)
    (hv : Reached xs e ⟨path, 0⟩) (hp : p = i :: 0 :: path) : Represented xs e merged p :=
  ⟨⟨path, 0⟩, hv, .inr ⟨hm, i, hp⟩⟩

/-- A loop is passed, and its body is entered unless it is drawn together with the test. -/
theorem loop_live {body : List Stmt} (h : Entered xs e merged next direction
      (.ofLoop simplify ⟨path, 0⟩ (orIdleAt ⟨path, 1⟩ (layouts simplify (0 :: path) 0 body)))) :
    Passed xs e next ∧
      (EnteredAll xs e merged (some ⟨path, 0⟩) ["left"] (layouts simplify (0 :: path) 0 body) ∨
        ∀ p t, LiveAmong r p t (0 :: path) 0 body → Represented xs e merged p) := by
  cases hbody : layouts simplify (0 :: path) 0 body with
  | nil =>
    obtain rfl := eq_nil_of_layouts hbody
    rw [hbody] at h
    refine ⟨?_, .inr fun p t hlive => hlive.elim⟩
    unfold Flow.ofLoop at h
    split at h
    · exact h.joint.2.2
    · exact h.loop.2
  | cons u us =>
    rw [hbody] at h
    unfold Flow.ofLoop at h
    split at h
    · rename_i v heq
      obtain ⟨hmem, hreached, hpassed⟩ := h.joint
      injection heq with hu hus
      refine ⟨hpassed, .inr fun p t hlive => ?_⟩
      exact represented_of_merged hmem hreached
        (path_of_merged hbody (by rw [hu]; rfl) (.inl hus) hlive)
    · exact ⟨h.loop.2, .inl h.loop.1⟩

theorem branch_live {body orelse : List Stmt} (h : Entered xs e merged next direction
      (.ofBranch simplify ⟨path, 0⟩ (layouts simplify (0 :: path) 0 body)
        (layouts simplify (1 :: path) 0 orelse))) :
    (EnteredAll xs e merged next [] (layouts simplify (0 :: path) 0 body) ∧
      EnteredAll xs e merged next [] (layouts simplify (1 :: path) 0 orelse) ∧
      (body = [] ∨ orelse = [] → Passed xs e next)) ∨
    (Passed xs e next ∧ orelse = [] ∧
      ∀ p t, LiveAmong r p t (0 :: path) 0 body → Represented xs e merged p) := by
  unfold Flow.ofBranch at h
  split at h
  · rename_i v hbody horelse
    obtain ⟨hmem, hreached, hpassed⟩ := h.joint
    refine .inr ⟨hpassed, eq_nil_of_layouts horelse, fun p t hlive => ?_⟩
    exact represented_of_merged hmem hreached (path_of_merged hbody rfl (.inl rfl) hlive)
  · rename_i v us hbody horelse
    obtain ⟨hmem, hreached, hpassed⟩ := h.joint
    refine .inr ⟨hpassed, eq_nil_of_layouts horelse, fun p t hlive => ?_⟩
    exact represented_of_merged hmem hreached (path_of_merged hbody rfl (.inr ⟨v, rfl⟩) hlive)
  · obtain ⟨hbody, horelse, hpassed⟩ := h.branch
    refine .inl ⟨hbody, horelse, fun hempty => hpassed ?_⟩
    rcases hempty with rfl | rfl
    · exact .inl rfl
    · exact .inr rfl

end

section

variable {xs : List (Vertex Spot)} {e : Spot} {merged : List Spot}

mutual

/-- In a statement that is entered every live statement is shown, and if it completes then what
follows it is reached. -/
theorem layout_live {next : Option Spot} {direction : List String} {simplify : Bool}
    {path : List Nat} (s : Stmt) (h : Entered xs e merged next direction (layout simplify path s)) :
    (s.completes true = true → Passed xs e next) ∧
      ∀ p t, LiveIn drawnReading p t path s → Represented xs e merged p := by
  cases s with
  | function isAsync line name params body decorators result =>
    cases isAsync with
    | true => exact ⟨fun _ => h.step, fun p t hlive => hlive.elim⟩
    | false =>
      obtain ⟨hbody, hnext⟩ := Entered.routine h
      obtain ⟨hpassed, hlive⟩ := layouts_live body hbody
      refine ⟨fun hc => hnext ?_, hlive⟩
      obtain ⟨hne, hall⟩ : body ≠ [] ∧ completesAll true body = true := by
        simpa [Stmt.completes] using hc
      exact hpassed hne hall
  | forEach isAsync target source body orelse =>
    cases isAsync with
    | true => exact ⟨fun _ => h.step, fun p t hlive => hlive.elim⟩
    | false =>
      obtain ⟨hpassed, hbody⟩ := loop_live h
      refine ⟨fun _ => hpassed, fun p t hlive => ?_⟩
      rcases hlive with hlive | ⟨helse, -⟩
      · rcases hbody with hbody | hbody
        · exact (layouts_live body hbody).2 p t hlive
        · exact hbody p t hlive
      · cases helse
  | whileTrue test body orelse =>
    obtain ⟨hpassed, hbody⟩ := loop_live h
    refine ⟨fun _ => hpassed, fun p t hlive => ?_⟩
    rcases hlive with hlive | ⟨helse, -⟩
    · rcases hbody with hbody | hbody
      · exact (layouts_live body hbody).2 p t hlive
      · exact hbody p t hlive
    · cases helse
  | branch test body orelse =>
    rcases branch_live h with ⟨hbody, horelse, hempty⟩ | ⟨hpassed, rfl, hbody⟩
    · obtain ⟨hpassed, hlive⟩ := layouts_live body hbody
      obtain ⟨hpassed', hlive'⟩ := layouts_live orelse horelse
      refine ⟨fun hc => ?_, fun p t h => h.elim (hlive p t) (hlive' p t)⟩
      by_cases hne : body = [] ∨ orelse = []
      · exact hempty hne
      · rw [not_or] at hne
        obtain hc | hc : completesAll true body = true ∨ completesAll true orelse = true := by
          simpa [Stmt.completes] using hc
        · exact hpassed hne.1 hc
        · exact hpassed' hne.2 hc
    · exact ⟨fun _ => hpassed, fun p t h => h.elim (hbody p t) False.elim⟩
  | giveBack value =>
    exact ⟨fun hc => (nomatch hc), fun p t hlive => by cases value <;> exact hlive.elim⟩
  | select subject cases =>
    cases cases with
    | nil => exact ⟨fun _ => h.step, fun p t hlive => hlive.elim⟩
    | cons c rest =>
      obtain ⟨hpassed, hlive⟩ := layoutCases_live (c :: rest) (Entered.select h)
      exact ⟨fun _ => hpassed (by simp), hlive⟩
  | stop => exact ⟨fun hc => (nomatch hc), fun p t hlive => hlive.elim⟩
  | next => exact ⟨fun hc => (nomatch hc), fun p t hlive => hlive.elim⟩
  | lacking part s => exact layout_live s h
  | _ => exact ⟨fun _ => h.step, fun p t hlive => hlive.elim⟩

theorem layouts_live {next : Option Spot} {direction : List String} {simplify : Bool}
    {path : List Nat} (ss : List Stmt) {i : Nat}
    (h : EnteredAll xs e merged next direction (layouts simplify path i ss)) :
    (ss ≠ [] → completesAll true ss = true → Passed xs e next) ∧
      ∀ p t, LiveAmong drawnReading p t path i ss → Represented xs e merged p := by
  cases ss with
  | nil => exact ⟨fun hne => absurd rfl hne, fun p t hlive => hlive.elim⟩
  | cons s rest =>
    obtain ⟨direction', hs⟩ := h.head
    obtain ⟨hpassed, hin⟩ := layout_live s hs
    refine ⟨fun _ hc => ?_, fun p t hlive => ?_⟩
    · obtain ⟨hcs, hcrest⟩ : s.completes true = true ∧ completesAll true rest = true := by
        simpa [completesAll] using hc
      cases rest with
      | nil => exact hpassed hcs
      | cons s' rest =>
        exact (layouts_live (s' :: rest) (h.tail (hpassed hcs))).1 (by simp) hcrest
    · rcases hlive with ⟨rfl, rfl⟩ | hlive | ⟨hcs, hlive⟩
      · exact ⟨_, h.entry _ rfl, .inl (entry_path _ _ _)⟩
      · exact hin p t hlive
      · exact (layouts_live rest (h.tail (hpassed hcs))).2 p t hlive

theorem layoutCases_live {next : Option Spot} {direction : List String} {path : List Nat}
    (cs : List Case) {i : Nat}
    (h : EnteredAll xs e merged next direction (layoutCases path i cs)) :
    (cs ≠ [] → Passed xs e next) ∧
      ∀ p t, LiveAmongCases drawnReading p t path i cs → Represented xs e merged p := by
  cases cs with
  | nil => exact ⟨fun hne => absurd rfl hne, fun p t hlive => hlive.elim⟩
  | cons c rest =>
    obtain ⟨direction', hc⟩ := h.head
    obtain ⟨hpassed, hin⟩ := layoutCase_live c hc
    refine ⟨fun _ => ?_, fun p t hlive => ?_⟩
    · cases rest with
      | nil => exact hpassed
      | cons c' rest => exact (layoutCases_live (c' :: rest) (h.tail hpassed)).1 (by simp)
    · rcases hlive with hlive | hlive
      · exact hin p t hlive
      · exact (layoutCases_live rest (h.tail hpassed)).2 p t hlive

theorem layoutCase_live {next : Option Spot} {direction : List String} {path : List Nat} (c : Case)
    {i : Nat} (h : Entered xs e merged next direction (layoutCase path i c)) :
    Passed xs e next ∧ ∀ p t, LiveInCase drawnReading p t path i c → Represented xs e merged p := by
  cases c with
  | mk pattern guard body =>
    obtain ⟨hbody, hpassed⟩ := Entered.case h
    exact ⟨hpassed, (layouts_live body hbody).2⟩
  | lacking part c => exact layoutCase_live c h

end

end

/-- The drawing has a box of the statement at a path, or the one box of the branch or loop whose
body it is. -/
def ShownIn (ts : List (Flow Spot)) (f : Spot → Named) (d : Drawing) (p : List Nat) : Prop :=
  ∃ v ∈ Flow.placesAll ts, (f v).definition ∈ d.nodes ∧
    (v.path = p ∨ v ∈ Flow.mergedBoxesAll ts ∧ ∃ i, p = i :: 0 :: v.path)

theorem shownIn_of_represented {ts : List (Flow Spot)} {f : Spot → Named} {d : Drawing}
    {e : Spot} {p : List Nat} (he : Flow.entryOf ts = some e)
    (hd : Depicts (Flow.verticesAll [] ts) e f d)
    (h : Represented (Flow.verticesAll [] ts) e (Flow.mergedBoxesAll ts) p) : ShownIn ts f d p := by
  obtain ⟨v, hv, hp⟩ := h
  refine ⟨v, ?_, (hd.nodes _).2 ⟨v, hv, rfl⟩, hp⟩
  rw [← Flow.map_place_verticesAll [] ts]
  exact hv.mem (Flow.verticesAll_targets [] ts) (Flow.mem_of_entryOf [] ts he)

/-- The chart of a list of statements shows every statement that is live, suites that run at the end
of a loop aside. -/
theorem live_code_shown (options : Options) (ss : List Stmt) (hne : ss ≠ []) (σ : Store)
    (hσ : σ.Sound) :
    Realizes σ (chartOf options (ss.map .stmt) >>= chartText) (outlines options ss)
      fun text _ flows => ∃ f d, text = d.text ∧
        Portrays (layouts options.simplify [] 0 ss) (arrange options flows) f d ∧
        ∀ p t, LiveAmong drawnReading p t [] 0 ss →
          ShownIn (layouts options.simplify [] 0 ss) f d p := by
  refine (chart_stmts_realizes options ss hne hσ).mono fun text τ flows _ h => ?_
  obtain ⟨f, d, htext, hportrays, -⟩ := h
  obtain ⟨e, he, hd⟩ := hportrays.drawn
  refine ⟨f, d, htext, hportrays, fun p t hlive => shownIn_of_represented he hd ?_⟩
  refine (layouts_live ss ⟨Flow.placed_self _, fun v hv => hv, fun v hv => ?_⟩).2 p t hlive
  rw [he] at hv
  cases hv
  exact .entry

/-- A jump that is drawn together with its test, and what follows the loop around it. -/
theorem live_code_shown_jump : ∃ text τ f d,
    (chartOf {}
      ([.whileTrue (.name "x") [.branch (.name "y") [.stop] [], .pass] [], .pass].map .stmt)
      >>= chartText) {} = .ok text τ ∧ text = d.text ∧
    ShownIn [.loop ⟨[0], 0⟩ [.merged true ⟨[0, 0, 0], 0⟩, .step ⟨[1, 0, 0], 0⟩], .step ⟨[1], 0⟩] f d
      [0, 0, 0, 0, 0] ∧
    ShownIn [.loop ⟨[0], 0⟩ [.merged true ⟨[0, 0, 0], 0⟩, .step ⟨[1, 0, 0], 0⟩], .step ⟨[1], 0⟩] f d
      [1] := by
  obtain ⟨text, τ, hrun, f, d, htext, -, hshown⟩ := live_code_shown {}
    [.whileTrue (.name "x") [.branch (.name "y") [.stop] [], .pass] [], .pass]
      (by simp) {} sound_empty
  refine ⟨text, τ, f, d, hrun, htext, hshown _ .stop ?_, hshown _ .pass ?_⟩
  · exact .inr (.inl (.inl (.inr (.inl (.inl (.inl ⟨rfl, rfl⟩))))))
  · exact .inr (.inr ⟨rfl, .inl ⟨rfl, rfl⟩⟩)

/-- The statement that runs when a loop has ended is live code, and the drawing, whose one box is
the loop with its body, does not show it. -/
theorem loop_else_not_shown :
    LiveAmong ⟨true, false⟩ [0, 1, 0] (.expr (.name "b")) [] 0
      [.whileTrue (.name "x") [.expr (.name "a")] [.expr (.name "b")]] ∧
    ∃ text τ f d,
      (chartOf {} ([.whileTrue (.name "x") [.expr (.name "a")] [.expr (.name "b")]].map .stmt)
        >>= chartText) {} = .ok text τ ∧ text = d.text ∧
      Portrays [.merged false ⟨[0], 0⟩] [.merged false ⟨some .operation, "a while  x", []⟩] f d ∧
      ¬ShownIn [.merged false ⟨[0], 0⟩] f d [0, 1, 0] := by
  refine ⟨.inr (.inl (.inr ⟨rfl, .inl ⟨rfl, rfl⟩⟩)), ?_⟩
  obtain ⟨text, τ, hrun, f, d, htext, hportrays, -⟩ := chart_stmts_realizes {}
    [.whileTrue (.name "x") [.expr (.name "a")] [.expr (.name "b")]] (by simp) sound_empty
  refine ⟨text, τ, f, d, hrun, htext, hportrays, ?_⟩
  rintro ⟨v, hv, -, hp⟩
  obtain rfl : v = ⟨[0], 0⟩ := by simpa [Flow.placesAll, Flow.places] using hv
  rcases hp with hp | ⟨-, i, hp⟩
  · cases hp
  · simp at hp

end CodeChart.Chart
