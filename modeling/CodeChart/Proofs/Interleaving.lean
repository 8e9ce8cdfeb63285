import Mathlib
import CodeChart.Proofs.Assembly
import CodeChart.Proofs.Traces

/-! Drawings in between. Two sessions take the same steps, and the second also draws charts on the
way. It comes to the same graph, with the traces of these drawings on its links, and its charts are
those of the first session with the traces shown. -/
namespace CodeChart.Session

open CodeChart.Graph Variables

/-- The answer to a step. -/
def Step.answer (step : Step) (state : State) : Except Fault Reply :=
  match step.run state.vars state.quiet with
  | .ok (_, reply) _ => .ok reply
  | .error f _ => .error f

/-- The nodes that the drawing of an item visits, and the fault that ends it if there is one. -/
def visitsFrom (s : Store) (item : Item) : List Nat × Option Fault :=
  let unable := ([], some (.noAttribute (s.kindOf item) "flowchart"))
  match item with
  | .node g =>
    match (s.node g).form with
    | .group .chart .. => s.preorderFrom (fun _ => true) [] [item]
    | _ => unable
  | _ => unable

def State.visits (state : State) (node : String) : List Nat × Option Fault :=
  visitsFrom state.store (state.vars.get node)

/-- The answer to a drawing. -/
def chartReply (fault : Option Fault) (d : Drawing) : Except Fault Reply :=
  match fault with
  | none => .ok (.value (.text d.text))
  | some f => .error f

/-- Two sessions of the same steps, the second with drawings in between, and the traces of these. -/
inductive Interleaved : List Trace → State → State → Prop where
  | start : Interleaved [] {} {}
  | step {traces state state'} (step : Step) : Interleaved traces state state' →
      step.Builds state.vars → Interleaved traces (step.after state) (step.after state')
  | draw {traces state state'} (node : String) : Interleaved traces state state' →
      Interleaved (state.store.traces (state.visits node).1 ++ traces) state
        ((Step.ask node .chart).after state')

variable {σ τ : Store} {vars : Variables} {traces : List Trace}

section

variable (h : Traced traces σ τ)
include h

theorem newNode_agree {act : Action Nat} {σ' τ' : Store} (hσ : act σ = .ok σ.nodes.size σ')
    (hτ : act τ = .ok τ.nodes.size τ') (h' : Traced traces σ' τ') :
    Agree traces Eq σ τ (Item.node <$> act) (Item.node <$> act) :=
  .of_ok (map_ok hσ) (map_ok hτ) (by rw [h.size]) h'

theorem newGroup_agree (role : GroupRole) (head : Item) (tails : List Item) :
    Agree traces Eq σ τ (Item.node <$> newGroup role head tails)
      (Item.node <$> newGroup role head tails) := by
  have h' := h.withGroup role head tails none
  cases head with
  | link l =>
    exact .of_error (map_error (newGroup_link_run σ role l tails none))
      (map_error (newGroup_link_run τ role l tails none)) h'
  | nothing =>
    exact newNode_agree h (newGroup_run σ role (by simp) tails none)
      (newGroup_run τ role (by simp) tails none) h'
  | node i =>
    exact newNode_agree h (newGroup_run σ role (by simp) tails none)
      (newGroup_run τ role (by simp) tails none) h'

theorem withNode_agree {α : Type} {related : α → α → Prop} (item : Item) (field : String)
    {act : Nat → Action α} (hact : ∀ i, item = .node i → Agree traces related σ τ (act i) (act i)) :
    Agree traces related σ τ (withNode item field act) (withNode item field act) := by
  cases item with
  | node i => exact hact i rfl
  | nothing => exact .lacks h _ _
  | link l => exact .lacks h _ _

theorem withGroup_agree {α : Type} {related : α → α → Prop} (item : Item) (field : String)
    {act : Nat → Action α} (hact : ∀ i, item = .node i → Agree traces related σ τ (act i) (act i)) :
    Agree traces related σ τ (withGroup item field act) (withGroup item field act) := by
  refine withNode_agree h item field fun i hi => ?_
  refine .of_eq (bind_ok (getNode_run σ i)) (bind_ok (getNode_run τ i)) ?_
  rw [isGroup_eq_of_bare (h.bare i)]
  split
  · exact hact i hi
  · exact .lacks h _ _

variable (hσ : σ.Sound) (hτ : τ.Sound)
include hσ hτ

theorem makeNode_agree (blueprint : Blueprint) :
    Agree traces Eq σ τ (makeNode vars blueprint) (makeNode vars blueprint) := by
  cases blueprint with
  | blank => exact newNode_agree h rfl rfl (h.withBox ..)
  | start name => exact newNode_agree h rfl rfl (h.withBox ..)
  | finish name => exact newNode_agree h rfl rfl (h.withBox ..)
  | operation text => exact newNode_agree h rfl rfl (h.withBox ..)
  | subroutine text => exact newNode_agree h rfl rfl (h.withBox ..)
  | exchange way text => exact newNode_agree h rfl rfl (h.withBox ..)
  | decision text alignNext =>
    have hnew : Agree traces Eq σ τ (newDecision .plain text) (newDecision .plain text) :=
      .of_ok rfl rfl h.size.symm (h.withDecision ..)
    refine hnew.bind (newDecision_keeps hσ .plain text none)
      (newDecision_keeps hτ .plain text none) fun i j σ₁ τ₁ hij h₁ hσ₁ hτ₁ => ?_
    subst hij
    cases alignNext with
    | true => exact .of_ok rfl rfl rfl h₁
    | false =>
      refine (breakAlignment_agree h₁ (.node i)).bind (breakAlignment_keeps hσ₁.sound _)
        (breakAlignment_keeps hτ₁.sound _) fun _ _ σ₂ τ₂ _ h₂ _ _ => ?_
      exact .of_ok rfl rfl rfl h₂
  | bridge parent child labels => exact newNode_agree h rfl rfl (h.withBridge ..)
  | answer test word target => exact newNode_agree h rfl rfl (h.withBridge ..)
  | group head tails => exact newGroup_agree h .plain _ _
  | chart head => exact newGroup_agree h .chart _ _
  | link target labels =>
    refine .of_ok (map_ok (addLink_run σ _ labels)) (map_ok (addLink_run τ _ labels)) ?_
      (h.pushLink ⟨_, labels⟩)
    rw [h.linkCount]

theorem lookAt_agree (item : Item) :
    Agree traces (fun _ _ => True) σ τ (lookAt item) (lookAt item) := by
  obtain ⟨reply, hrun⟩ := lookAt_run hσ item
  obtain ⟨reply', hrun'⟩ := lookAt_run hτ item
  exact .of_ok hrun hrun' trivial h

theorem connectBy_agree (i : Nat) (way : Way) {target : Item} (ht : target.Within σ)
    (labels : List Label) :
    Agree traces (fun _ _ => True) σ τ (connectBy i way target labels)
      (connectBy i way target labels) := by
  cases way with
  | plain => exact connect_agree h hσ hτ i ht labels
  | answer a =>
    refine .of_eq (bind_ok (getNode_run σ i)) (bind_ok (getNode_run τ i)) ?_
    rw [isDecision_eq_of_bare (h.bare i)]
    split
    · rename_i hdecision
      have hi := lt_size_of_isDecision hdecision
      refine (connectAnswer_agree h hσ hτ i a ht _).bind (connectAnswer_keeps hσ hi a ht _)
        (connectAnswer_keeps hτ (h.size ▸ hi) a (h.within ht) _) fun _ _ σ₁ τ₁ _ h₁ _ _ => ?_
      exact .of_ok rfl rfl trivial h₁
    · exact .lacks h _ _

end

theorem change_agree (item : Item) {act : Action Unit}
    (ha : Agree traces (fun _ _ => True) σ τ act act) (hk : Keeps σ act fun _ _ => True)
    (hk' : Keeps τ act fun _ _ => True) :
    Agree traces (fun p q => q.1 = p.1) σ τ (do return (vars, ← change item act))
      (do return (vars, ← change item act)) := by
  have hlook : ∀ {υ}, Keeps υ act (fun _ _ => True) → Keeps υ (change item act) fun _ _ =>
      True := by
    intro υ hυ
    refine hυ.bind fun _ υ₁ hυ₁ _ => ?_
    exact (lookAt_keeps hυ₁.sound item).mono fun _ _ _ => trivial
  have hchange : Agree traces (fun _ _ => True) σ τ (change item act) (change item act) := by
    refine ha.bind hk hk' fun _ _ σ₁ τ₁ _ h₁ hσ₁ hτ₁ => ?_
    exact lookAt_agree h₁ hσ₁.sound hτ₁.sound item
  refine hchange.bind (hlook hk) (hlook hk') fun _ _ σ₁ τ₁ _ h₁ _ _ => ?_
  exact .of_ok rfl rfl rfl h₁

section

variable (h : Traced traces σ τ) (hσ : σ.Sound) (hτ : τ.Sound)
include h hσ hτ

section

variable (item : Item) (field : String) {act : Nat → Action Unit}
  (ha : ∀ i, Agree traces (fun _ _ => True) σ τ (act i) (act i))
  (hk : ∀ i, Keeps σ (act i) fun _ _ => True) (hk' : ∀ i, Keeps τ (act i) fun _ _ => True)
include ha hk hk'

theorem changeNode_agree :
    Agree traces (fun p q => q.1 = p.1) σ τ
      (do return (vars, ← change item (withNode item field act)))
      (do return (vars, ← change item (withNode item field act))) :=
  change_agree item (withNode_agree h item field fun i _ => ha i)
    (withNode_keeps hσ item field fun i _ => hk i) (withNode_keeps hτ item field fun i _ => hk' i)

theorem changeGroup_agree :
    Agree traces (fun p q => q.1 = p.1) σ τ
      (do return (vars, ← change item (withGroup item field act)))
      (do return (vars, ← change item (withGroup item field act))) :=
  change_agree item (withGroup_agree h item field fun i _ => ha i)
    (withGroup_keeps hσ item field fun i _ => hk i) (withGroup_keeps hτ item field fun i _ => hk' i)

end

theorem Step.run_agree (hv : vars.Within σ) {step : Step} (hb : step.Builds vars) :
    Agree traces (fun p q => q.1 = p.1) σ τ (step.run vars) (step.run vars) := by
  have hv' : vars.Within τ := fun p hp => h.within (hv p hp)
  cases step with
  | make var blueprint =>
    refine (makeNode_agree h hσ hτ blueprint).bind (makeNode_keeps hσ hv hb)
      (makeNode_keeps hτ hv' hb) fun item _ σ₁ τ₁ hitem h₁ hσ₁ hτ₁ => ?_
    subst hitem
    refine (lookAt_agree h₁ hσ₁.sound hτ₁.sound item).bind (lookAt_keeps hσ₁.sound item)
      (lookAt_keeps hτ₁.sound item) fun _ _ σ₂ τ₂ _ h₂ _ _ => ?_
    exact .of_ok rfl rfl rfl h₂
  | look node =>
    refine (lookAt_agree h hσ hτ (vars.get node)).bind (lookAt_keeps hσ _) (lookAt_keeps hτ _)
      fun _ _ σ₁ τ₁ _ h₁ _ _ => ?_
    exact .of_ok rfl rfl rfl h₁
  | connect node way target labels =>
    have ht := within_resolve hv target
    exact changeNode_agree h hσ hτ _ _ (connectBy_agree h hσ hτ · way ht labels)
      (connectBy_keeps hσ · way ht labels) (connectBy_keeps hτ · way (h.within ht) labels)
  | setDirection node value =>
    exact changeNode_agree h hσ hτ _ _ (setDirection_agree h · value)
      (setDirection_keeps hσ · value)
      (setDirection_keeps hτ · value)
  | setParam node key value =>
    exact changeNode_agree h hσ hτ _ _ (setParam_agree h · key value)
      (setParam_keeps hσ · key value)
      (setParam_keeps hτ · key value)
  | addLabel node value =>
    simp only [Step.run]
    cases vars.get node with
    | node i => exact .lacks h _ _
    | nothing => exact .lacks h _ _
    | link l =>
      exact change_agree _ (.of_ok rfl rfl trivial (h.addLabel l value))
        (addLabel_keeps hσ l value) (addLabel_keeps hτ l value)
  | setName node value =>
    refine changeNode_agree h hσ hτ _ _ (fun i => ?_) (setName_keeps hσ · value)
      (setName_keeps hτ · value)
    refine .of_ok rfl rfl trivial (h.mapPlain i (fun n => ?_) (fun n => ?_) fun n => ?_)
    · split <;> rfl
    · split <;> rfl
    · have hgroup : n.bare.isGroup = n.isGroup := by
        cases hf : n.form <;> simp [Node.isGroup, Node.bare, Form.bare, Form.isGroup, hf]
      rw [hgroup]
      split <;> rfl
  | setText node value =>
    refine changeNode_agree h hσ hτ _ _ (fun i => ?_) (setText_keeps hσ · value)
      (setText_keeps hτ · value)
    exact .of_ok rfl rfl trivial (h.mapPlain i (fun _ => rfl) (fun _ => rfl) fun _ => rfl)
  | setHead node target =>
    have ht := within_resolve hv target
    exact changeGroup_agree h hσ hτ _ _ (moveHead_agree h · _) (moveHead_keeps hσ · ht)
      (moveHead_keeps hτ · (h.within ht))
  | appendTail node target =>
    exact changeGroup_agree h hσ hτ _ _ (setTails_agree h · _)
      (appendTails_keeps hσ · (by simpa using within_resolve hv target))
      (appendTails_keeps hτ · (by simpa using within_resolve hv' target))
  | extendTails node target =>
    exact changeGroup_agree h hσ hτ _ _ (setTails_agree h · _)
      (appendTails_keeps hσ · (within_map_resolve hv target))
      (appendTails_keeps hτ · (within_map_resolve hv' target))
  | _ => exact hb.elim

end

theorem askNode_chart_run (hσ : σ.Sound) (g : Nat) :
    ∃ υ, Drawn (σ.traces (visitsFrom σ (.node g)).1) σ υ ∧
      askNode g .chart σ = ended (visitsFrom σ (.node g)).2
        (some (.text (σ.drawing (visitsFrom σ (.node g)).1).text)) υ := by
  unfold askNode visitsFrom
  rw [bind_ok (getNode_run σ g)]
  dsimp only
  split
  next role head tails d c hf =>
    obtain ⟨υ, hυ, hrun⟩ := Redrawn.chartText_ended hσ (isGroup_of_form hf) Prod.mk.eta.symm
    refine ⟨υ, hυ, ?_⟩
    rw [hf]
    exact bind_ended hrun rfl
  next hother =>
    refine ⟨σ, .refl σ, ?_⟩
    cases hf : (σ.node g).form with
    | group role head tails d c =>
      cases role with
      | chart => exact (hother _ _ _ _ hf).elim
      | _ => rfl
    | _ => rfl

theorem ask_chart_run (hσ : σ.Sound) (vars : Variables) (node : String) :
    ∃ υ, Drawn (σ.traces (visitsFrom σ (vars.get node)).1) σ υ ∧
      (Step.ask node .chart).run vars σ = ended (visitsFrom σ (vars.get node)).2
        (vars, .value (.text (σ.drawing (visitsFrom σ (vars.get node)).1).text)) υ := by
  unfold Step.run
  dsimp only
  cases vars.get node with
  | nothing => exact ⟨σ, .refl σ, rfl⟩
  | link l => exact ⟨σ, .refl σ, rfl⟩
  | node g =>
    obtain ⟨υ, hυ, hrun⟩ := askNode_chart_run hσ g
    exact ⟨υ, hυ, bind_ended hrun rfl⟩

theorem visitsFrom_eq (h : Traced traces σ τ) (item : Item) :
    visitsFrom τ item = visitsFrom σ item := by
  unfold visitsFrom
  rw [kindOf_eq_of_bare h.bare, preorderFrom_eq_of_bare h.bare h.target h.size]
  cases item with
  | nothing => rfl
  | link l => rfl
  | node g =>
    obtain heq | ⟨role, _, _, _, _, _, _, hn, hm⟩ := form_of_bare_eq (h.bare g)
    · simp only [heq]
    · simp only [hn, hm]
      cases role <;> rfl

section

variable {state state' : State} {υ : Store}

theorem after_of_ok {step : Step} {reply : Reply}
    (h : step.run state.vars state.quiet = .ok (vars, reply) υ) :
    step.after state = ⟨υ, vars⟩ ∧ step.answer state = .ok reply := by
  rw [after_eq, Step.answer, h]
  exact ⟨rfl, rfl⟩

theorem after_of_error {step : Step} {fault : Fault}
    (h : step.run state.vars state.quiet = .error fault υ) :
    step.after state = ⟨υ, state.vars⟩ ∧ step.answer state = .error fault := by
  rw [after_eq, Step.answer, h]
  exact ⟨rfl, rfl⟩

theorem traced_quiet_right (h : Traced traces σ state.store) : Traced traces σ state.quiet :=
  ⟨h.size, h.linkCount, h.nextId, h.bare, h.target, h.labels, h.drawn⟩

theorem traced_quiet_left (h : Traced traces state.store τ) : Traced traces state.quiet τ :=
  ⟨h.size, h.linkCount, h.nextId, h.bare, h.target, h.labels, h.drawn⟩

theorem draw_of_sound (hs : state.store.Sound) (node : String) :
    ∃ υ, Drawn (state.store.traces (state.visits node).1) state.quiet υ ∧
      (Step.ask node .chart).after state = ⟨υ, state.vars⟩ ∧
      (Step.ask node .chart).answer state
        = chartReply (state.visits node).2 (state.store.drawing (state.visits node).1) := by
  have hvisits : visitsFrom state.quiet (state.vars.get node) = state.visits node :=
    visitsFrom_eq (traced_quiet_right (.refl state.store)) _
  have hdrawing : ∀ order, state.quiet.drawing order = state.store.drawing order := by
    apply drawing_eq_of_labels hs
    · rfl
    · exact fun _ => rfl
    · exact fun _ => rfl
    · exact fun _ _ _ => id
    · exact fun _ _ _ => .inl
  obtain ⟨υ, hυ, hrun⟩ := ask_chart_run (sound_quiet hs) state.vars node
  rw [hvisits] at hυ hrun
  rw [hdrawing] at hrun
  refine ⟨υ, hυ, ?_⟩
  cases hfault : (state.visits node).2 with
  | none =>
    rw [hfault] at hrun
    exact after_of_ok hrun
  | some f =>
    rw [hfault] at hrun
    exact after_of_error hrun

theorem Assembled.draw (h : Assembled state) (node : String) :
    ∃ υ, Drawn (state.store.traces (state.visits node).1) state.quiet υ ∧
      (Step.ask node .chart).after state = ⟨υ, state.vars⟩ ∧
      (Step.ask node .chart).answer state
        = chartReply (state.visits node).2 (state.store.drawing (state.visits node).1) :=
  draw_of_sound h.sound node

theorem traced_after (h : Traced traces state.store state'.store) (hs : state.store.Sound)
    (hs' : state'.store.Sound) (hv : state.vars.Within state.store)
    (hvars : state'.vars = state.vars) {step : Step} (hb : step.Builds state.vars) :
    Traced traces (step.after state).store (step.after state').store ∧
      (step.after state').vars = (step.after state).vars := by
  have hagree := Step.run_agree (traced_quiet_left (traced_quiet_right h)) (sound_quiet hs)
    (sound_quiet hs') hv hb
  obtain ⟨⟨vars, _⟩, ⟨vars', _⟩, σ, τ, ha, hb, hr, ht⟩ | ⟨f, σ, τ, ha, hb, ht⟩ := hagree.cases
  · rw [← hvars] at hb
    rw [(after_of_ok ha).1, (after_of_ok hb).1]
    exact ⟨ht, hr⟩
  · rw [← hvars] at hb
    rw [(after_of_error ha).1, (after_of_error hb).1]
    exact ⟨ht, hvars⟩

/-- The second session has the graph of the first with traces on it. -/
structure Matched (traces : List Trace) (state state' : State) : Prop where
  assembled : Assembled state
  assembled' : Assembled state'
  traced : Traced traces state.store state'.store
  vars : state'.vars = state.vars

namespace Matched

variable (h : Matched traces state state')
include h

theorem visits_eq (node : String) : state'.visits node = state.visits node := by
  rw [State.visits, h.vars]
  exact visitsFrom_eq h.traced _

theorem step {step : Step} (hb : step.Builds state.vars) :
    Matched traces (step.after state) (step.after state') := by
  have hassembled := h.assembled.step step hb.assembles
  have hassembled' := h.assembled'.step step (h.vars ▸ hb.assembles)
  obtain ⟨htraced, hvars⟩ := traced_after h.traced h.assembled.sound h.assembled'.sound
    h.assembled.firm.2 h.vars hb
  exact ⟨hassembled, hassembled', htraced, hvars⟩

theorem draw (node : String) :
    Matched (state.store.traces (state.visits node).1 ++ traces) state
      ((Step.ask node .chart).after state') := by
  have hassembled' := h.assembled'.step (.ask node .chart) trivial
  obtain ⟨υ, hυ, hafter, -⟩ := h.assembled'.draw node
  rw [hafter] at hassembled' ⊢
  rw [h.visits_eq] at hυ
  exact ⟨h.assembled, hassembled', (traced_quiet_right h.traced).redrawn hυ, h.vars⟩

end Matched

theorem Interleaved.matched (h : Interleaved traces state state') :
    Matched traces state state' := by
  induction h with
  | start => exact ⟨.start, .start, .refl _, rfl⟩
  | step step _ hb ih => exact ih.step hb
  | draw node _ ih => exact ih.draw node

/-- A chart after drawings in between shows the same nodes and the same lines, and on each line also
the directions that its node had at these drawings. It is the same chart if all of them are still in
force. -/
theorem chart_of_interleaved (h : Interleaved traces state state') (node : String) :
    (Step.ask node .chart).answer state
        = chartReply (state.visits node).2 (state.store.drawing (state.visits node).1) ∧
      (Step.ask node .chart).answer state' = chartReply (state.visits node).2
        ((state.store.withTraces traces).drawing (state.visits node).1) ∧
      ((∀ t ∈ traces, isGiven t.label = true → (state.store.node t.node).direction = t.label) →
        (Step.ask node .chart).answer state' = (Step.ask node .chart).answer state) := by
  have hm := h.matched
  obtain ⟨_, -, -, hanswer⟩ := hm.assembled.draw node
  obtain ⟨_, -, -, hanswer'⟩ := hm.assembled'.draw node
  rw [hm.visits_eq, hm.traced.drawing_eq hm.assembled'.sound] at hanswer'
  refine ⟨hanswer, hanswer', ?_⟩
  intro hforce
  rw [hanswer, hanswer', hm.traced.drawing_withTraces hm.assembled.sound hforce]

/-- A chart of two operations is drawn in between, while the first points to the left. As long as it
does, the charts are the same; when the direction is taken back, only one of them loses it. -/
theorem chart_of_interleaved_left : ∃ state state',
    Interleaved [⟨0, 0, some "left"⟩] state state' ∧
      (Step.ask "all" .chart).answer state' = (Step.ask "all" .chart).answer state ∧
      (Step.ask "all" .chart).answer ((Step.setDirection "first" none).after state)
        = .ok (.value (.text "op0=>operation: x\nop1=>operation: y\n\nop0->op1\n")) ∧
      (Step.ask "all" .chart).answer ((Step.setDirection "first" none).after state')
        = .ok (.value (.text "op0=>operation: x\nop1=>operation: y\n\nop0(left)->op1\n")) := by
  have h₁ := Interleaved.start.step (.make "first" (.operation "x")) trivial
  have h₂ := h₁.step (.make "second" (.operation "y")) trivial
  have h₃ := h₂.step (.connect "first" .plain (some "second") []) trivial
  have h₄ := h₃.step (.make "all" (.chart (some "first"))) trivial
  have h₅ := h₄.step (.setDirection "first" (some "left")) trivial
  generalize hs : Step.after _ _ = state at h₅
  have htraces : state.store.traces (state.visits "all").1 ++ [] = [⟨0, 0, some "left"⟩] := by
    have hvisits : state.visits "all" = ([0, 1], none) := by
      subst hs
      cbv
    rw [hvisits]
    subst hs
    rfl
  have hvisits : ((Step.setDirection "first" none).after state).visits "all" = ([0, 1], none) := by
    subst hs
    cbv
  have h := h₅.draw "all"
  rw [htraces] at h
  have hreply : ∀ {d : Drawing} {text : String}, d.text = text →
      chartReply none d = .ok (.value (.text text)) := by
    rintro d _ rfl
    rfl
  have hback := h.step (.setDirection "first" none) trivial
  obtain ⟨hplain, hleft, -⟩ := chart_of_interleaved hback "all"
  rw [hvisits] at hplain hleft
  refine ⟨state, _, h, (chart_of_interleaved h "all").2.2 ?_,
    hplain.trans (hreply ?_), hleft.trans (hreply ?_)⟩
  · subst hs
    decide
  · subst hs
    decide +kernel
  · subst hs
    decide +kernel

end

end CodeChart.Session
