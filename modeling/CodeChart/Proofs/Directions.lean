import CodeChart.Proofs.Alignment
import CodeChart.Proofs.Persistence

/-! Directions of connections. A direction that is given to a plain connection is drawn on its line.
A decision leads to an answer over a bridge, and the only line of the answer is that of the bridge;
a direction of the answer stays on the link to the bridge, for which there is no line. So charts are
the same with directions of answers and without them. Code gives directions only to lines that lead
back. -/
namespace CodeChart.Graph

variable {σ τ : Store} {traces : List Trace}

theorem isBridge_eq_of_bare {n m : Node} (h : n.bare = m.bare) :
    n.form.isBridge = m.form.isBridge :=
  apply_form_eq_of_bare h Form.isBridge fun _ _ _ _ _ _ _ => rfl

theorem form_of_isDecision {f : Form} (h : f.isDecision = true) :
    ∃ role yes no, f = .decision role yes no := by
  cases f with
  | decision role yes no => exact ⟨role, yes, no, rfl⟩
  | box _ => cases h
  | bridge _ _ _ _ _ => cases h
  | group _ _ _ _ _ => cases h

/-- A further label on the second store alone is a further trace. -/
theorem Traced.label (h : Traced traces σ τ) {i l : Nat} (hd : σ.Draws i l) (hl : l < σ.links.size)
    (label : Label) : Traced (⟨i, l, label⟩ :: traces) σ (τ.addLabel l label) where
  size := h.size
  linkCount := by simp [Store.addLabel, h.linkCount]
  nextId := h.nextId
  bare := h.bare
  target j := (τ.target_addLabel l j label).trans (h.target j)
  labels j x hx := by
    rw [τ.mem_addLabel, h.labels j x hx, h.linkCount]
    simp only [hl, true_and, List.mem_cons, exists_eq_or_imp]
    rw [or_assoc, or_comm (a := ∃ t ∈ traces, _), eq_comm (a := j), eq_comm (b := label)]
  drawn t ht := by
    rcases List.mem_cons.1 ht with rfl | ht
    · exact hd
    · exact h.drawn t ht

theorem link_withAnswer (s : Store) (i l : Nat) (a : Answer) (target : Item) (direction : Label) :
    (s.withAnswer i a target direction).link l = if l = s.links.size + 1
      then ⟨.node s.nodes.size, [some a.word, direction]⟩
      else (s.withBridge true (.node i) target [some a.word]).link l := by
  have hpush := (s.withBridge true (.node i) target [some a.word]).link_pushLink l
    ⟨.node s.nodes.size, [some a.word, direction]⟩
  rwa [Store.linkCount_withBridge] at hpush

theorem draws_withAnswer {i : Nat} (hi : i < σ.nodes.size) (hd : (σ.node i).draws = true)
    (a : Answer) (target : Item) (direction : Label) :
    (σ.withAnswer i a target direction).Draws i (σ.links.size + 1) := by
  have hold : (σ.withAnswerLink i a target direction).node i = σ.node i :=
    (σ.countId.pushLink ⟨target, [some a.word]⟩).node_pushNode_of_ne i _ (Nat.ne_of_lt hi)
  have hnode := (σ.withAnswerLink i a target direction).node_mapNode_self i
    (·.addAnswer a (σ.links.size + 1)) (Nat.lt_of_lt_of_le hi (by simp [Store.withAnswerLink]))
  unfold Store.Draws Store.withAnswer
  rw [hnode, hold, draws_addAnswer, ownLinks_addAnswer]
  refine ⟨hd, ?_⟩
  unfold Node.ownLinks
  unfold Node.draws at hd
  cases hf : (σ.node i).form <;> simp [hf] at hd ⊢

theorem Traced.direct (h : Traced traces σ τ) {i : Nat} (hi : i < σ.nodes.size)
    (hd : (σ.node i).draws = true) (a : Answer) (target : Item) (direction : Label) :
    Traced (⟨i, σ.links.size + 1, direction⟩ :: traces) (σ.withAnswer i a target (some ""))
      (τ.withAnswer i a target direction) := by
  have hsame :=
    (h.withAnswer i a target (some "")).label (draws_withAnswer hi hd a target (some ""))
      (by simp [Store.withAnswer]) direction
  refine ⟨hsame.size, ?_, hsame.nextId, hsame.bare, fun l => ?_, fun l x hx => ?_, hsame.drawn⟩
  · simp [Store.withAnswer, h.linkCount]
  · rw [← hsame.target l, Store.target_addLabel, link_withAnswer, link_withAnswer]
    split <;> rfl
  · rw [← hsame.labels l x hx, Store.mem_addLabel, link_withAnswer, link_withAnswer]
    by_cases hl : l = τ.links.size + 1
    · simp [hl, hx, Store.withAnswer, h.linkCount]
    · simp [hl, ← h.linkCount]

end CodeChart.Graph

namespace CodeChart.Session

open CodeChart.Graph Variables

/-- The field of a decision that keeps the connection of an answer. -/
def answerField : Answer → String
  | .yes => "connection_yes"
  | .no => "connection_no"

/-- Reads the connection of an answer. -/
def readAnswer (node : String) (a : Answer) (var : String) : Step :=
  .read node [.named (answerField a)] (some var)

/-- How two sessions go on. They take the same steps, but only the second gives directions to the
answers of decisions, with the connection or as a label later on. Bridges stay without names. -/
inductive Move : State × State → State × State → Prop where
  | step {p} (step : Step) : step.Builds p.1.vars → step.NamesNoBridge p.1 →
      Move p (step.after p.1, step.after p.2)
  | answer {p} (node : String) (a : Answer) (target : Ref) (direction : Label) :
      Move p ((Step.connect node (.answer a) target []).after p.1,
        (Step.connect node (.answer a) target [direction]).after p.2)
  | label {p} {i : Nat} (node : String) (a : Answer) (var : String) (value : Label) :
      p.1.vars.get node = .node i → (p.1.store.node i).form.isDecision = true →
      Move p ((readAnswer node a var).after p.1,
        (Step.addLabel var value).after ((readAnswer node a var).after p.2))

variable {σ τ : Store} {state : State} {node v : String} {i l : Nat} {a : Answer}

theorem change_run (vars : Variables) {act : Action Unit} (h : act σ = .ok () τ) (hτ : τ.Sound)
    (item : Item) :
    ∃ reply, (do return (vars, ← change item act) : Action (Variables × Reply)) σ
      = .ok (vars, reply) τ := by
  obtain ⟨reply, hrun⟩ := lookAt_run hτ item
  have hchange : change item act σ = .ok reply τ := (bind_ok h).trans hrun
  exact ⟨reply, bind_ok hchange⟩

theorem change_fails (vars : Variables) {act : Action Unit} {f : Fault} (h : act σ = .error f τ)
    (item : Item) :
    (do return (vars, ← change item act) : Action (Variables × Reply)) σ = .error f τ := by
  have hchange : change item act σ = .error f τ := bind_error h
  exact bind_error hchange

section

variable (hs : state.store.Sound) (target : Ref) (labels : List Label)

include hs in
theorem after_connect_answer (hv : state.vars.Within state.store)
    (hnode : state.vars.get node = .node i)
    (hdecision : (state.store.node i).form.isDecision = true) :
    (Step.connect node (.answer a) target labels).after state
      = ⟨state.quiet.withAnswer i a (state.vars.resolve target) (labels.headD (some "")),
        state.vars⟩ := by
  have ht : (state.vars.resolve target).Within state.quiet := within_resolve hv target
  have hrun : withNode (state.vars.get node) (Way.answer a).name
      (fun i => connectBy i (.answer a) (state.vars.resolve target) labels) state.quiet
        = .ok () (state.quiet.withAnswer i a (state.vars.resolve target)
          (labels.headD (some ""))) := by
    rw [hnode]
    refine (bind_ok (getNode_run state.quiet i)).trans ?_
    rw [if_pos (show (state.quiet.node i).form.isDecision = true from hdecision)]
    exact bind_ok (connectAnswer_run (sound_quiet hs) i a ht _)
  obtain ⟨reply, hreply⟩ := change_run state.vars hrun ((sound_quiet hs).withAnswer i a ht _)
    (state.vars.get node)
  have hstep : (Step.connect node (.answer a) target labels).run state.vars state.quiet
      = .ok (state.vars, reply) _ := hreply
  exact (after_of_ok hstep).1

theorem after_connect_answer_fails (hnode : ∀ i, state.vars.get node = .node i →
    (state.store.node i).form.isDecision = false) :
    (Step.connect node (.answer a) target labels).after state = ⟨state.quiet, state.vars⟩ := by
  have hrun : ∃ f, withNode (state.vars.get node) (Way.answer a).name
      (fun i => connectBy i (.answer a) (state.vars.resolve target) labels) state.quiet
        = .error f state.quiet := by
    cases hitem : state.vars.get node with
    | node i =>
      have hnot : (state.quiet.node i).form.isDecision = false := hnode i hitem
      refine ⟨.noAttribute (state.quiet.kindOf (.node i)) ("connect_" ++ a.word), ?_⟩
      refine (bind_ok (getNode_run state.quiet i)).trans ?_
      rw [hnot]
      rfl
    | nothing => exact ⟨_, rfl⟩
    | link l => exact ⟨_, rfl⟩
  obtain ⟨f, hfails⟩ := hrun
  have hstep : (Step.connect node (.answer a) target labels).run state.vars state.quiet
      = .error f state.quiet := change_fails state.vars hfails (state.vars.get node)
  exact (after_of_error hstep).1

include hs in
theorem after_addLabel (hvar : state.vars.get v = .link l) (value : Label) :
    (Step.addLabel v value).after state = ⟨state.quiet.addLabel l value, state.vars⟩ := by
  have hrun : modifyLink l (fun k => { k with labels := k.labels ++ [value] }) state.quiet
      = .ok () (state.quiet.addLabel l value) := rfl
  obtain ⟨reply, hreply⟩ := change_run state.vars hrun ((sound_quiet hs).mapLink rfl) (.link l)
  have hstep : (Step.addLabel v value).run state.vars state.quiet
      = .ok (state.vars, reply) (state.quiet.addLabel l value) := by
    simp only [Step.run, hvar]
    exact hreply
  exact (after_of_ok hstep).1

theorem after_addLabel_fails (hvar : state.vars.get v = .nothing) (value : Label) :
    (Step.addLabel v value).after state = ⟨state.quiet, state.vars⟩ := by
  have hstep : (Step.addLabel v value).run state.vars state.quiet
      = .error (.noAttribute "NoneType" "set_param") state.quiet := by
    simp only [Step.run, hvar]
    rfl
  exact (after_of_error hstep).1

def answerItem (a : Answer) (yes no : Item) : Item :=
  match a with
  | .yes => yes
  | .no => no

include hs in
theorem after_readAnswer (hnode : state.vars.get node = .node i) {role yes no}
    (hf : (state.store.node i).form = .decision role yes no) :
    (readAnswer node a v).after state = ⟨state.quiet, (v, answerItem a yes no) :: state.vars⟩ := by
  have hfield : itemField (.node i) (answerField a) state.quiet
      = .ok (.item (answerItem a yes no)) state.quiet := by
    have hform : (state.quiet.node i).form = .decision role yes no := hf
    have hwhole : (state.quiet.node i).absent = [] := (hs.fits i).whole
    have hwords : checkWords i (answerField a) state.quiet = .ok () state.quiet := by
      refine (bind_ok (getNode_run state.quiet i)).trans ?_
      rw [hform]
      rfl
    have hvalue : nodeField? state.quiet i (answerField a)
        = some (.item (answerItem a yes no)) := by
      cases a <;> simp [nodeField?, hwhole, answerField, hform, formField?, answerItem]
    have hget : (get : Action Store) state.quiet = .ok state.quiet state.quiet := rfl
    refine (bind_ok hwords).trans ((bind_ok hget).trans ?_)
    rw [hvalue]
    rfl
  have hstep : (readAnswer node a v).run state.vars state.quiet
      = .ok ((v, answerItem a yes no) :: state.vars,
          .value ((Value.item (answerItem a yes no)).show state.quiet)) state.quiet := by
    unfold readAnswer Step.run
    simp only [hnode]
    exact bind_ok (bind_ok hfield)
  exact (after_of_ok hstep).1

end

structure State.Tidy (state : State) : Prop where
  firm : state.store.Firm
  within : state.vars.Within state.store
  orderly : state.store.Orderly

namespace State.Tidy

theorem start : State.Tidy {} := ⟨⟨sound_empty, .empty⟩, by simp [Variables.Within], orderly_empty⟩

variable (h : state.Tidy)
include h

theorem sound : state.store.Sound := h.firm.sound

theorem step {step : Step} (hb : step.Builds state.vars) (hn : step.NamesNoBridge state) :
    (step.after state).Tidy ∧ Later state.store (step.after state).store := by
  obtain ⟨hfirm, hwithin⟩ := Step.after_firm h.firm h.within hb.assembles
  have hadvance := Step.after_advance h.sound h.within hb hn
  exact ⟨⟨hfirm, hwithin, hadvance.orderly h.orderly⟩, hadvance.later⟩

theorem connect (node : String) (way : Way) (target : Ref) (labels : List Label) :
    ((Step.connect node way target labels).after state).Tidy ∧
      Later state.store ((Step.connect node way target labels).after state).store :=
  h.step trivial trivial

theorem addLabel (var : String) (value : Label) : ((Step.addLabel var value).after state).Tidy ∧
    Later state.store ((Step.addLabel var value).after state).store :=
  h.step trivial trivial

section

variable {role : DecisionRole} {yes no : Item} (hf : (state.store.node i).form
  = .decision role yes no)
include hf

theorem draws : (state.store.node i).draws = true := by
  obtain ⟨rfl, -⟩ := (h.orderly i).decision role yes no hf
  simp [Node.draws, hf, DecisionRole.drawsNothing]

theorem leadsOver (a : Answer) :
    (state.store.node i).LeadsOver state.store (answerItem a yes no) := by
  obtain ⟨-, hyes, hno⟩ := (h.orderly i).decision role yes no hf
  cases a with
  | yes => exact hyes
  | no => exact hno

theorem readAnswer (hnode : state.vars.get node = .node i) (a : Answer) (var : String) :
    ((readAnswer node a var).after state).Tidy ∧
      Later state.store ((Session.readAnswer node a var).after state).store := by
  have hquiet : Advance state.store state.quiet := .of_same rfl rfl
  rw [after_readAnswer h.sound hnode hf]
  refine ⟨⟨(grown_quiet h.sound).firm h.firm, fun p hp => ?_, hquiet.orderly h.orderly⟩,
    hquiet.later⟩
  rcases List.mem_cons.1 hp with rfl | hp
  · intro j hj
    rcases h.leadsOver hf a with hnone | ⟨l, hlink, -⟩
    · exact nomatch hnone.symm.trans hj
    · exact nomatch hlink.symm.trans hj
  · exact h.within p hp

end

end State.Tidy

/-- The second session has the graph of the first with further labels, all of them on links to
bridges. -/
structure Paired (p : State × State) : Prop where
  tidy : p.1.Tidy
  tidy' : p.2.Tidy
  vars : p.2.vars = p.1.vars
  traced : ∃ lost, Traced lost p.1.store p.2.store ∧ ∀ t ∈ lost, p.1.store.ToBridge t.link

namespace Paired

variable {p q : State × State} (h : Paired p)
include h

theorem step {step : Step} (hb : step.Builds p.1.vars) (hn : step.NamesNoBridge p.1) :
    Paired (step.after p.1, step.after p.2) ∧ Later p.2.store (step.after p.2).store := by
  obtain ⟨lost, htraced, hlost⟩ := h.traced
  have hn' : step.NamesNoBridge p.2 := hn.congr h.vars fun i => isBridge_eq_of_bare (htraced.bare i)
  obtain ⟨htidy, hlater⟩ := h.tidy.step hb hn
  obtain ⟨htidy', hlater'⟩ := h.tidy'.step (h.vars ▸ hb) hn'
  obtain ⟨hafter, hvars⟩ := traced_after htraced h.tidy.sound h.tidy'.sound h.tidy.within h.vars hb
  exact ⟨⟨htidy, htidy', hvars, lost, hafter, fun t ht => (hlost t ht).later hlater⟩, hlater'⟩

theorem answer (node : String) (a : Answer) (target : Ref) (direction : Label) :
    Paired ((Step.connect node (.answer a) target []).after p.1,
        (Step.connect node (.answer a) target [direction]).after p.2) ∧
      Later p.2.store ((Step.connect node (.answer a) target [direction]).after p.2).store := by
  obtain ⟨lost, htraced, hlost⟩ := h.traced
  obtain ⟨htidy, hlater⟩ := h.tidy.connect node (.answer a) target []
  obtain ⟨htidy', hlater'⟩ := h.tidy'.connect node (.answer a) target [direction]
  have hquiet := traced_quiet_left (traced_quiet_right htraced)
  by_cases hdecision : ∃ i, p.1.vars.get node = .node i ∧ (p.1.store.node i).form.isDecision = true
  · obtain ⟨i, hnode, hdecision⟩ := hdecision
    have hnode' : p.2.vars.get node = .node i := h.vars ▸ hnode
    have hdecision' := (isDecision_eq_of_bare (htraced.bare i)).trans hdecision
    have hi := within_get h.tidy.within node i hnode
    obtain ⟨role, yes, no, hf⟩ := form_of_isDecision hdecision
    have hdraws : (p.1.quiet.node i).draws = true := h.tidy.draws hf
    have hafter :=
      after_connect_answer (a := a) h.tidy.sound target [] h.tidy.within hnode hdecision
    have hafter' :=
      after_connect_answer (a := a) h.tidy'.sound target [direction]
        h.tidy'.within hnode' hdecision'
    rw [h.vars] at hafter'
    rw [hafter] at htidy hlater ⊢
    rw [hafter'] at htidy' hlater' ⊢
    refine ⟨⟨htidy, htidy', rfl, _, hquiet.direct hi hdraws a _ direction, fun t ht => ?_⟩, hlater'⟩
    rcases List.mem_cons.1 ht with rfl | ht
    · exact Advance.toBridge_withAnswer i a _ _
    · exact (hlost t ht).later hlater
  · have hnot : ∀ i, p.1.vars.get node = .node i → (p.1.store.node i).form.isDecision = false := by
      intro i hnode
      by_contra htrue
      exact hdecision ⟨i, hnode, by simpa using htrue⟩
    have hnot' : ∀ i, p.2.vars.get node = .node i → (p.2.store.node i).form.isDecision = false := by
      intro i hnode
      rw [isDecision_eq_of_bare (htraced.bare i)]
      exact hnot i (h.vars ▸ hnode)
    rw [after_connect_answer_fails target [] hnot] at htidy hlater ⊢
    rw [after_connect_answer_fails target [direction] hnot'] at htidy' hlater' ⊢
    exact ⟨⟨htidy, htidy', h.vars, lost, hquiet, fun t ht => (hlost t ht).later hlater⟩, hlater'⟩

theorem label {i : Nat} (hnode : p.1.vars.get node = .node i)
    (hdecision : (p.1.store.node i).form.isDecision = true) (a : Answer) (var : String)
    (value : Label) :
    Paired ((readAnswer node a var).after p.1,
        (Step.addLabel var value).after ((readAnswer node a var).after p.2)) ∧
      Later p.2.store
        ((Step.addLabel var value).after ((readAnswer node a var).after p.2)).store := by
  obtain ⟨lost, htraced, hlost⟩ := h.traced
  obtain ⟨role, yes, no, hf⟩ := form_of_isDecision hdecision
  have hnode' : p.2.vars.get node = .node i := h.vars ▸ hnode
  have hf' : (p.2.store.node i).form = .decision role yes no :=
    (form_eq_of_bare (htraced.bare i) (by simp [Node.isGroup, hf, Form.isGroup])).trans hf
  obtain ⟨htidy, hlater⟩ := h.tidy.readAnswer hf hnode a var
  obtain ⟨htidy₁, hlater₁⟩ := h.tidy'.readAnswer hf' hnode' a var
  obtain ⟨htidy', hlater₂⟩ := htidy₁.addLabel var value
  have hlater' := hlater₁.trans hlater₂
  have hquiet := traced_quiet_left (traced_quiet_right htraced)
  have hread := after_readAnswer (a := a) (v := var) h.tidy'.sound hnode' hf'
  have hvar : ((readAnswer node a var).after p.2).vars.get var = answerItem a yes no := by
    rw [hread]
    simp [Variables.get]
  rw [after_readAnswer h.tidy.sound hnode hf] at htidy hlater ⊢
  rcases h.tidy.leadsOver hf a with hnone | ⟨l, hlink, hmem, hbridge⟩
  · rw [after_addLabel_fails (hvar.trans hnone), hread] at htidy' hlater' ⊢
    exact ⟨⟨htidy, htidy', by rw [h.vars], lost, hquiet, fun t ht => (hlost t ht).later hlater⟩,
      hlater'⟩
  · have hown : p.1.quiet.Draws i l := by
      refine ⟨h.tidy.draws hf, ?_⟩
      rw [hlink] at hmem
      exact (show (p.1.store.node i).ownLinks
        = (p.1.store.node i).links by simp [Node.ownLinks, hf]) ▸ hmem
    have hl : l < p.1.quiet.links.size := by
      obtain ⟨b, htarget, -⟩ := hbridge
      exact lt_linkCount_of_target htarget
    rw [after_addLabel htidy₁.sound (hvar.trans hlink), hread] at htidy' hlater' ⊢
    refine ⟨⟨htidy, htidy', by rw [h.vars], _, hquiet.label hown hl value, fun t ht => ?_⟩, hlater'⟩
    rcases List.mem_cons.1 ht with rfl | ht
    · exact hbridge.later hlater
    · exact (hlost t ht).later hlater

theorem move (hm : Move p q) : Paired q ∧ Later p.2.store q.2.store := by
  cases hm with
  | step step hb hn => exact h.step hb hn
  | answer node a target direction => exact h.answer node a target direction
  | label node a var value hnode hdecision => exact h.label hnode hdecision a var value

theorem moves (hm : Relation.ReflTransGen Move p q) : Paired q ∧ Later p.2.store q.2.store := by
  induction hm with
  | refl => exact ⟨h, .refl _⟩
  | tail _ hmove ih =>
    obtain ⟨hpaired, hlater⟩ := ih.1.move hmove
    exact ⟨hpaired, ih.2.trans hlater⟩

theorem drawing_eq (order : List Nat) : p.2.store.drawing order = p.1.store.drawing order := by
  obtain ⟨lost, htraced, hlost⟩ := h.traced
  rw [htraced.drawing_eq h.tidy'.sound]
  exact drawing_withTraces_of_labels h.tidy.sound (fun t ht _ _ _ => .inr (hlost t ht).veiled) order

theorem chart_eq (chart : String) :
    (Step.ask chart .chart).answer p.2 = (Step.ask chart .chart).answer p.1 := by
  obtain ⟨lost, htraced, -⟩ := h.traced
  obtain ⟨_, -, -, hanswer⟩ := draw_of_sound h.tidy.sound chart
  obtain ⟨_, -, -, hanswer'⟩ := draw_of_sound h.tidy'.sound chart
  have hvisits : p.2.visits chart = p.1.visits chart := by
    rw [State.visits, h.vars]
    exact visitsFrom_eq htraced _
  rw [hanswer, hanswer', hvisits, h.drawing_eq]

end Paired

theorem carries_of_connect (h : state.Tidy) (hnode : state.vars.get node = .node i) {j : Nat}
    (hr : Receives state.store i j) {target : Ref} {label : Label} {reply : Reply}
    (hok : (Step.connect node .plain target [label]).answer state = .ok reply) :
    ((Step.connect node .plain target [label]).after state).store.Carries j
      (state.vars.resolve target) label := by
  have hs := sound_quiet h.sound
  have ht : (state.vars.resolve target).Within state.quiet := within_resolve h.within target
  have hrun : withNode (state.vars.get node) Way.plain.name
      (fun i => connectBy i .plain (state.vars.resolve target) [label]) state.quiet
        = connectWithin (state.quiet.nodes.size + 1) i (state.vars.resolve target)
          [label] state.quiet := by
    rw [hnode]
    rfl
  cases hact : connectWithin (state.quiet.nodes.size + 1) i (state.vars.resolve target)
    [label] state.quiet with
  | error f τ =>
    have hstep : (Step.connect node .plain target [label]).run state.vars state.quiet
        = .error f τ :=
      change_fails state.vars (hrun.trans hact) (state.vars.get node)
    rw [(after_of_error hstep).2] at hok
    cases hok
  | ok u τ =>
    have hgrown := ((connectWithin_keeps (state.quiet.nodes.size + 1) hs i ht [label]).ok hact).1
    obtain ⟨reply', hreply⟩ :=
      change_run state.vars (hrun.trans hact) hgrown.sound (state.vars.get node)
    have hstep : (Step.connect node .plain target [label]).run state.vars state.quiet
        = .ok (state.vars, reply') τ := hreply
    rw [(after_of_ok hstep).1]
    have hquiet : Advance state.store state.quiet := .of_same rfl rfl
    exact connectWithin_carries _ hs ht (hr.later hquiet.later) hact

theorem carries_of_answer (h : state.Tidy) (hnode : state.vars.get node = .node i)
    (hdecision : (state.store.node i).form.isDecision = true) (target : Ref) (labels : List Label) :
    ((Step.connect node (.answer a) target labels).after state).store.Carries state.store.nodes.size
      (state.vars.resolve target) (some a.word) := by
  rw [after_connect_answer h.sound target labels h.within hnode hdecision]
  have hbridge :=
    state.quiet.node_withBridge (state.vars.resolve target) [some a.word] true (.node i)
  refine .inl (Store.node_mapNode_keeps _ i state.quiet.nodes.size _
    (P := fun n => ∃ answer parent child labels link,
      n.form = .bridge answer parent child labels link ∧ some a.word ∈ labels) ?_ fun _ => ?_)
  · exact ⟨_, _, _, _, _, congrArg Node.form hbridge, List.mem_singleton.2 rfl⟩
  · have hform :=
      congrArg (fun n : Node => (n.addAnswer a (state.quiet.links.size + 1)).form) hbridge
    refine ⟨true, .node i, state.vars.resolve target, [some a.word], .link state.quiet.links.size,
      hform.trans ?_, List.mem_singleton.2 rfl⟩
    cases a <;> rfl

/-- In every drawing that comes to node `j`, the line of its connection to the target has the
label. -/
def State.Shows (state : State) (j : Nat) (target : Item) (x : String) : Prop :=
  ∀ order p k, j ∈ order → state.store.ends j target = (.node p, .node k) →
    state.store.name k ≠ "" →
    ∃ labels, x ∈ labels ∧
      ⟨state.store.name p, labels, state.store.name k⟩ ∈ (state.store.drawing order).lines

theorem State.Tidy.shows (h : state.Tidy) {j : Nat} {target : Item} {x : String}
    (hc : state.store.Carries j target (some x)) (hx : x ≠ "") : state.Shows j target x := by
  intro order p k hj hends hk
  obtain ⟨labels, hmem, hline⟩ := hc.line h.sound h.orderly hx hends hk
  exact ⟨labels, hmem, List.mem_flatMap.2 ⟨j, hj, hline⟩⟩

section

open CodeChart.Chart CodeChart.Code Flow

/-- Which directions are drawn. In a graph that is put together by hand, a direction of a plain
connection stands on the line of each node that is connected by it, however the graph is changed
afterwards, and the word of an answer on the line of the answer. But with a direction of an answer,
all charts are the same as without it. In a chart of code, the yes line of a branch that is drawn as
a test has no other label, whatever the options are. -/
theorem directions_drawn {state state' : State}
    (h : Relation.ReflTransGen Move ({}, {}) (state, state')) (source : Source)
    {pieces : List Piece} (hpieces : source.pieces = .ok pieces) (hσ : σ.Sound) :
    (∀ chart, (Step.ask chart .chart).answer state' = (Step.ask chart .chart).answer state ∧
      (Step.ask chart .chart).answer state'
        = chartReply (state'.visits chart).2 (state'.store.drawing (state'.visits chart).1)) ∧
    (∀ node target x i j reply later later', x ≠ "" → state'.vars.get node = .node i →
      Receives state'.store i j → (Step.connect node .plain target [some x]).answer state'
        = .ok reply →
      Relation.ReflTransGen Move ((Step.connect node .plain target [some x]).after state,
        (Step.connect node .plain target [some x]).after state') (later, later') →
      later'.Shows j (state'.vars.resolve target) x) ∧
    (∀ node a target direction i later later', state'.vars.get node = .node i →
      (state'.store.node i).form.isDecision = true →
      Relation.ReflTransGen Move ((Step.connect node (.answer a) target []).after state,
        (Step.connect node (.answer a) target [direction]).after state') (later, later') →
      later'.Shows state'.store.nodes.size (state'.vars.resolve target) a.word) ∧
    Realizes σ source.draw (outlinePieces source.options pieces) fun text _ flows => ∃ f d entry,
      text = d.text ∧
      Portrays (layoutPieces source.options.simplify 0 pieces) (arrange source.options flows) f d ∧
      entryOf (layoutPieces source.options.simplify 0 pieces) = some entry ∧
      (∀ k ∈ d.lines, k.labels ∈ [[], ["left"], ["yes"], ["no"]]) ∧
      ∀ path s, stmtAt pieces path = some s → s.isBranch = true →
        ⟨path, 0⟩ ∈ placesAll (layoutPieces source.options.simplify 0 pieces) →
        (f ⟨path, 0⟩).definition.word = "condition" →
        DrawnAsTest (layoutPieces source.options.simplify 0 pieces) entry f d path s := by
  have hstart : Paired ({}, {}) := ⟨.start, .start, rfl, [], .refl _, by simp⟩
  have hpaired := (hstart.moves h).1
  refine ⟨fun chart => ?_, ?_, ?_, ?_⟩
  · obtain ⟨_, -, -, hanswer⟩ := draw_of_sound hpaired.tidy'.sound chart
    exact ⟨hpaired.chart_eq chart, hanswer⟩
  · intro node target x i j reply later later' hx hnode hr hok hmoves
    have hb : (Step.connect node .plain target [some x]).Builds state.vars := trivial
    have hconnected := (hpaired.step hb trivial).1
    obtain ⟨hpaired', hlater⟩ := hconnected.moves hmoves
    exact hpaired'.tidy'.shows ((carries_of_connect hpaired.tidy' hnode hr hok).later hlater) hx
  · intro node a target direction i later later' hnode hdecision hmoves
    obtain ⟨hpaired', hlater⟩ := (hpaired.answer node a target direction).1.moves hmoves
    have hcarries := carries_of_answer (a := a) hpaired.tidy' hnode hdecision target [direction]
    have hword : a.word ≠ "" := by cases a <;> decide
    exact hpaired'.tidy'.shows (hcarries.later hlater) hword
  · obtain ⟨-, hproper⟩ := pieces_proper hpieces
    refine (draw_realizes hpieces hσ).mono fun text τ flows hus hpost => ?_
    obtain ⟨f, d, htext, hportrays⟩ := hpost
    obtain ⟨entry, hentry, hd⟩ := hportrays.drawn
    refine ⟨f, d, entry, htext, hportrays, hentry, hportrays.labelled, ?_⟩
    intro path s hfound hs hplace hword
    exact drawnAsTest_of_place hproper hus hportrays.boxes hd hfound hs hplace
      (word_eq_condition.1 hword)

def twoNodes : State :=
  (Step.make "work" (.operation "y")).after ((Step.make "test" (.decision "x" true)).after {})

/-- The operation as the answer of the decision, without a direction and with one. -/
def twoAnswered : State × State :=
  ((Step.connect "test" (.answer .yes) (some "work") []).after twoNodes,
    (Step.connect "test" (.answer .yes) (some "work") [some "right"]).after twoNodes)

/-- The way back from the operation to the decision. -/
def wayBack : Step := .connect "work" .plain (some "test") [some "left"]

/-- The whole graph as a chart. -/
def twoCharted : State × State :=
  ((Step.make "all" (.chart (some "test"))).after (wayBack.after twoAnswered.1),
    (Step.make "all" (.chart (some "test"))).after (wayBack.after twoAnswered.2))

/-- A decision leads to an operation, which leads back. The direction `right` of the answer does not
show, nor does `top`, which is added later; the direction `left` of the way back does. In an aligned
program with a branch that has no else, the branch is a test, and no line has more than one
label. -/
theorem directions_drawn_back : Relation.ReflTransGen Move ({}, {}) twoCharted ∧
    (Step.ask "all" .chart).answer twoCharted.2 = .ok (.value (.text
      "cond0=>condition: x\nop1=>operation: y\n\ncond0(yes)->op1\nop1(left)->cond0\n")) ∧
    (Step.ask "all" .chart).answer twoCharted.2 = (Step.ask "all" .chart).answer twoCharted.1 ∧
    (Step.ask "all" .chart).answer ((Step.addLabel "edge" (some "top")).after
        ((readAnswer "test" .yes "edge").after twoCharted.2))
      = (Step.ask "all" .chart).answer ((readAnswer "test" .yes "edge").after twoCharted.1) ∧
    twoCharted.2.Shows 2 (.node 1) "yes" ∧ twoCharted.2.Shows 1 (.node 0) "left" ∧
    ∃ pieces s f d entry τ, (consecutiveBranches.aligned true).pieces = .ok pieces ∧
      (consecutiveBranches.aligned true).draw {} = .ok d.text τ ∧
      stmtAt pieces [0] = some s ∧ s.isBranch = true ∧
      DrawnAsTest (layoutPieces true 0 pieces) entry f d [0] s ∧
      ∀ k ∈ d.lines, k.labels ∈ [[], ["left"], ["yes"], ["no"]] := by
  have hfound : (consecutiveBranches.aligned true).pieces.toOption.any (fun pieces =>
      ((outlinePieces (consecutiveBranches.aligned true).options pieces).toOption.any fun flows =>
        (entryOf (arrange (consecutiveBranches.aligned true).options flows)).any fun b =>
          b.shape.isNone) &&
      decide (entryOf (layoutPieces true 0 pieces) = some ⟨[0], 0⟩) &&
      (stmtAt pieces [0]).any Stmt.isBranch) = true := by
    decide +kernel
  obtain ⟨pieces, hpieces, hfound⟩ := exists_ok_of_any hfound
  have hmake : Move ({}, {}) (_, _) := .step (.make "test" (.decision "x" true)) trivial trivial
  have hnodes : Relation.ReflTransGen Move ({}, {}) (twoNodes, twoNodes) :=
    (Relation.ReflTransGen.single hmake).tail
      (.step (.make "work" (.operation "y")) trivial trivial)
  have hanswered : Move (twoNodes, twoNodes) twoAnswered :=
    .answer "test" .yes (some "work") (some "right")
  have hback : Move twoAnswered (wayBack.after twoAnswered.1, wayBack.after twoAnswered.2) :=
    .step wayBack trivial trivial
  have hall : Relation.ReflTransGen Move (wayBack.after twoAnswered.1, wayBack.after twoAnswered.2)
      twoCharted :=
    .single (.step (.make "all" (.chart (some "test"))) trivial trivial)
  have hlabel :=
    Move.label (p := twoCharted) (i := 0) "test" .yes "edge" (some "top") (by decide +kernel)
      (by decide +kernel)
  have hsession := hnodes.tail hanswered
  have hlater := (Relation.ReflTransGen.single hback).trans hall
  have h := hsession.trans hlater
  have hdirections : ∀ state state', Relation.ReflTransGen Move ({}, {}) (state, state') → _ :=
    fun _ _ hmoves => directions_drawn hmoves (consecutiveBranches.aligned true) hpieces sound_empty
  obtain ⟨hchart, -, -, hdraw⟩ := hdirections twoCharted.1 twoCharted.2 h
  refine ⟨h, ?_, (hchart "all").1, ((hdirections _ _ (h.tail hlabel)).1 "all").1, ?_, ?_, ?_⟩
  · have hvisits : twoCharted.2.visits "all" = ([0, 2, 1], none) := by cbv
    have htext : (twoCharted.2.store.drawing [0, 2, 1]).text
        = "cond0=>condition: x\nop1=>operation: y\n\ncond0(yes)->op1\nop1(left)->cond0\n" := by
          decide +kernel
    rw [(hchart "all").2, hvisits]
    exact congrArg (fun text => Except.ok (Reply.value (.text text))) htext
  · have htarget : twoNodes.vars.resolve (some "work") = .node 1 := by decide +kernel
    have hshows := (hdirections _ _ hnodes).2.2.1 "test" .yes (some "work") (some "right") 0 _ _
      (by decide +kernel) (by decide +kernel) hlater
    rw [htarget] at hshows
    exact hshows
  · have htarget : twoAnswered.2.vars.resolve (some "test") = .node 0 := by decide +kernel
    have hok : (wayBack.answer twoAnswered.2).toOption.any (fun _ => true) = true := by
      decide +kernel
    obtain ⟨reply, hreply, -⟩ := exists_ok_of_any hok
    have hself : Receives twoAnswered.2.store 1 1 :=
      .here (by decide +kernel) (.inl (by decide +kernel))
    have hshows :=
      (hdirections twoAnswered.1 twoAnswered.2 hsession).2.1 "work" (some "test") "left" 1 1 reply
        _ _ (by decide) (by decide +kernel) hself hreply hall
    rw [htarget] at hshows
    exact hshows
  · simp only [Bool.and_eq_true, decide_eq_true_eq] at hfound
    obtain ⟨⟨hshape, hfirst⟩, hbranch⟩ := hfound
    obtain ⟨s, hs, hbranch⟩ := (Option.any_eq_true _ _).1 hbranch
    obtain ⟨flows, hspec, hshape⟩ := exists_ok_of_any hshape
    rw [hspec] at hdraw
    obtain ⟨text, τ, hrun, f, d, entry, rfl, hportrays, -, hlines, htests⟩ := hdraw
    have hentry : entryOf (arrange (consecutiveBranches.aligned true).options flows)
        = some (f ⟨[0], 0⟩).box := by
      rw [← hportrays.boxes, entryOf_mapAll]
      exact congrArg _ hfirst
    rw [hentry, Option.any_some, Option.isNone_iff_eq_none] at hshape
    exact ⟨pieces, s, f, d, entry, τ, hpieces, hrun, hs, hbranch,
      htests [0] s hs hbranch (entryOf_mem_placesAll hfirst) (word_eq_condition.2 hshape), hlines⟩

end

end CodeChart.Session
