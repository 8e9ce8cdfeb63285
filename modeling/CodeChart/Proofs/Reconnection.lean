import CodeChart.Proofs.Rendering
import CodeChart.Proofs.Growth
import Mathlib

/-! Connecting a bridge again and again. Each connection moves the child of the bridge and adds to
its labels; an answer writes its old labels once more behind the new ones, so the list that it keeps
doubles each time. The line of the bridge does not show it: it leads from the parent to the child
of the last connection, with every label that was ever given, once. -/
namespace CodeChart.Graph

theorem mem_bridgeLabels {answer : Bool} {old new : List Label} {x : Label} :
    x ∈ bridgeLabels answer old new ↔ x ∈ old ∨ x ∈ new := by
  cases answer with
  | true =>
    simp only [bridgeLabels, if_true, List.mem_append]
    tauto
  | false => simp [bridgeLabels]

/-- The labels that a bridge keeps after a list of calls, each with its target and labels. -/
def keptLabels (answer : Bool) (initial : List Label) (calls : List (Item × List Label)) :
    List Label :=
  calls.foldl (fun kept call => bridgeLabels answer kept call.2) initial

theorem mem_keptLabels {answer : Bool} {calls : List (Item × List Label)} {initial : List Label}
    {x : Label} :
    x ∈ keptLabels answer initial calls ↔ x ∈ initial ∨ ∃ call ∈ calls, x ∈ call.2 := by
  induction calls generalizing initial with
  | nil => simp [keptLabels]
  | cons call calls ih =>
    change x ∈ keptLabels answer (bridgeLabels answer initial call.2) calls ↔ _
    rw [ih, mem_bridgeLabels, List.exists_mem_cons_iff, or_assoc]

/-- With each call the labels of an answer double, and the new label is one more. -/
theorem length_keptLabels {calls : List (Item × List Label)}
    (h : ∀ call ∈ calls, call.2.length = 1) (initial : List Label) :
    (keptLabels true initial calls).length + 1 = 2 ^ calls.length * (initial.length + 1) := by
  induction calls generalizing initial with
  | nil => simp [keptLabels]
  | cons call calls ih =>
    have hstep : (bridgeLabels true initial call.2).length + 1 = 2 * (initial.length + 1) := by
      simp only [bridgeLabels, if_true, List.length_append, h call List.mem_cons_self]
      omega
    change (keptLabels true (bridgeLabels true initial call.2) calls).length + 1 = _
    rw [ih (fun call' hmem => h call' (List.mem_cons_of_mem _ hmem)), hstep, List.length_cons,
      pow_succ, mul_assoc]

variable {s : Store} {b : Nat} {answer : Bool} {parent child link : Item} {old : List Label}

theorem lt_size_of_bridge (h : (s.node b).form = .bridge answer parent child old link) :
    b < s.nodes.size := by
  by_contra hge
  rw [s.node_eq_default b (Nat.le_of_not_lt hge)] at h
  cases h

/-- The bridge `b` leads from `parent` to `target` with the labels that it keeps. -/
def Store.Bridged (s : Store) (b : Nat) (answer : Bool) (parent target : Item)
    (labels : List Label) : Prop :=
  ∃ l, (s.node b).form = .bridge answer parent target labels (.link l) ∧
    s.link l = ⟨target, labels⟩

/-- A bridge that has moved is called as before, and so is every group that begins with it. -/
theorem nameWithin_moveBridge (s : Store) (b : Nat) (target : Item) (labels : List Label)
    (fuel i : Nat) : (s.moveBridge b target labels).nameWithin fuel i = s.nameWithin fuel i := by
  unfold Store.moveBridge
  cases hf : (s.node b).form with
  | bridge answer parent child old link =>
    induction fuel generalizing i with
    | zero => rfl
    | succ fuel ih =>
      unfold Store.nameWithin
      by_cases hi : i = b
      · subst hi
        rw [Store.node_mapNode_self _ _ _ (by simpa using lt_size_of_bridge hf),
          Store.node_pushLink,
          hf]
      · rw [Store.node_mapNode_of_ne _ _ _ _ hi, Store.node_pushLink]
        cases hform : (s.node i).form with
        | group role head tails d c => cases head <;> simp only [ih]
        | _ => rfl
  | _ => rfl

theorem name_moveBridge (s : Store) (b : Nat) (target : Item) (labels : List Label) (i : Nat) :
    (s.moveBridge b target labels).name i = s.name i := by
  rw [Store.name, Store.size_moveBridge, nameWithin_moveBridge]
  rfl

theorem connect_bridge_run (hform : (s.node b).form = .bridge answer parent child old link)
    (target : Item) (new : List Label) :
    ∃ s', connect b target new s = .ok () s' ∧
      s'.Bridged b answer parent target (bridgeLabels answer old new) ∧
      ∀ i, s'.name i = s.name i := by
  refine ⟨s.moveBridge b target new, connectWithin_bridge s.nodes.size target new hform,
    ⟨s.links.size, ?_, ?_⟩, name_moveBridge s b target new⟩
  · simp only [Store.moveBridge, hform]
    rw [Store.node_mapNode_self _ _ _ (by simpa using lt_size_of_bridge hform)]
  · simp only [Store.moveBridge, hform]
    rw [Store.link_mapNode, Store.link_pushLink_size]

/-- Connects a bridge to one target after the other. -/
def reconnect (b : Nat) (calls : List (Item × List Label)) : Action Unit :=
  calls.forM fun call => connect b call.1 call.2

theorem reconnect_run (hform : (s.node b).form = .bridge answer parent child old link)
    (call : Item × List Label) (rest : List (Item × List Label)) :
    ∃ s', reconnect b (call :: rest) s = .ok () s' ∧
      s'.Bridged b answer parent ((call :: rest).getLast (List.cons_ne_nil _ _)).1
        (keptLabels answer old (call :: rest)) ∧
      ∀ i, s'.name i = s.name i := by
  -- Each connection finds the bridge that the one before it leaves behind.
  induction rest generalizing s child old link call with
  | nil =>
    obtain ⟨s', hrun, hbridge, hname⟩ := connect_bridge_run hform call.1 call.2
    exact ⟨s', (bind_ok hrun : _), hbridge, hname⟩
  | cons next rest ih =>
    obtain ⟨s₁, hrun, ⟨l, hform₁, -⟩, hname⟩ := connect_bridge_run hform call.1 call.2
    obtain ⟨s', hrun', hbridge, hname'⟩ := ih hform₁ next
    exact ⟨s', (bind_ok hrun).trans hrun', hbridge, fun i => (hname' i).trans (hname i)⟩

theorem connectionText_bridged {p : Nat} {target : Item} {labels : List Label}
    (h : s.Bridged b answer (.node p) target labels) :
    connectionText b s = .ok (linesText (s.lineTo p target labels).toList) s := by
  obtain ⟨l, hform, hlink⟩ := h
  have hgroup : (s.node b).isGroup = false := by simp [Node.isGroup, hform, Form.isGroup]
  have hline := linkLine_eq s p l
  rw [hlink] at hline
  rw [← hline]
  unfold connectionText drawLinks
  rw [bind_ok (getNode_run s b), hgroup, if_neg Bool.false_ne_true,
    bind_ok (getNode_run s b), hform]
  rfl

/-- No label is lost by connecting a bridge again: after any calls the line of the bridge leads from
its parent to the last target, unless that has no name, with the first labels and all that the calls
gave. An answer that takes one label with each call keeps `2 ^ (m + 1) - 1` labels after `m`
calls. -/
theorem reconnect_keeps_labels (s : Store) (b p : Nat) (answer : Bool) (child link : Item)
    (initial : List Label) (hform : (s.node b).form = .bridge answer (.node p) child initial link)
    (calls : List (Item × List Label)) (hne : calls ≠ []) :
    ∃ s' stored l, reconnect b calls s = .ok () s' ∧
      (s'.node b).form = .bridge answer (.node p) (calls.getLast hne).1 stored (.link l) ∧
      (∃ shown : List String, shown.Pairwise (· < ·) ∧
        (∀ x, x ∈ shown ↔ x ≠ "" ∧ (some x ∈ initial ∨ ∃ call ∈ calls, some x ∈ call.2)) ∧
        (∀ j, (calls.getLast hne).1 = .node j → s.name j ≠ "" →
          connectionText b s' = .ok (Line.text ⟨s.name p, shown, s.name j⟩) s') ∧
        ((∀ j, (calls.getLast hne).1 = .node j → s.name j = "") →
          connectionText b s' = .ok "" s')) ∧
      (answer = true → initial.length = 1 → (∀ call ∈ calls, call.2.length = 1) →
        stored.length = 2 ^ (calls.length + 1) - 1) := by
  obtain ⟨call, rest, rfl⟩ := List.exists_cons_of_ne_nil hne
  obtain ⟨s', hrun, hbridge, hname⟩ := reconnect_run hform call rest
  have htext := connectionText_bridged hbridge
  obtain ⟨l, hform', -⟩ := hbridge
  refine ⟨s', _, l, hrun, hform', ⟨shownLabels (keptLabels answer initial (call :: rest)),
    shownLabels_pairwise _, ?_, ?_, ?_⟩, ?_⟩
  · intro x
    rw [mem_shownLabels, mem_keptLabels]
  · intro j hlast hj
    rw [htext, hlast, Store.lineTo, hname, hname]
    simp [hj, linesText, String.join]
  · intro hunnamed
    rw [htext]
    cases hlast : ((call :: rest).getLast hne).1 with
    | node j =>
      rw [Store.lineTo, hname, hunnamed j hlast]
      rfl
    | nothing => rfl
    | link l => rfl
  · rintro rfl hinitial hcalls
    have hlength := length_keptLabels hcalls initial
    rw [hinitial] at hlength
    rw [pow_succ]
    omega

/-- A test, an operation, and the answer "yes" that leads from the one to the other. -/
def answeredTest : Store :=
  ((({} : Store).withDecision .plain "x" none).withBox .operation "y" none).withBridge true
    (.node 0)
    (.node 1) [some "yes"]

theorem reconnect_keeps_labels_answeredTest :
    ∃ s' stored l, reconnect 2 [(.nothing, [some "right"]), (.node 0, [some ""]),
        (.node 1, [some "right"])] answeredTest = .ok () s' ∧
      (s'.node 2).form = .bridge true (.node 0) (.node 1) stored (.link l) ∧
      stored.length = 15 ∧ connectionText 2 s' = .ok "cond0(right,yes)->op1\n" s' := by
  obtain ⟨s', stored, l, hrun, hform, ⟨shown, hsorted, hmem, htext, -⟩, hlength⟩ :=
    reconnect_keeps_labels answeredTest 2 0 true (.node 1) (.link 0) [some "yes"] rfl
      [(.nothing, [some "right"]), (.node 0, [some ""]), (.node 1, [some "right"])] (by decide)
  have hshown : shown = ["right", "yes"] := by
    refine hsorted.eq_of_mem_iff (by decide) ?_
    intro x
    rw [hmem]
    simp only [List.mem_cons, Option.some.injEq, List.not_mem_nil, or_false]
    grind
  refine ⟨s', stored, l, hrun, hform, hlength rfl rfl (by simp), ?_⟩
  rw [htext 1 rfl (by decide), hshown]
  rfl

end CodeChart.Graph
