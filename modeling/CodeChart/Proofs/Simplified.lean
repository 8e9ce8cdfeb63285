import CodeChart.Proofs.Charts
import CodeChart.Proofs.Contraction

/-! Simplified charts. The layout and the outline of simplified code are contractions of those of
the code as it is, so its chart is the other chart with some tests and their bodies drawn as one
node. -/
namespace CodeChart.Graph

/-- One drawing is the other with some pairs of nodes drawn as one. `φ` says how a node is called in
the contracted drawing. -/
structure Drawing.Contraction (d d' : Drawing) (pairs : List (String × String))
    (φ : String → String) :
    Prop where
  maps : ∀ n ∈ d.nodes, ∃ m ∈ d'.nodes, m.name = φ n.name
  onto : ∀ m ∈ d'.nodes, ∃ n ∈ d.nodes, m.name = φ n.name
  first : d'.nodes.head?.map Definition.name = d.nodes.head?.map fun n => φ n.name
  identifies : ∀ n ∈ d.nodes, ∀ m ∈ d.nodes, φ n.name = φ m.name ↔
    n = m ∨ (n.name, m.name) ∈ pairs ∨ (m.name, n.name) ∈ pairs
  keeps : ∀ n ∈ d.nodes, (∀ p ∈ pairs, p.1 ≠ n.name ∧ p.2 ≠ n.name) →
    { n with name := φ n.name } ∈ d'.nodes
  leads : ∀ a b, d'.Leads a b ↔ ∃ u v, d.Leads u v ∧ (u, v) ∉ pairs ∧
    (v, u) ∉ pairs ∧ φ u = a ∧ φ v = b
  labels : ∀ n ∈ d.nodes, (∀ p ∈ pairs, p.1 ≠ n.name ∧ p.2 ≠ n.name) → ∀ labels b,
    ⟨φ n.name, labels, b⟩ ∈ d'.lines ↔ ∃ v, ⟨n.name, labels, v⟩ ∈ d.lines ∧ φ v = b

end CodeChart.Graph

namespace CodeChart.Chart

open CodeChart.Graph Code

namespace Flow

variable {V W : Type}

theorem ofLoop_contract (test : V) (body : List (Flow V)) :
    ofLoop true test (contractAll atTest body) = contract atTest (ofLoop false test body) := by
  have hof : ∀ ts : List (Flow V), ofLoop true test ts
      = (loopBody? ts).elim (.loop test ts) fun _ => .merged false test := by
    intro ts
    rcases ts with _ | ⟨t, _ | ⟨u, rest⟩⟩
    · rfl
    · cases t <;> rfl
    · cases t <;> rfl
  rw [hof, loopBody?_contractAll]
  cases hbody : loopBody? body <;> simp [ofLoop, contract, hbody, atTest]

theorem ofBranch_contract (test : V) (body orelse : List (Flow V)) :
    ofBranch true test (contractAll atTest body) (contractAll atTest orelse)
      = contract atTest (ofBranch false test body orelse) := by
  have hof : ∀ ts us : List (Flow V), ofBranch true test ts us
      = (branchBody? ts us).elim (.branch test ts us) fun _ => .merged true test := by
    intro ts us
    rcases ts with _ | ⟨t, _ | ⟨u, rest⟩⟩ <;> rcases us with _ | ⟨u', us⟩ <;>
      first | rfl | (cases t <;> rfl)
  rw [hof, branchBody?_contractAll]
  cases hbody : branchBody? body orelse <;> simp [ofBranch, contract, hbody, atTest]

end Flow

open CodeChart.Chart.Flow

theorem orIdleAt_contractAll (idle : Spot) (ts : List (Flow Spot)) :
    orIdleAt idle (contractAll atTest ts) = contractAll atTest (orIdleAt idle ts) := by
  cases ts <;> rfl

theorem contract_ofCases (empty : Spot) (ts : List (Flow Spot)) :
    contract atTest (.ofCases empty ts) = .ofCases empty ts := by
  cases ts <;> rfl

mutual

theorem layout_contract (path : List Nat) (s : Stmt) :
    layout true path s = contract atTest (layout false path s) := by
  cases s with
  | function isAsync line name params body decorators result =>
    cases isAsync with
    | true => rfl
    | false => rw [layout, layout, contract, layouts_contract (0 :: path) 0 body]
  | forEach isAsync target source body orelse =>
    cases isAsync with
    | true => rfl
    | false =>
      rw [layout, layout, layouts_contract (0 :: path) 0 body,
        orIdleAt_contractAll, ofLoop_contract]
  | whileTrue test body orelse =>
    rw [layout, layout, layouts_contract (0 :: path) 0 body, orIdleAt_contractAll, ofLoop_contract]
  | branch test body orelse =>
    rw [layout, layout, layouts_contract (0 :: path) 0 body, layouts_contract (1 :: path) 0 orelse,
      ofBranch_contract]
  | giveBack value => cases value <;> rfl
  | select subject cases => rw [layout, layout, contract_ofCases]
  | lacking part s => exact layout_contract path s
  | _ => rfl

theorem layouts_contract (path : List Nat) (i : Nat) (ss : List Stmt) :
    layouts true path i ss = contractAll atTest (layouts false path i ss) := by
  cases ss with
  | nil => rfl
  | cons s rest =>
    rw [layouts, layouts, contractAll, layout_contract (i :: path) s,
      layouts_contract path (i + 1) rest]

end

/-- The one box of a loop or a branch has the text of both. -/
def boxJoining : Joining Box where
  loop test body := ⟨some .operation, loopText body.text test.text, []⟩
  branch test body := ⟨some .operation, branchText body.text test.text, []⟩

section

variable (align : Bool)

theorem loopFlow_contract (test : Box) (body : List (Flow Box)) :
    loopFlow ⟨true, align⟩ test (contractAll boxJoining body)
      = contract boxJoining (loopFlow ⟨false, align⟩ test body) := by
  have hof : ∀ ts, loopFlow ⟨true, align⟩ test ts = (match loopBody? ts with
      | some b => .merged false (boxJoining.loop test b)
      | none => .loop test ts) := by
    intro ts
    rcases ts with _ | ⟨t, _ | ⟨u, rest⟩⟩
    · rfl
    · cases t <;> rfl
    · cases t <;> rfl
  have hfalse : loopFlow ⟨false, align⟩ test body = .loop test body := rfl
  rw [hof, loopBody?_contractAll, hfalse, contract]
  cases loopBody? body <;> rfl

theorem branchFlow_contract (test : Box) (body orelse : List (Flow Box)) :
    branchFlow ⟨true, align⟩ test (contractAll boxJoining body) (contractAll boxJoining orelse)
      = contract boxJoining (branchFlow ⟨false, align⟩ test body orelse) := by
  have hof : ∀ ts us, branchFlow ⟨true, align⟩ test ts us = (match branchBody? ts us with
      | some b => .merged true (boxJoining.branch test b)
      | none => .branch test ts us) := by
    intro ts us
    rcases ts with _ | ⟨t, _ | ⟨u, rest⟩⟩ <;> rcases us with _ | ⟨u', us⟩ <;>
      first | rfl | (cases t <;> rfl)
  have hfalse : branchFlow ⟨false, align⟩ test body orelse = .branch test body orelse := rfl
  rw [hof, branchBody?_contractAll, hfalse, contract]
  cases branchBody? body orelse <;> rfl

theorem orIdle_contractAll (ts : List (Flow Box)) :
    orIdle (contractAll boxJoining ts) = contractAll boxJoining (orIdle ts) := by
  cases ts <;> rfl

theorem isBranch_contract (t : Flow Box) : (contract boxJoining t).isBranch = t.isBranch := by
  cases t with
  | branch test body orelse =>
    rcases contract_branch boxJoining test body orelse with ⟨b, -, -, hc, -⟩ |
        ⟨hc, -⟩ <;> rw [hc] <;> rfl
  | loop test body =>
    rcases contract_loop boxJoining test body with ⟨b, -, hc, -⟩ | ⟨hc, -⟩ <;> rw [hc] <;> rfl
  | _ => rfl

theorem align_contract (t : Flow Box) :
    (contract boxJoining t).align = contract boxJoining t.align := by
  cases t with
  | branch test body orelse =>
    cases hbody : branchBody? body orelse <;> simp [contract, align, hbody, boxJoining]
  | loop test body =>
    cases hbody : loopBody? body <;> simp [contract, align, hbody]
  | _ => rfl

theorem alignAll_contractAll (ts : List (Flow Box)) :
    alignAll (contractAll boxJoining ts) = contractAll boxJoining (alignAll ts) := by
  fun_induction alignAll ts with
  | case1 t u rest ih =>
    have hcons : contractAll boxJoining (t :: u :: rest)
        = contract boxJoining t :: contract boxJoining u :: contractAll boxJoining rest := rfl
    rw [hcons, alignAll, isBranch_contract, isBranch_contract, contractAll, ← ih]
    split
    · rw [align_contract]
      rfl
    · rfl
  | case2 ts hts =>
    rcases ts with _ | ⟨t, _ | ⟨u, rest⟩⟩
    · rfl
    · rfl
    · exact (hts t u rest rfl).elim

theorem arrange_contractAll (ts : List (Flow Box)) :
    arrange ⟨true, align⟩ (contractAll boxJoining ts)
      = contractAll boxJoining (arrange ⟨false, align⟩ ts) := by
  cases align with
  | true => exact alignAll_contractAll ts
  | false => rfl

theorem loop_contract (header : Except Fault String) (body : Except Fault (List (Flow Box))) :
    (do
      let test ← header
      let ts ← contractAll boxJoining <$> body
      return loopFlow ⟨true, align⟩ ⟨none, test, []⟩ (orIdle (arrange ⟨true, align⟩ ts)))
    = contract boxJoining <$> (do
      let test ← header
      let ts ← body
      return loopFlow ⟨false, align⟩ ⟨none, test, []⟩ (orIdle (arrange ⟨false, align⟩ ts))) := by
  cases header with
  | error fault => rfl
  | ok test =>
    cases body with
    | error fault => rfl
    | ok ts =>
      have h := loopFlow_contract align ⟨none, test, []⟩ (orIdle (arrange ⟨false, align⟩ ts))
      rw [← orIdle_contractAll, ← arrange_contractAll] at h
      exact congrArg Except.ok h

theorem contract_map_step (x : Except Fault Box) :
    contract boxJoining <$> Flow.step <$> x = Flow.step <$> x := by
  cases x <;> rfl

theorem contract_map_jump (x : Except Fault String) :
    contract boxJoining <$> (fun text => Flow.jump ⟨some .jump, text, []⟩) <$> x
      = (fun text => Flow.jump ⟨some .jump, text, []⟩) <$> x := by
  cases x <;> rfl

mutual

/-- The outline of simplified code is a contraction, and fails as the other does. -/
theorem outline_contract (code : Piece) (missing : List String) (s : Stmt) :
    outline ⟨true, align⟩ code missing s
      = contract boxJoining <$> outline ⟨false, align⟩ code missing s := by
  cases s with
  | function isAsync line name params body decorators result =>
    cases isAsync with
    | true => exact (contract_map_step _).symm
    | false =>
      rw [outline, outline, outlines_contract body]
      cases nameOf code with
      | error fault => rfl
      | ok name =>
        cases paramNames code with
        | error fault => rfl
        | ok input =>
          cases missing.contains "body" with
          | true => rfl
          | false =>
            cases outlines ⟨false, align⟩ body with
            | error fault => rfl
            | ok ts =>
              exact congrArg (fun us => Except.ok (Flow.routine _ _ us _))
                (arrange_contractAll align ts)
  | forEach isAsync target source body orelse =>
    cases isAsync with
    | true => exact (contract_map_step _).symm
    | false =>
      rw [outline, outline, outlines_contract body]
      exact loop_contract align code.header _
  | whileTrue test body orelse =>
    rw [outline, outline, outlines_contract body]
    exact loop_contract align code.header _
  | branch test body orelse =>
    rw [outline, outline, outlines_contract body, outlines_contract orelse]
    cases code.header with
    | error fault => rfl
    | ok test =>
      cases outlines ⟨false, align⟩ body with
      | error fault => rfl
      | ok ts =>
        cases outlines ⟨false, align⟩ orelse with
        | error fault => rfl
        | ok us =>
          have h := branchFlow_contract align ⟨none, test, []⟩ (arrange ⟨false, align⟩ ts)
            (arrange ⟨false, align⟩ us)
          rw [← arrange_contractAll, ← arrange_contractAll] at h
          exact congrArg Except.ok h
  | giveBack value =>
    cases value with
    | none => rfl
    | some value =>
      rw [outline, outline]
      cases code.text <;> rfl
  | select subject cases =>
    rw [outline, outline]
    cases (code.part? "subject").isNone with
    | true => rfl
    | false =>
      cases missing.contains "cases" with
      | true => rfl
      | false =>
        cases outlineCases (.expr subject) cases with
        | error fault => rfl
        | ok ts => cases ts <;> rfl
  | stop => exact (contract_map_jump _).symm
  | next => exact (contract_map_jump _).symm
  | lacking part s => exact outline_contract code (part :: missing) s
  | _ => exact (contract_map_step _).symm

theorem outlines_contract (ss : List Stmt) :
    outlines ⟨true, align⟩ ss = contractAll boxJoining <$> outlines ⟨false, align⟩ ss := by
  cases ss with
  | nil => rfl
  | cons s rest =>
    rw [outlines, outlines, outline_contract (.stmt s) [] s, outlines_contract rest]
    cases outline ⟨false, align⟩ (.stmt s) [] s with
    | error fault => rfl
    | ok t => cases outlines ⟨false, align⟩ rest <;> rfl

end

end

namespace Flow

variable {V W : Type}

theorem loopBody?_mapAll (g : V → W) (body : List (Flow V)) :
    loopBody? (mapAll g body) = (loopBody? body).map g := by
  rcases body with _ | ⟨t, _ | ⟨u, rest⟩⟩
  · rfl
  · cases t <;> rfl
  · cases t <;> rfl

theorem branchBody?_mapAll (g : V → W) (body orelse : List (Flow V)) :
    branchBody? (mapAll g body) (mapAll g orelse) = (branchBody? body orelse).map g := by
  rcases body with _ | ⟨t, _ | ⟨u, rest⟩⟩ <;> rcases orelse with _ | ⟨u', orelse⟩ <;>
    first | rfl | (cases t <;> rfl)

theorem eq_of_map_eq {g g' : V → W} {t : Flow V} (h : map g' t = map g t) {v : V}
    (hv : v ∈ t.places) :
    g' v = g v := by
  have hplaces := congrArg places h
  rw [places_map, places_map] at hplaces
  exact List.map_inj_left.1 hplaces v hv

mutual

theorem box_contract {g g' : V → W} {join : Joining W} (t : Flow V)
    (h : map g' (contract atTest t) = contract join (map g t)) {v : V}
    (hv : v ∈ (contract atTest t).places) (hfree : ∀ b, (v, b) ∉ joined t) : g' v = g v := by
  cases t with
  | branch test body orelse =>
    cases hbody : branchBody? body orelse with
    | some b =>
      simp only [contract, joined, hbody] at hv hfree
      obtain rfl := List.mem_singleton.1 hv
      exact absurd List.mem_cons_self (hfree b)
    | none =>
      simp only [contract, joined, hbody, map, branchBody?_mapAll, Option.map_none] at h hv hfree
      injection h with htest hbodies horelses
      rcases List.mem_cons.1 hv with rfl | hv
      · exact htest
      · rcases List.mem_append.1 hv with hv | hv
        · exact box_contractAll body hbodies hv fun b hb => hfree b (List.mem_append_left _ hb)
        · exact box_contractAll orelse horelses hv fun b hb => hfree b (List.mem_append_right _ hb)
  | loop test body =>
    cases hbody : loopBody? body with
    | some b =>
      simp only [contract, joined, hbody] at hv hfree
      obtain rfl := List.mem_singleton.1 hv
      exact absurd List.mem_cons_self (hfree b)
    | none =>
      simp only [contract, joined, hbody, map, loopBody?_mapAll, Option.map_none] at h hv hfree
      injection h with htest hbodies
      rcases List.mem_cons.1 hv with rfl | hv
      · exact htest
      · exact box_contractAll body hbodies hv hfree
  | routine start input body finish =>
    injection h with hstart hinput hbodies hfinish
    simp only [contract, places, List.mem_cons, List.mem_append, List.not_mem_nil, or_false] at hv
    rcases hv with rfl | rfl | hv | rfl
    · exact hstart
    · exact hinput
    · exact box_contractAll body hbodies hv hfree
    · exact hfinish
  | _ => exact eq_of_map_eq h hv

theorem box_contractAll {g g' : V → W} {join : Joining W} (ts : List (Flow V))
    (h : mapAll g' (contractAll atTest ts) = contractAll join (mapAll g ts)) {v : V}
    (hv : v ∈ placesAll (contractAll atTest ts)) (hfree : ∀ b, (v, b) ∉ joinedAll ts) :
    g' v = g v := by
  cases ts with
  | nil => cases hv
  | cons t rest =>
    injection h with ht hrest
    rcases List.mem_append.1 hv with hv | hv
    · exact box_contract t ht hv fun b hb => hfree b (List.mem_append_left _ hb)
    · exact box_contractAll rest hrest hv fun b hb => hfree b (List.mem_append_right _ hb)

end

end Flow

section

variable {V : Type} {xs : List (Vertex V)} {e v : V} {f : V → Named} {d : Drawing}

theorem Depicts.mem_lines (h : Depicts xs e f d) {a b : String} {labels : List String} :
    ⟨a, labels, b⟩ ∈ d.lines ↔ ∃ u w, Reached xs e u ∧ Arc xs u labels w ∧ a = (f u).name ∧
      b = (f w).name := by
  rw [h.lines]
  constructor
  · rintro ⟨x, hx, hreached, arrow, ha, w, hw, hline⟩
    injection hline with hsource hlabels htarget
    exact ⟨x.place, w, hreached, ⟨x, hx, rfl, arrow, ha, hlabels.symm, hw⟩, hsource, htarget⟩
  · rintro ⟨_, w, hreached, ⟨x, hx, rfl, arrow, ha, rfl, hw⟩, rfl, rfl⟩
    exact ⟨x, hx, hreached, arrow, ha, w, hw, rfl⟩

theorem Depicts.leads_iff (h : Depicts xs e f d) {a b : String} :
    d.Leads a b ↔ ∃ u labels w, Reached xs e u ∧ Arc xs u labels w ∧ a = (f u).name ∧
      b = (f w).name := by
  constructor
  · rintro ⟨labels, hline⟩
    obtain ⟨u, w, hline⟩ := h.mem_lines.1 hline
    exact ⟨u, labels, w, hline⟩
  · rintro ⟨u, labels, w, hline⟩
    exact ⟨labels, h.mem_lines.2 ⟨u, w, hline⟩⟩

end

/-- Two drawings, of a graph and of its contraction, with a name of its own for every place. -/
structure Pictured {V : Type} (xs ys : List (Vertex V)) (pairs : List (V × V)) (e : V)
    (f f' : V → Named) (d d' : Drawing) : Prop where
  contracts : Contracts xs ys pairs
  targets : Flow.TargetsIn (· ∈ xs.map Vertex.place) xs
  entry : e ∈ ys.map Vertex.place
  depicts : Depicts xs e f d
  depicts' : Depicts ys e f' d'
  apart : ∀ v ∈ xs.map Vertex.place, ∀ w ∈ xs.map Vertex.place, (f v).name = (f w).name → v = w
  apart' : ∀ v ∈ ys.map Vertex.place, ∀ w ∈ ys.map Vertex.place, (f' v).name = (f' w).name → v = w
  boxes : ∀ v ∈ ys.map Vertex.place, (∀ b, (v, b) ∉ pairs) → (f' v).box = (f v).box

theorem not_mem_pairs {V : Type} {pairs : List (V × V)} {f : V → Named} {v : V}
    (h : ∀ p ∈ pairs.map (fun p => ((f p.1).name, (f p.2).name)),
      p.1 ≠ (f v).name ∧ p.2 ≠ (f v).name)
    (b : V) : (v, b) ∉ pairs ∧ (b, v) ∉ pairs := by
  constructor
  · intro hp
    exact (h _ (List.mem_map.2 ⟨_, hp, rfl⟩)).1 rfl
  · intro hp
    exact (h _ (List.mem_map.2 ⟨_, hp, rfl⟩)).2 rfl

namespace Pictured

variable {V : Type} {xs ys : List (Vertex V)} {pairs : List (V × V)} {e u v w : V}
  {f f' : V → Named} {d d' : Drawing} {φ : String → String} (h : Pictured xs ys pairs e f f' d d')

include h

theorem mem (hv : Reached xs e v) : v ∈ xs.map Vertex.place :=
  hv.mem h.targets (h.contracts.mem_of_contract h.entry)

theorem mem' (hv : Reached ys e v) : v ∈ ys.map Vertex.place := hv.mem h.contracts.targets h.entry

theorem mem_pairs (hu : u ∈ xs.map Vertex.place) (hw : w ∈ xs.map Vertex.place) :
    ((f u).name, (f w).name) ∈ pairs.map (fun p => ((f p.1).name, (f p.2).name)) ↔
      (u, w) ∈ pairs := by
  constructor
  · intro hmem
    obtain ⟨⟨t, b⟩, hp, heq⟩ := List.mem_map.1 hmem
    injection heq with ht hb
    obtain rfl := h.apart t (h.contracts.mem_of_contract (h.contracts.test_mem hp)) u hu ht
    obtain rfl := h.apart b (h.contracts.body_mem hp) w hw hb
    exact hp
  · exact fun hp => List.mem_map.2 ⟨(u, w), hp, rfl⟩

theorem reached_of_free (hv : Reached xs e v) (hfree : ∀ b, (v, b) ∉ pairs ∧ (b, v) ∉ pairs) :
    Reached ys e v := by
  rcases h.contracts.reached_contract h.entry hv with hreached | ⟨t, hp, -⟩
  · exact hreached
  · exact absurd hp (hfree t).2

variable [DecidableEq V] (hφ : ∀ v ∈ xs.map Vertex.place, φ (f v).name = (f' (squash pairs v)).name)
include hφ

theorem rename_shown (hv : v ∈ ys.map Vertex.place) : φ (f v).name = (f' v).name := by
  rw [hφ v (h.contracts.mem_of_contract hv), h.contracts.squash_shown hv]

/-- Lines that do not join a test and its body are lines of the contracted drawing. -/
theorem leads_iff (a b : String) : d'.Leads a b ↔ ∃ u v, d.Leads u v ∧
    (u, v) ∉ pairs.map (fun p => ((f p.1).name, (f p.2).name)) ∧
    (v, u) ∉ pairs.map (fun p => ((f p.1).name, (f p.2).name)) ∧ φ u = a ∧ φ v = b := by
  rw [h.depicts'.leads_iff]
  constructor
  · rintro ⟨u, labels, w, hu, harc, rfl, rfl⟩
    have humem := h.mem' hu
    have hwmem := h.contracts.target_mem harc
    obtain ⟨labels', harc'⟩ := h.contracts.exists_arc humem harc
    refine ⟨(f u).name, (f w).name, ?_, ?_, ?_, h.rename_shown hφ humem, h.rename_shown hφ hwmem⟩
    · exact h.depicts.leads_iff.2
        ⟨u, labels', w, h.contracts.reached_of_contract h.entry hu, harc', rfl, rfl⟩
    · rw [h.mem_pairs (h.contracts.mem_of_contract humem) (h.contracts.mem_of_contract hwmem)]
      exact fun hp => h.contracts.inner _ hp hwmem
    · rw [h.mem_pairs (h.contracts.mem_of_contract hwmem) (h.contracts.mem_of_contract humem)]
      exact fun hp => h.contracts.inner _ hp humem
  · rintro ⟨_, _, hleads, hout, hback, rfl, rfl⟩
    obtain ⟨u, labels, w, hu, harc, rfl, rfl⟩ := h.depicts.leads_iff.1 hleads
    have humem := h.mem hu
    have hwmem := h.mem (hu.arc harc)
    rw [h.mem_pairs humem hwmem] at hout
    rw [h.mem_pairs hwmem humem] at hback
    rw [hφ u humem, hφ w hwmem]
    rcases h.contracts.reached_contract h.entry hu with hreached | ⟨t, hp, hreached⟩
    · obtain ⟨labels', harc'⟩ :=
        (h.contracts.exists_arc_contract (h.mem' hreached) harc).resolve_left hout
      rw [h.contracts.squash_shown (h.mem' hreached),
        h.contracts.squash_shown (h.contracts.target_mem harc')]
      exact ⟨u, labels', w, hreached, harc', rfl, rfl⟩
    · obtain ⟨next, hys, -, -, hbody⟩ := h.contracts.arc_of_joint hp
      rcases hbody _ _ harc with rfl | hnext
      · exact absurd hp hback
      · rw [h.contracts.squash_body hp, h.contracts.squash_shown
          (h.contracts.target_mem (hys w hnext))]
        exact ⟨t, [], w, hreached, hys w hnext, rfl, rfl⟩

theorem labels_iff (hu : Reached xs e u) (hfree : ∀ b, (u, b) ∉ pairs ∧ (b, u) ∉ pairs)
    (labels : List String) (b : String) : ⟨φ (f u).name, labels, b⟩ ∈ d'.lines ↔
      ∃ v, ⟨(f u).name, labels, v⟩ ∈ d.lines ∧ φ v = b := by
  have hu' := h.reached_of_free hu hfree
  have hkept : ∀ w, Arc xs u labels w ↔ Arc ys u labels w := fun w =>
    h.contracts.arc_iff_of_kept (h.mem' hu') fun b => (hfree b).1
  rw [h.rename_shown hφ (h.mem' hu'), h.depicts'.mem_lines]
  constructor
  · rintro ⟨u', w, hreached, harc, hname, rfl⟩
    obtain rfl := h.apart' u (h.mem' hu') u' (h.mem' hreached) hname
    refine ⟨(f w).name, ?_, h.rename_shown hφ (h.contracts.target_mem harc)⟩
    exact h.depicts.mem_lines.2 ⟨u, w, hu, (hkept w).2 harc, rfl, rfl⟩
  · rintro ⟨_, hline, rfl⟩
    obtain ⟨u', w, hreached, harc, hname, rfl⟩ := h.depicts.mem_lines.1 hline
    obtain rfl := h.apart u (h.mem hu) u' (h.mem hreached) hname
    have harc' := (hkept w).1 harc
    exact ⟨u, w, hu', harc', rfl, h.rename_shown hφ (h.contracts.target_mem harc')⟩

theorem contraction :
    d.Contraction d' (pairs.map fun p => ((f p.1).name, (f p.2).name)) φ where
  maps n hn := by
    obtain ⟨v, hv, rfl⟩ := (h.depicts.nodes n).1 hn
    refine ⟨_, (h.depicts'.nodes _).2 ⟨_, h.contracts.reached_squash h.entry hv, rfl⟩, ?_⟩
    exact (hφ v (h.mem hv)).symm
  onto m hm := by
    obtain ⟨v, hv, rfl⟩ := (h.depicts'.nodes m).1 hm
    have hv' := h.contracts.reached_of_contract h.entry hv
    exact ⟨_, (h.depicts.nodes _).2 ⟨v, hv', rfl⟩, (h.rename_shown hφ (h.mem' hv)).symm⟩
  first := by
    rw [h.depicts.first, h.depicts'.first]
    exact congrArg some (h.rename_shown hφ h.entry).symm
  identifies n hn m hm := by
    obtain ⟨u, hu, rfl⟩ := (h.depicts.nodes n).1 hn
    obtain ⟨v, hv, rfl⟩ := (h.depicts.nodes m).1 hm
    have hname : (f u).definition = (f v).definition ↔ u = v := by
      refine ⟨fun heq => h.apart u (h.mem hu) v (h.mem hv) (congrArg Definition.name heq), ?_⟩
      rintro rfl
      rfl
    have hsquash : (f' (squash pairs u)).name = (f' (squash pairs v)).name ↔
        squash pairs u = squash pairs v :=
      ⟨h.apart' _ (h.mem' (h.contracts.reached_squash h.entry hu)) _
        (h.mem' (h.contracts.reached_squash h.entry hv)), fun heq => by rw [heq]⟩
    rw [hname]
    change φ (f u).name = φ (f v).name ↔ u = v ∨ ((f u).name, (f v).name) ∈ _ ∨
      ((f v).name, (f u).name) ∈ _
    rw [h.mem_pairs (h.mem hu) (h.mem hv), h.mem_pairs (h.mem hv) (h.mem hu), hφ u (h.mem hu),
      hφ v (h.mem hv), hsquash]
    exact h.contracts.squash_eq_iff h.entry hu hv
  keeps n hn hfree := by
    obtain ⟨v, hv, rfl⟩ := (h.depicts.nodes n).1 hn
    have hfree := not_mem_pairs hfree
    have hv' := h.reached_of_free hv hfree
    refine (h.depicts'.nodes _).2 ⟨v, hv', ?_⟩
    have hbox := h.boxes v (h.mem' hv') fun b => (hfree b).1
    change { (f v).definition with name := φ (f v).name } = (f' v).definition
    rw [h.rename_shown hφ (h.mem' hv'), Named.definition, Named.definition, hbox]
  leads := h.leads_iff hφ
  labels n hn hfree := by
    obtain ⟨v, hv, rfl⟩ := (h.depicts.nodes n).1 hn
    exact h.labels_iff hφ hv (not_mem_pairs hfree)

end Pictured

/-- How a place of a flow is called after contraction. -/
def nameAfter (ts : List (Flow Spot)) (f f' : Spot → Named) (name : String) : String :=
  match (placesAll ts).find? fun v => (f v).name = name with
  | some v => (f' (squash (joinedAll ts) v)).name
  | none => name

section

variable {ts : List (Flow Spot)} {f f' : Spot → Named} {d d' : Drawing} {boxes : List (Flow Box)}

theorem nameAfter_name
    (hapart : ∀ v ∈ placesAll ts, ∀ w ∈ placesAll ts, (f v).name = (f w).name → v = w) {v : Spot}
    (hv : v ∈ placesAll ts) :
    nameAfter ts f f' (f v).name = (f' (squash (joinedAll ts) v)).name := by
  unfold nameAfter
  cases hfind : (placesAll ts).find? fun w => (f w).name = (f v).name with
  | none => simpa using List.find?_eq_none.1 hfind v hv
  | some w =>
    have hname : (f w).name = (f v).name := by simpa using List.find?_some hfind
    rw [hapart w (List.mem_of_find?_eq_some hfind) v hv hname]

theorem Portrays.pictured (hnodup : (placesAll ts).Nodup) (h : Portrays ts boxes f d)
    (h' : Portrays (contractAll atTest ts) (contractAll boxJoining boxes) f' d') : ∃ e,
    Pictured (verticesAll [] ts) (verticesAll [] (contractAll atTest ts))
      (joinedAll ts) e f f' d d' := by
  obtain ⟨e, he, hd⟩ := h.drawn
  obtain ⟨e', he', hd'⟩ := h'.drawn
  rw [entryOf_contractAll, he] at he'
  cases he'
  refine ⟨e, contracts_of_flow hnodup, verticesAll_targets [] ts, ?_, hd, hd', ?_, ?_, ?_⟩
  · exact mem_of_entryOf [] _ ((entryOf_contractAll ts).trans he)
  · rw [map_place_verticesAll]
    exact h.apart
  · rw [map_place_verticesAll]
    exact h'.apart
  · rw [map_place_verticesAll]
    intro v hv hfree
    have hboxes : mapAll (fun v => (f' v).box) (contractAll atTest ts)
        = contractAll boxJoining (mapAll (fun v => (f v).box) ts) := by
      rw [h.boxes, h'.boxes]
    exact box_contractAll ts hboxes hv hfree

theorem Portrays.contraction (hnodup : (placesAll ts).Nodup) (h : Portrays ts boxes f d)
    (h' : Portrays (contractAll atTest ts) (contractAll boxJoining boxes) f' d') :
    d.Contraction d' ((joinedAll ts).map fun p => ((f p.1).name, (f p.2).name))
      (nameAfter ts f f') := by
  obtain ⟨e, hpictured⟩ := h.pictured hnodup h'
  refine hpictured.contraction fun v hv => nameAfter_name h.apart ?_
  rwa [map_place_verticesAll] at hv

/-- The pairs are the loops and branches that only the contraction draws as one place. -/
theorem joined_iff_merged {V : Type} {ts : List (Flow V)} (hnodup : (placesAll ts).Nodup) (t : V) :
    (∃ b, (t, b) ∈ joinedAll ts) ↔
      t ∈ mergedBoxesAll (contractAll atTest ts) ∧ t ∉ mergedBoxesAll ts := by
  obtain ⟨hmerged, hmerged'⟩ := mergedAll_contract ts t
  have hcontracts := contracts_of_flow hnodup
  constructor
  · rintro ⟨b, hb⟩
    refine ⟨hmerged (List.mem_map.2 ⟨_, hb, rfl⟩), fun hmem => ?_⟩
    obtain ⟨out, hbox⟩ := box_of_mergedAll ts (placed_self _) hmem
    obtain ⟨next, out', htest, -, -, -⟩ := hcontracts.joint _ hb
    cases List.inj_on_of_nodup_map hcontracts.nodup hbox htest rfl
  · rintro ⟨hmem, hnot⟩
    obtain ⟨⟨t', b⟩, hp, rfl⟩ := List.mem_map.1 ((hmerged' hmem).resolve_left hnot)
    exact ⟨b, hp⟩

end

/-- The simplified chart of a list of statements is a contraction of the chart without
simplification: exactly the loops and branches that are drawn as one box in the one and not in the
other are joined with their bodies. -/
theorem simplified_contracts (align : Bool) (ss : List Stmt) (hne : ss ≠ []) (σ σ' : Store)
    (hσ : σ.Sound) (hσ' : σ'.Sound) :
    (∃ fault τ τ', outlines ⟨false, align⟩ ss = .error fault ∧
      (chartOf ⟨false, align⟩ (ss.map .stmt) >>= chartText) σ = .error fault τ ∧
      (chartOf ⟨true, align⟩ (ss.map .stmt) >>= chartText) σ' = .error fault τ') ∨
    ∃ flows flows' text text' τ τ' f f' d d' φ,
      outlines ⟨false, align⟩ ss = .ok flows ∧ outlines ⟨true, align⟩ ss = .ok flows' ∧
      (chartOf ⟨false, align⟩ (ss.map .stmt) >>= chartText) σ = .ok text τ ∧ text = d.text ∧
      Portrays (layouts false [] 0 ss) (arrange ⟨false, align⟩ flows) f d ∧
      (chartOf ⟨true, align⟩ (ss.map .stmt) >>= chartText) σ' = .ok text' τ' ∧ text' = d'.text ∧
      Portrays (layouts true [] 0 ss) (arrange ⟨true, align⟩ flows') f' d' ∧
      (∀ t, (∃ b, (t, b) ∈ joinedAll (layouts false [] 0 ss)) ↔
        t ∈ mergedBoxesAll (layouts true [] 0 ss) ∧ t ∉ mergedBoxesAll (layouts false [] 0 ss)) ∧
      d.Contraction d' ((joinedAll (layouts false [] 0 ss)).map fun p =>
        ((f p.1).name, (f p.2).name))
        φ := by
  have hplain := chart_stmts_realizes ⟨false, align⟩ ss hne hσ
  have hsimple := chart_stmts_realizes ⟨true, align⟩ ss hne hσ'
  have hnodup := (layouts_fresh false [] 0 ss).nodup
  rw [outlines_contract] at hsimple
  cases hspec : outlines ⟨false, align⟩ ss with
  | error fault =>
    rw [hspec] at hplain hsimple
    obtain ⟨τ, hrun, -⟩ := hplain
    obtain ⟨τ', hrun', -⟩ := hsimple
    exact .inl ⟨fault, τ, τ', rfl, hrun, hrun'⟩
  | ok flows =>
    rw [hspec] at hplain hsimple
    obtain ⟨text, τ, hrun, f, d, htext, hportrays, -⟩ := hplain
    obtain ⟨text', τ', hrun', f', d', htext', hportrays', -⟩ := hsimple
    refine .inr ⟨flows, _, text, text', τ, τ', f, f', d, d',
      nameAfter (layouts false [] 0 ss) f f', rfl,
      ?_, hrun, htext, hportrays, hrun', htext', hportrays', ?_, ?_⟩
    · rw [outlines_contract, hspec]
      rfl
    · rw [layouts_contract]
      exact joined_iff_merged hnodup
    · have hcontracted : Portrays (contractAll atTest (layouts false [] 0 ss))
          (contractAll boxJoining (arrange ⟨false, align⟩ flows)) f' d' := by
        rw [← layouts_contract, ← arrange_contractAll]
        exact hportrays'
      exact hportrays.contraction hnodup hcontracted

/-- A jump that is drawn together with its test, in a loop that is not simplified. -/
theorem simplified_contracts_jump : ∃ (text text' : String) (τ τ' : Store) (f : Spot → Named)
    (d d' : Drawing) (φ : String → String),
    (chartOf ⟨false, false⟩
      ([.whileTrue (.name "x") [.branch (.name "y") [.stop, .pass] [], .pass] []].map
      .stmt) >>= chartText) {} = .ok text τ ∧ text = d.text ∧
    (chartOf ⟨true, false⟩
      ([.whileTrue (.name "x") [.branch (.name "y") [.stop, .pass] [], .pass] []].map
      .stmt) >>= chartText) {} = .ok text' τ' ∧ text' = d'.text ∧
    d.Contraction d' [((f ⟨[0, 0, 0], 0⟩).name, (f ⟨[0, 0, 0, 0, 0], 0⟩).name)] φ := by
  rcases simplified_contracts false
      [.whileTrue (.name "x") [.branch (.name "y") [.stop, .pass] [], .pass] []]
        (by simp) {} {} sound_empty
      sound_empty with ⟨fault, τ, τ', hspec, -⟩ |
        ⟨flows, flows', text, text', τ, τ', f, f', d, d', φ, -, -,
        hrun, htext, -, hrun', htext', -, -, hcontraction⟩
  · cases hspec
  · exact ⟨text, text', τ, τ', f, d, d', φ, hrun, htext, hrun', htext', hcontraction⟩

end CodeChart.Chart
