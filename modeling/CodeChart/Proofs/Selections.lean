import CodeChart.Proofs.Branches

/-! Selections. A selection runs through its cases in line. The answer `no` of a case leads over two
bridges, and only the second has a label. -/
namespace CodeChart.Chart

open CodeChart.Graph

variable {σ ρ τ τ' : Store} {E : List Nat} {g t b number : Nat} {yes : Item}
  {links tails : List Item} {text name : String} {ts : List (Flow Site)}

/-- The body of a case: without statements the test has no answer `yes`. -/
inductive CaseBody (ρ τ : Store) (t b : Nat) :
    Item → List Item → List (Flow Site) → List Item → Prop where
  | empty : CaseBody ρ τ t b .nothing [] [] []
  | arm {l target ts tails} : ts ≠ [] → Arm ρ τ t l b "yes" target ts tails →
      CaseBody ρ τ t b (.link l) [.link l] ts tails

theorem CaseBody.grow (hs : τ.Sound) (hg : Grows E τ τ') (hE : ∀ i ∈ E, i < ρ.nodes.size)
    (h : CaseBody ρ τ t b yes links ts tails) : CaseBody ρ τ' t b yes links ts tails := by
  cases h with
  | empty => exact .empty
  | arm hne harm => exact .arm hne (harm.grow hs hg hE)

theorem CaseBody.holds (h : CaseBody ρ τ t b yes links ts tails) :
    Holds ρ τ (Flow.verticesAll [] ts) := by
  cases h with
  | empty => exact .nil ρ τ
  | arm _ harm => exact harm.holds

theorem CaseBody.exits (h : CaseBody ρ τ t b yes links ts tails) :
    ∃ Es, TailEnds τ ρ.nodes.size (τ.nodes.size - ρ.nodes.size) tails Es ∧ Es.flatten.Nodup ∧
      ∀ e, e ∈ Es.flatten ↔ e ∈ (Flow.verticesAll [] ts).flatMap Vertex.ends := by
  cases h with
  | empty => exact ⟨[], .nil, by simp, by simp⟩
  | arm hne harm =>
    obtain ⟨Es, htails, hnodup, hmem⟩ := harm.exits
    refine ⟨Es, htails, hnodup, fun e => ?_⟩
    rw [hmem e, armEnds, if_neg (by simpa using hne)]

theorem CaseBody.leaves (h : CaseBody ρ τ t b yes links ts tails) : Unfolded ρ τ false tails := by
  cases h with
  | empty => exact ⟨[], .nil, List.nodup_nil⟩
  | arm _ harm => exact harm.leaves

/-- The bridge of the answer `yes`, if there is one. -/
theorem CaseBody.bridge (h : CaseBody ρ τ t b yes links ts tails) :
    ∀ i ∈ ((Flow.entryOf ts).map some).toList.map (fun _ => b), i = b ∧ ρ.nodes.size ≤ b ∧
      b < τ.nodes.size ∧ ∀ x ∈ Flow.verticesAll [] ts, b ∉ x.nodes := by
  intro i hi
  cases h with
  | empty => simp at hi
  | arm hne harm =>
    obtain ⟨-, -, rfl⟩ := List.mem_map.1 hi
    exact ⟨rfl, harm.bridge.1, harm.bridge.2, fun x hx hmem =>
      harm.apart b (List.mem_flatMap.2 ⟨x, hx, hmem⟩) rfl⟩

theorem CaseBody.vertexAt {s : Site} {n : Nat} (h : CaseBody ρ τ s.node s.yes yes links ts tails)
    (hn : IsTest (τ.node s.node) .case yes (.link n) (links ++ [.link n]) text name)
    (hno : AnswerAt τ s s.no n "no" none) :
    VertexAt τ (.test s ((Flow.entryOf ts).map some) none) := by
  cases h with
  | empty => exact ⟨.case, .nothing, n, hn.form, hn.links, hno⟩
  | @arm l target ts tails hne harm =>
    have hleads := harm.leads
    cases ts with
    | nil => exact absurd rfl hne
    | cons u us =>
      exact ⟨.case, l, n, hn.form, hn.links, harm.answer.answerAt (by decide) hleads, hno⟩

theorem case_row {n : Nat} (ho : Opened σ ρ t g number .case (.case (.node t)) text)
    (hg : Grows [t, g] ρ τ) (hb : CaseBody ρ τ t b yes links ts tails) (hg' : Grows [t, g] τ τ')
    (hsize : τ'.nodes.size = τ.nodes.size + 2)
    (hn : IsTest (τ'.node t) .case yes (.link n) (links ++ [.link n]) text
      ("cond" ++ toString number))
    (hno : Answered τ' t (τ.nodes.size + 1) n "no" (.node τ.nodes.size))
    (hout : BridgeAt τ' τ.nodes.size t .nothing [some "no"])
    (hf : (τ'.node g).form = .group (.case (.node t)) (.node t) (tails ++ [.node τ.nodes.size])
    "" "") :
    Row σ τ' g g [] (.case ⟨t, number, b, τ.nodes.size, [τ.nodes.size + 1]⟩ ts) := by
  let s : Site := ⟨t, number, b, τ.nodes.size, [τ.nodes.size + 1]⟩
  obtain ⟨hσt, htg, hgρ⟩ := ho.inside
  have hσsize := ho.grows.size
  have hsize₁ := hg.size
  have htρ : t < ρ.nodes.size := by omega
  have hbefore : ∀ i ∈ [t, g], i < ρ.nodes.size := by
    simp
    omega
  have hb' := hb.grow hg.sound hg' hbefore
  have hinside : ∀ x ∈ Flow.verticesAll [] ts, ∀ i ∈ x.nodes, i < τ.nodes.size := fun x hx i hi =>
    (hb.holds.inside x hx i hi).2
  have hanswer : AnswerAt τ' s s.no n "no" none := by
    obtain ⟨k, hbridge, hk⟩ := hno.bridge
    exact ⟨⟨.nothing, _, hout, shownLabels_word (by decide), rfl⟩,
      .inr ⟨τ.nodes.size + 1, List.mem_cons_self, _, hno.link, hno.name, true, k, hbridge, hk⟩⟩
  have hvertex := CaseBody.vertexAt (s := s) hb' hn hanswer
  have hnumbered : Numbered τ' s := ⟨"cond", by simp, hn.name⟩
  obtain ⟨-, answer, k, hform, -⟩ := hout
  have hbridges : ∀ i ∈ bridges s ((Flow.entryOf ts).map some), i = τ.nodes.size ∨
      i = τ.nodes.size + 1 ∨ i = b ∧ ρ.nodes.size ≤ b ∧ b < τ.nodes.size ∧
        ∀ x ∈ Flow.verticesAll [] ts, b ∉ x.nodes := by
    intro i hi
    rcases List.mem_cons.1 hi with rfl | hi
    · exact .inl rfl
    · rcases List.mem_append.1 hi with hi | hi
      · exact .inr (.inl (List.mem_singleton.1 hi))
      · exact .inr (.inr (hb.bridge i hi))
  have hplain : (τ'.node τ.nodes.size).isGroup = false := by
    rw [Node.isGroup, hform]
    rfl
  have hleaves : Unfolded ρ τ' false (tails ++ [.node τ.nodes.size]) :=
    .append hsize₁ hg' hbefore hb.leaves (.single (Nat.le_refl _) (by omega) hplain)
  refine .of_group hf (by omega) ?_ ⟨.of_not_group hn.not_group, hnumbered.name_ne⟩ rfl ?_
    (hleaves.base hσsize) ?_
  · refine hb'.holds.cons_test ho.grows (Nat.le_trans hg.nextId hg'.nextId)
      (by omega) hvertex hnumbered
      ⟨hσt, htρ⟩ ho.counted ?_ ?_ ?_
    · cases he : Flow.entryOf ts with
      | none => simp [bridges]
      | some e =>
        have hlt := (hb.bridge b (by simp [he])).2.2.1
        simp [bridges]
        omega
    · intro i hi
      have := hbridges i hi
      omega
    · intro i hi x hx hmem
      have := hinside x hx i hmem
      rcases hbridges i hi with rfl | rfl | ⟨rfl, -, -, hapart⟩
      · omega
      · omega
      · exact hapart x hx hmem
  · obtain ⟨Es, ht, hnodup, hmem⟩ := hb'.exits
    have hleaf : EndsIn τ' σ.nodes.size (τ'.nodes.size - ρ.nodes.size) τ.nodes.size
        [τ.nodes.size] := by
      rw [show τ'.nodes.size - ρ.nodes.size = (τ'.nodes.size - ρ.nodes.size - 1) + 1 by omega]
      exact .leaf (by omega) (by omega) (by rw [hform]; rfl)
    have ht := ht.transfer (Nat.le_refl _) (fun _ _ _ => rfl) hσsize (Nat.le_refl _)
    refine .of_tails (by omega) (by rw [hf]; rfl) (by omega) (List.rel_append ht (.cons hleaf .nil))
      (by omega) ?_ ?_
    · rw [List.flatten_append]
      refine List.nodup_append.2 ⟨hnodup, by simp, ?_⟩
      rintro e he _ he' rfl
      obtain ⟨x, hx, hmem⟩ := List.mem_flatMap.1 ((hmem e).1 he)
      have := hinside x hx e (ends_subset e hmem)
      simp at he'
      omega
    · intro e
      rw [Flow.vertices, List.flatMap_cons, List.flatten_append, List.mem_append,
        List.mem_append, hmem e]
      cases Flow.entryOf ts <;> simp [Vertex.ends, or_comm]
  · simp [Tagged, hf]

def IsCase (τ : Store) (g : Nat) : Prop :=
  ∃ test head tails d c, (τ.node g).form = .group (.case test) head tails d c

/-- From every sound store the action builds a case with the given outline. -/
def BuildsCase (act : Action Nat) (spec : Except Fault (Flow Box)) : Prop :=
  ∀ σ : Store, σ.Sound → Realizes σ act spec fun g τ flow => Built σ g τ flow ∧ IsCase τ g

theorem case_closed {role : DecisionRole} {group : GroupRole} {head : Item} (hs : τ.Sound)
    (hn : IsTest (τ.node t) role yes .nothing links text name)
    (hf : (τ.node g).form = .group group head tails "" "") (hgt : g ≠ t) :
    ∃ τ' n, (do
        let out ← newBridge false (.node t) .nothing [some "no"]
        let _ ← connectAnswer t .no (.node out)
        setTails g (· ++ [.node out]) : Action Unit) τ = .ok () τ' ∧ Grows [t, g] τ τ' ∧
      τ'.nodes.size = τ.nodes.size + 2 ∧ τ'.nextId = τ.nextId + 2 ∧
      IsTest (τ'.node t) role yes (.link n) (links ++ [.link n]) text name ∧
      Answered τ' t (τ.nodes.size + 1) n "no" (.node τ.nodes.size) ∧
      BridgeAt τ' τ.nodes.size t .nothing [some "no"] ∧
      (τ'.node g).form = .group group head (tails ++ [.node τ.nodes.size]) "" "" := by
  let τ₁ := τ.withBridge false (.node t) .nothing [some "no"]
  have hnothing : Item.nothing.Within τ := fun _ hj => by cases hj
  have hg₁ : Grows [] τ τ₁ := grows_withBridge hs false t hnothing [some "no"]
  have hsize₁ : τ₁.nodes.size = τ.nodes.size + 1 := by simp [τ₁]
  have hglt := lt_size_of_isGroup (isGroup_of_form hf)
  have hf₁ : (τ₁.node g).form = .group group head tails "" "" := by
    rw [hg₁.node g hglt (by simp), hf]
  have hout : (Item.node τ.nodes.size).Within τ₁ := by
    rintro i ⟨⟩
    omega
  obtain ⟨τ₂, hrun₂, hg₂, hsize₂, hnext₂, hn₂, hans, hf₂⟩ := answer_tails hg₁.sound
    (hn.grow hg₁ (by simp)) hf₁ hgt .no hout fun _ => [.node τ.nodes.size]
  have hbridge : BridgeAt τ₁ τ.nodes.size t .nothing [some "no"] :=
    ⟨by simp [τ₁], false, τ.links.size, by simp [τ₁], τ.countId.link_pushLink_size _⟩
  have htlt := hn.lt_size
  refine ⟨τ₂, _, (bind_ok (newBridge_run τ _ _ _ _)).trans hrun₂, hg₁.trans hg₂,
    by omega, hnext₂, hn₂,
    hsize₁ ▸ hans, hbridge.grow hg₁.sound hg₂ ?_ (by omega), hf₂⟩
  simp
  omega

theorem caseTest_realizes (subject code : Code.Piece) (hσ : σ.Sound) :
    Realizes σ (caseTest subject code) (caseText subject code) fun t τ text =>
      ∃ number, TestMade σ τ t number .case text := by
  unfold caseTest
  cases caseText subject code with
  | error f => exact ⟨σ, rfl, rfl, rfl⟩
  | ok text => exact ⟨σ.nodes.size, _, rfl, σ.nextId, newDecision_made hσ .case text none⟩

theorem case_built (ho : Opened σ ρ t g number .case (.case (.node t)) text)
    (hg : Grows [t, g] ρ τ) (hb : CaseBody ρ τ t b yes links ts tails)
    (hn : IsTest (τ.node t) .case yes .nothing links text ("cond" ++ toString number))
    (hf : (τ.node g).form = .group (.case (.node t)) (.node t) tails "" "") :
    ∃ τ', (do
        let out ← newBridge false (.node t) .nothing [some "no"]
        let _ ← connectAnswer t .no (.node out)
        setTails g (· ++ [.node out])
        return g : Action Nat) τ = .ok g τ' ∧
      (Built σ g τ' (.case ⟨none, text, []⟩ (Flow.mapAll (boxAt τ) ts)) ∧ IsCase τ' g) ∧
      τ'.nextId = τ.nextId + 2 := by
  obtain ⟨hσt, htg, hgρ⟩ := ho.inside
  have hbefore : ∀ i ∈ [t, g], i < ρ.nodes.size := by
    simp
    omega
  obtain ⟨τ', n, hrun, hg', hsize, hnext, hn', hno, hout, hf'⟩ :=
    case_closed hg.sound hn hf (Nat.ne_of_gt htg)
  refine ⟨τ', ?_, ⟨⟨(ho.grows.trans (hg.trans hg')).drop (by simp; omega), _,
    case_row ho hg hb hg' hsize hn' hno hout hf', ?_⟩, _, _, _, _, _, hf'⟩, hnext⟩
  · have hreturn := bind_ok hrun (k := fun _ => (return g : Action Nat))
    simp only [bind_assoc] at hreturn
    exact hreturn
  · rw [Flow.map, hn'.boxAt rfl,
      mapAll_boxAt_grow hg' hbefore fun s hs => hb.holds.place_inside hs]

theorem builds_case (subject code : Code.Piece) {body : Action Nat}
    {spec : Except Fault (List (Flow Box))} (h : BuildsSuite body spec) :
    BuildsCase (case subject code body) (do
      let test ← caseText subject code
      let body ← spec
      return .case ⟨none, test, []⟩ body) := by
  intro σ hσ
  unfold case
  refine .step (takeId_run σ) ?_
  have hcount := grows_countId hσ
  refine (caseTest_realizes subject code hcount.sound).bind ?_
    fun _ _ _ ⟨_, hmade⟩ => hmade.grows.silent
  rintro t τ₀ text - ⟨number, hmade⟩
  let g := τ₀.nodes.size
  let ρ := τ₀.withGroup (.case (.node t)) (.node t) [] (some code)
  have ho : Opened σ ρ t g number .case (.case (.node t)) text := hmade.opened hcount _ _
  refine .step (newGroup_run τ₀ _ (fun l => by simp) [] (some code)) ?_
  refine (h ρ ho.grows.sound).bind ?_ fun _ _ _ hsuite => hsuite.1.silent
  rintro s τ₁ flows - ⟨hg₁, hends⟩
  cases hends with
  | empty hrun =>
    obtain ⟨τ', hrun', hpost, -⟩ := case_built (b := 0) ho (hg₁.restrict (by simp)) .empty
      (ho.test.grow hg₁ (by simp)) (by rw [hg₁.node g ho.inside.2.2 (by simp), ho.form])
    exact .step hrun (.ok hrun' hpost)
  | @row first last front u hform hrow =>
    obtain ⟨τ₂, l, b, hrun₂, -, hg₂, harm, hn₂, hf₂, hboxes⟩ :=
      arm_of_row .yes ho.test ho.form (Nat.ne_of_gt ho.inside.2.1) hg₁ hrow
    obtain ⟨τ', hrun', hpost, -⟩ := case_built ho hg₂ (.arm (by simp) harm) hn₂ hf₂
    rw [hboxes] at hpost
    refine .step (groupEnds_run hform) ?_
    exact .assoc (.step hrun₂ (.ok hrun' hpost) (hg₁.silent.cancel hg₂.silent))

theorem caseChain_realizes {first : Nat} {acts : List (Action Nat)}
    {specs : Except Fault (List (Flow Box))} (h : BuildsAll BuildsCase acts specs) :
    ∀ {τ last front t}, Grows E σ τ → Row σ τ first last front t → IsCase τ last →
      Realizes τ (caseChain last acts) specs fun built τ' us => Grows E σ τ' ∧
        (∀ i, i < σ.nodes.size → τ'.node i = τ.node i) ∧ ∃ last' front' t', (last :: built).getLast?
          = some last' ∧ Row σ τ' first last' front' t' ∧
          IsCase τ' last' ∧ Flow.mapAll (boxAt τ') (front' ++ [t'])
            = Flow.mapAll (boxAt τ) (front ++ [t]) ++ us := by
  induction h with
  | nil =>
    intro τ last front t hg hrow hcase
    exact .ok rfl ⟨hg, fun _ _ => rfl, last, front, t, rfl, hrow, hcase, by simp⟩
  | @cons act acts spec specs hact _ ih =>
    intro τ last front t hg hrow hcase
    refine (hact τ hg.sound).bind ?_ fun _ _ _ hb => hb.1.grows.silent
    rintro next τ₁ flow - ⟨⟨hg₁, u, hu, rfl⟩, hnext⟩
    obtain ⟨τ₂, hrun, hg₂, hrow₂, hboxes, -, -, -, hkeep⟩ := hrow.join hg hg₁ hu
    have hnext₂ : IsCase τ₂ next := by
      unfold IsCase
      rw [hkeep next (.inr hu.leave.inside.1) hu.leave.inside.2]
      exact hnext
    refine .step hrun ((ih hg₂ hrow₂ hnext₂).bind ?_ fun _ _ _ hb => hg₂.silent.cancel hb.1.silent)
      ((hg.silent.trans hg₁.silent).cancel hg₂.silent)
    rintro built τ' us - ⟨hg', hbefore, last', front', t', hlast, hrow', hcase', hboxes'⟩
    refine .ok rfl ⟨hg', ?_, last', front', t', ?_, hrow', hcase', ?_⟩
    · intro i hi
      have hsize := hg.size
      have hsize₁ := hg₁.size
      rw [hbefore i hi, hkeep i (.inl hi) (by omega), hg₁.node i (by omega) (by simp)]
    · simpa using hlast
    · rw [hboxes', hboxes]
      simp

/-- The group of a selection before any of its cases; it is entered over a bridge. -/
structure Selecting (σ ρ : Store) (g entry : Nat) : Prop where
  grows : Grows [] σ ρ
  form : (ρ.node g).form = .group (.selection []) (.node entry) [] "" ""
  bridge : ending (ρ.node entry).form = .leaf
  name : (ρ.node entry).name = ""
  inside : σ.nodes.size ≤ g ∧ g < entry ∧ entry < ρ.nodes.size

/-- Makes the group of a selection and the bridge to its cases. -/
def openSelection (code : Code.Piece) : Action (Nat × Nat) := do
  let id ← takeId
  let g ← addNode { form := .group (.selection []) .nothing [] "" "", id, code := some code }
  let entry ← newBridge false (.node g) .nothing []
  let id ← takeId
  modifyNode g fun n => { n with id }
  setHead g (.node entry)
  return (g, entry)

theorem openSelection_run (hσ : σ.Sound) (code : Code.Piece) :
    ∃ ρ g entry, openSelection code σ = .ok (g, entry) ρ ∧ Selecting σ ρ g entry ∧
      ρ.nextId = σ.nextId + 3 := by
  let g := σ.nodes.size
  let ρ₁ := σ.withGroup (.selection []) .nothing [] (some code)
  let entry := ρ₁.nodes.size
  let ρ₂ := ρ₁.withBridge false (.node g) .nothing []
  let ρ₃ := ρ₂.countId.mapNode g fun n => { n with id := ρ₂.nextId }
  let ρ₄ := ρ₃.mapNode g (·.regroup fun role _ tails => (role, .node entry, tails))
  have hnothing : ∀ τ : Store, Item.nothing.Within τ := fun _ _ hj => by cases hj
  have hg₁ : Grows [] σ ρ₁ := grows_withGroup hσ _ (hnothing σ) [] (some code)
  have hg₂ : Grows [] ρ₁ ρ₂ := grows_withBridge hg₁.sound false g (hnothing ρ₁) []
  have hcount := grows_countId hg₂.sound
  have hg₃ : Grows [g] ρ₂.countId ρ₃ :=
    grows_mapNode hcount.sound (hcount.sound.mapPlain g (fun _ => rfl) (fun _ => rfl) (fun _ => rfl)
      fun _ => rfl) rfl rfl
  have hsize₁ : entry = σ.nodes.size + 1 := by simp [entry, ρ₁]
  have hsize₂ : ρ₂.nodes.size = entry + 1 := by simp [ρ₂, entry]
  have hsize₃ : ρ₃.nodes.size = ρ₂.nodes.size := ρ₂.countId.size_mapNode g _
  have hsize₄ : ρ₄.nodes.size = ρ₃.nodes.size := ρ₃.size_mapNode g _
  have hge : entry ≠ g := by
    show entry ≠ σ.nodes.size
    omega
  have hform : (ρ₃.node g).form = .group (.selection []) .nothing [] "" "" := by
    have hlt : g < ρ₂.countId.nodes.size := by
      show σ.nodes.size < ρ₂.nodes.size
      omega
    rw [ρ₂.countId.node_mapNode_self g _ hlt, hcount.node g hlt (by simp),
      hg₂.node g (by show σ.nodes.size < entry; omega) (by simp)]
    exact form_withGroup σ _ _ _ _
  have hwithin : (Item.node entry).Within ρ₃ := by
    rintro i ⟨⟩
    omega
  have hg₄ : Grows [g] ρ₃ ρ₄ := grows_setHead hg₃.sound hwithin fun j hj =>
    (not_headsTo_nothing (hj.head hform)).elim
  have hentry : ρ₄.node entry = ρ₂.node entry := by
    rw [hg₄.node entry (by omega) (by simpa using hge),
      hg₃.node entry (by show entry < ρ₂.nodes.size; omega) (by simpa using hge),
      hcount.node entry (by omega) (by simp)]
  refine ⟨ρ₄, g, entry, ?_, ⟨?_, form_regroup hform _, ?_, ?_, Nat.le_refl _, ?_, by omega⟩, rfl⟩
  · exact (bind_ok (k := fun _ => (return (g, entry) : Action (Nat × Nat)))
      (setHead_run (s := ρ₃) g (.node entry))).trans rfl
  · refine ((((hg₁.trans hg₂).trans hcount).trans hg₃).trans hg₄).drop ?_
    simp [g]
  · rw [hentry]
    simp [ρ₂, entry, ending]
  · rw [hentry]
    simp [ρ₂, entry]
  · show σ.nodes.size < entry
    omega

theorem cases_realizes {g entry : Nat} (ho : Selecting σ ρ g entry) {act : Action Nat}
    {acts : List (Action Nat)} {spec : Except Fault (Flow Box)}
    {specs : Except Fault (List (Flow Box))} (h : BuildsCase act spec)
    (hs : BuildsAll BuildsCase acts specs) :
    Realizes ρ (caseChain entry (act :: acts)) (do
        let t ← spec
        let ts ← specs
        return t :: ts) fun built τ flows => Grows [entry] ρ τ ∧
      ending (τ.node entry).form = .leaf ∧ ∃ first last front t, built.head? = some first ∧
        built.getLast? = some last ∧
        Row ρ τ first last front t ∧ IsCase τ last ∧
          Flow.mapAll (boxAt τ) (front ++ [t]) = flows := by
  have hlt := ho.inside.2.2
  have hbefore : ∀ i ∈ [entry], i < ρ.nodes.size := by simpa using hlt
  refine (h ρ ho.grows.sound).bind ?_ fun _ _ _ hb => hb.1.grows.silent
  rintro first τ₁ flow - ⟨⟨hg₁, u, hu, rfl⟩, hcase⟩
  have hleaf : ending (τ₁.node entry).form = .leaf := by
    rw [hg₁.node entry hlt (by simp)]
    exact ho.bridge
  have hsize₁ := hg₁.size
  have hend : EndsIn τ₁ 0 1 entry [entry] := .leaf (Nat.zero_le _) (by omega) hleaf
  have hfirst : (Item.node first).Within τ₁ := by
    rintro i ⟨⟩
    exact hu.leave.inside.2
  obtain ⟨τ₂, hrun₂, hc⟩ := connect_closes hg₁.sound hfirst hend (by simp) (by omega)
  have hrow₂ := hu.grow hg₁.sound hc.grows hbefore
  have hcase₂ : IsCase τ₂ first := by
    unfold IsCase
    rw [hc.grows.node_of_le hbefore hu.leave.inside.1 hu.leave.inside.2]
    exact hcase
  have hboxes : u.map (boxAt τ₂) = u.map (boxAt τ₁) := by
    simpa [Flow.mapAll] using hu.boxes_grow hc.grows hbefore
  have hg₂ := hg₁.trans hc.grows
  refine .step hrun₂ ((caseChain_realizes hs hg₂ hrow₂ hcase₂).bind ?_
    fun _ _ _ hb => hg₂.silent.cancel hb.1.silent) hc.grows.silent
  rintro built τ us - ⟨hg, hsame, last, front, t, hlast, hrow, hcase', hflows⟩
  refine .ok rfl ⟨hg, ?_, first, last, front, t, rfl, hlast, hrow, hcase', ?_⟩
  · rw [hsame entry hlt, hc.ending_eq (by simpa using hleaf) (by omega), hleaf]
  rw [hflows]
  simp [Flow.mapAll, hboxes]

theorem isGroup_of_leaf {i : Nat} (h : ending (τ.node i).form = .leaf) :
    (τ.node i).isGroup = false := by
  unfold Node.isGroup
  cases hf : (τ.node i).form with
  | group role head tails d c =>
    rw [hf] at h
    cases role <;> cases h
  | _ => rfl

/-- The group of a selection takes over the first case as its head and the tails of the last. -/
theorem select_row {g entry first last : Nat} {front : List (Flow Site)} {u : Flow Site}
    (ho : Selecting σ ρ g entry) (hg : Grows [entry] ρ τ)
    (hleaf : ending (τ.node entry).form = .leaf) (hrow : Row ρ τ first last front u)
    (hcase : IsCase τ last) (built : List Item) :
    ∃ τ' f rest, front ++ [u] = f :: rest ∧ (do
        setRole g fun _ => .selection built
        let (_, tails) ← groupEnds last
        setTails g (· ++ tails)
        setHead g (.node first)
        return g : Action Nat) τ = .ok g τ' ∧ Grows [] σ τ' ∧ τ'.nextId = τ.nextId ∧
      Row σ τ' g g [] (.select f rest) ∧
      Flow.mapAll (boxAt τ') (front ++ [u]) = Flow.mapAll (boxAt τ) (front ++ [u]) := by
  obtain ⟨f, rest, hlist, henters⟩ := hrow.first_cons
  obtain ⟨test, head, tails, d, c, hlast⟩ := hcase
  obtain ⟨hσg, hge, hlt⟩ := ho.inside
  have hσρ := ho.grows.size
  have hsize := hg.size
  let τ₁ := τ.mapNode g (·.regroup fun _ head tails => (.selection built, head, tails))
  let τ₂ := τ₁.mapNode g (·.regroup fun role head old => (role, head, old ++ tails))
  let τ₃ := τ₂.mapNode g (·.regroup fun role _ tails => (role, .node first, tails))
  have hf : (τ.node g).form = .group (.selection []) (.node entry) [] "" "" := by
    rw [hg.node g (by omega) (by simp; omega), ho.form]
  have hf₁ : (τ₁.node g).form = .group (.selection built) (.node entry) [] "" "" :=
    form_regroup hf _
  have hf₂ : (τ₂.node g).form = .group (.selection built) (.node entry) tails "" "" :=
    form_regroup hf₁ _
  have hf₃ : (τ₃.node g).form = .group (.selection built) (.node first) tails "" "" :=
    form_regroup hf₂ _
  have hg₁ : Grows [g] τ τ₁ := grows_regroup hg.sound fun _ _ _ => rfl
  have hg₂ : Grows [g] τ₁ τ₂ := grows_regroup hg₁.sound fun _ _ _ => rfl
  have hg₁₂ := hg₁.trans hg₂
  have hfirst : (Item.node first).Within τ₂ := by
    rintro i ⟨⟩
    exact Nat.lt_of_lt_of_le henters.inside.2 hg₁₂.size
  -- so far a walk that enters the group comes to the bridge, which has no name
  have hfree : ∀ j, HeadsTo τ₂ (.node g) j → (τ₂.node j).name = "" := by
    intro j hj
    have hentry : τ₂.node entry = τ.node entry := hg₁₂.node entry (by omega) (by simp; omega)
    have hbridge : (τ₂.node entry).isGroup = false := hentry ▸ isGroup_of_leaf hleaf
    obtain rfl := (hj.head hf₂).unique (.of_not_group hbridge)
    rw [hentry, hg.name j hlt, ho.name]
  have hg₃ : Grows [g] τ₂ τ₃ := grows_setHead hg₁₂.sound hfirst hfree
  have hgτ := hg₁₂.trans hg₃
  have hbefore : ∀ i ∈ [g] ++ [g] ++ [g], i < ρ.nodes.size := by
    simp
    omega
  have hrow₃ := hrow.grow hg.sound hgτ hbefore
  have hlastne : last ≠ g := by
    have := hrow.leave.inside.1
    omega
  refine ⟨τ₃, f, rest, hlist, ?_, ?_, rfl, ?_, hrow.boxes_grow hgτ hbefore⟩
  · refine (bind_ok (setRole_run g _)).trans ?_
    have hlast₁ : (τ₁.node last).form = .group (.case test) head tails d c := by
      rw [τ.node_mapNode_of_ne g last _ hlastne, hlast]
    refine (bind_ok (groupEnds_run hlast₁)).trans ?_
    refine (bind_ok (setTails_run g _)).trans ?_
    exact (bind_ok (setHead_run g _)).trans rfl
  · exact ((ho.grows.trans hg).trans hgτ).drop (by simp; omega)
  · have hvertices : Flow.vertices [] (.select f rest) = Flow.verticesAll [] (front ++ [u]) := by
      rw [Flow.vertices_select, hlist]
    have hlast₃ : (τ₃.node last).form = .group (.case test) head tails d c := by
      rw [hgτ.node last hrow.leave.inside.2 (by simpa using hlastne), hlast]
    have hinner : ending (τ₃.node last).form = .inner tails := by
      rw [hlast₃]
      rfl
    obtain ⟨F, hF, hnodup, hmem⟩ := hrow₃.exits
    have hpos : ρ.nodes.size < τ₃.nodes.size := by
      have := hrow₃.leave.inside
      omega
    rw [show τ₃.nodes.size - ρ.nodes.size = (τ₃.nodes.size - ρ.nodes.size - 1) + 1 by omega] at hF
    obtain ⟨Es, ht, rfl⟩ := hF.tails hinner
    have henters₃ := henters.grow hgτ hbefore
    refine .of_group hf₃ hσg ?_ henters₃.heads rfl ?_ ((hrow₃.leaves.inner hlast₃).base hσρ) ?_
    · rw [hvertices]
      exact hrow₃.holds.base hσρ ho.grows.nextId
    · rw [hvertices]
      refine .of_tails hσg (by rw [hf₃]; rfl) (by omega)
        (ht.transfer (Nat.le_refl _) (fun _ _ _ => rfl) hσρ (Nat.le_refl _)) (by omega) hnodup ?_
      rw [ends_verticesAll]
      exact hmem
    · simp [Tagged, hf₃]

def fillSelection (cases : Except Fault (List (Action Nat))) (g entry : Nat) : Action Nat := do
  let built ← caseChain entry (← ofExcept cases)
  setRole g fun _ => .selection (built.map .node)
  match built.head?, built.getLast? with
  | some first, some last =>
    let (_, tails) ← groupEnds last
    setTails g (· ++ tails)
    setHead g (.node first)
    return g
  | _, _ => throw (.noAttribute "NoneType" "__dict__")

theorem fillSelection_realizes {g entry : Nat} (ho : Selecting σ ρ g entry)
    (whole : Except Fault Unit) {acts : List (Action Nat)} {specs : Except Fault (List (Flow Box))}
    (h : BuildsAll BuildsCase acts specs) :
    Realizes ρ (fillSelection (whole >>= fun _ => pure acts) g entry) (do
      whole
      match ← specs with
      | first :: rest => return .select first rest
      | [] => throw (.noAttribute "NoneType" "__dict__")) (Built σ) := by
  unfold fillSelection
  cases whole with
  | error fault => exact ⟨ρ, rfl, rfl, rfl⟩
  | ok _ =>
    refine .step (a := acts) rfl ?_
    cases h with
    | nil => exact .step (a := []) rfl (.step (setRole_run g _) ⟨_, rfl, rfl, rfl⟩)
    | cons hact hacts =>
      refine (cases_realizes ho hact hacts).bind ?_ fun _ _ _ hb => hb.1.silent
      rintro built τ flows - ⟨hg, hleaf, first, last, front, u, hfirst, hlast, hrow, hcase, rfl⟩
      obtain ⟨τ', f, rest, hlist, hrun, hgrows, -, hrow', hboxes⟩ :=
        select_row ho hg hleaf hrow hcase (built.map .node)
      rw [hfirst, hlast, ← hboxes, hlist]
      exact .ok hrun ⟨hgrows, _, hrow', rfl⟩

theorem builds_selection (code : Code.Piece) (whole : Except Fault Unit)
    {acts : List (Action Nat)} {specs : Except Fault (List (Flow Box))}
    (h : BuildsAll BuildsCase acts specs) :
    Builds (selection code (whole >>= fun _ => pure acts)) (do
      if (code.part? "subject").isNone then throw (.noAttribute code.kind "subject")
      whole
      match ← specs with
      | first :: rest => return .select first rest
      | [] => throw (.noAttribute "NoneType" "__dict__")) := by
  intro σ hσ
  unfold selection
  cases (code.part? "subject").isNone with
  | true => exact ⟨σ.countId, rfl, rfl, rfl⟩
  | false =>
    obtain ⟨ρ, g, entry, hrun, ho, -⟩ := openSelection_run hσ code
    have hfill := Realizes.step (k := fun p => fillSelection (whole >>= fun _ => pure acts) p.1 p.2)
      hrun (fillSelection_realizes ho whole h) ho.grows.silent
    simp only [openSelection, bind_assoc, pure_bind] at hfill
    exact hfill

end CodeChart.Chart
