import CodeChart.Proofs.Charts

/-! Open exits. What follows a list of statements is connected to the group of the list. The
connection leaves from the open leaves of the group, one link from each: none of them has led
anywhere before, none is met twice, and the rest of the store is not touched. -/
namespace CodeChart.Chart

open CodeChart.Graph Code

variable {σ τ τ' : Store} {lo lo' n i : Nat} {E : List Nat} {target : Item}

theorem Unfolds.split {r : Bool} {item : Item} {rest : List Item} {L : List Leaf}
    (h : Unfolds τ lo r (item :: rest) L) : ∃ i L₁ L₂, item = .node i ∧
      Unfolds τ lo r [.node i] L₁ ∧ Unfolds τ lo r rest L₂ ∧ L = L₁ ++ L₂ := by
  cases h with
  | @leaf _ i _ L hlo hi hg hrest => exact ⟨i, [⟨i, r⟩], L, rfl, .single hlo hi hg, hrest, rfl⟩
  | @group _ i _ _ L₁ L₂ _ _ _ _ hlo hi hf htails hrest =>
    refine ⟨i, L₁, L₂, rfl, ?_, hrest, rfl⟩
    rw [← List.append_nil L₁]
    exact .group hlo hi hf htails .nil

theorem openNodes_single (τ : Store) (i : Nat) :
    openNodes τ [⟨i, false⟩] = if (τ.node i).form = .box .jump then [] else [i] := by
  by_cases hjump : (τ.node i).form = .box .jump
  · simp [openNodes, Leaf.isOpen, hjump]
  · simp [openNodes, Leaf.isOpen, hjump]

theorem TailEnds.eq_openNodes (ih : ∀ {i E L}, EndsIn τ lo n i E →
      Unfolds τ lo' false [.node i] L → E = openNodes τ L) {tails : List Item}
    {Es : List (List Nat)} (h : TailEnds τ lo n tails Es) :
    ∀ {L : List Leaf}, Unfolds τ lo' false tails L → Es.flatten = openNodes τ L := by
  induction h with
  | nil =>
    intro L hL
    cases hL
    rfl
  | cons hfirst _ ihtails =>
    intro L hL
    obtain ⟨i, L₁, L₂, rfl, hL₁, hL₂, rfl⟩ := hL.split
    rw [List.flatten_cons, openNodes_append, ih hfirst hL₁, ihtails hL₂]

theorem EndsIn.eq_openNodes {L : List Leaf} (h : EndsIn τ lo n i E)
    (hL : Unfolds τ lo' false [.node i] L) : E = openNodes τ L := by
  induction n generalizing i E L with
  | zero => exact h.elim
  | succ n ih =>
    obtain ⟨-, h⟩ := h
    cases hL with
    | leaf _ _ hg hrest =>
      cases hrest
      rw [openNodes_single]
      cases hf : (τ.node i).form with
      | box shape =>
        rw [hf] at h
        by_cases hjump : shape = .jump
        · simpa [ending, hjump] using h
        · simpa [ending, hjump] using h
      | bridge answer parent child labels link =>
        rw [hf] at h
        simpa [ending] using h
      | decision role yes no =>
        rw [hf] at h
        exact h.elim
      | group role head tails d c =>
        rw [isGroup_of_form hf] at hg
        cases hg
    | @group _ _ _ tails L _ role head d c _ _ hf htails hrest =>
      cases hrest
      rw [List.append_nil]
      rw [Bool.false_or] at htails
      by_cases hfinal : (Form.group role head tails d c).isFinal = true
      · -- a return is left alone, and all that is in it counts as returned
        rw [hf, ending_of_isFinal hfinal] at h
        have hreturns : role.returns = true := by
          cases role <;> first | rfl | cases hfinal
        rw [hreturns] at htails
        rw [h, openNodes_returned htails.returned]
      · have hinner := Bool.eq_false_iff.2 hfinal
        rw [hf, ending_group hinner] at h
        obtain ⟨Es, hall, rfl⟩ := h
        have hreturns : role.returns = false := by
          cases role <;> first | rfl | cases hinner
        rw [hreturns] at htails
        exact TailEnds.eq_openNodes (fun he hL => ih he hL) hall htails

/-- Nothing leads on from a node: a box has no links, a bridge no child. -/
def Waits (s : Store) (i : Nat) : Prop :=
  (∃ shape, (s.node i).form = .box shape ∧ (s.node i).links = []) ∨
    ∃ answer parent labels link, (s.node i).form = .bridge answer parent .nothing labels link

theorem AnswerAt.waits {s : Site} {b l : Nat} {word : String} (h : AnswerAt τ s b l word none) :
    Waits τ b := by
  obtain ⟨⟨item, labels, ⟨-, answer, k, hf, -⟩, -, hleads⟩, -⟩ := h
  obtain rfl : item = .nothing := hleads
  exact .inr ⟨answer, _, labels, _, hf⟩

theorem VertexAt.waits {x : Vertex Site} (h : VertexAt τ x) (hi : i ∈ x.ends) : Waits τ i := by
  cases x with
  | box s out =>
    rcases out with _ | ⟨labels, _ | v⟩
    · cases hi
    · obtain rfl := List.mem_singleton.1 hi
      obtain ⟨shape, item, hf, -, -, hitem, hlinks⟩ := h
      obtain rfl : item = .nothing := hitem
      rcases hlinks with ⟨-, hlinks⟩ | ⟨hne, -⟩
      · exact .inl ⟨shape, hf, hlinks⟩
      · exact absurd rfl hne
    · cases hi
  | test s yes no =>
    have hanswer : no = none ∧ i = s.no ∨ yes = some none ∧ i = s.yes := by
      rcases yes with _ | _ | y <;> rcases no with _ | z <;> simp_all [Vertex.ends, or_comm]
    rcases hanswer with ⟨rfl, rfl⟩ | ⟨rfl, rfl⟩
    · cases yes with
      | none =>
        obtain ⟨_, _, _, _, _, hno⟩ := h
        exact hno.waits
      | some y =>
        obtain ⟨_, _, _, _, _, _, hno⟩ := h
        exact hno.waits
    · obtain ⟨_, _, _, _, _, hyes, _⟩ := h
      exact hyes.waits

theorem Holds.waits {xs : List (Vertex Site)} (h : Holds σ τ xs) (hi : i ∈ xs.flatMap Vertex.ends) :
    Waits τ i := by
  obtain ⟨x, hx, hi⟩ := List.mem_flatMap.1 hi
  exact (h.wired x hx).waits hi

theorem Closed.eq_of_nil (h : Closed [] target τ τ') : τ' = τ := by
  have hnodes : τ'.nodes = τ.nodes := by
    refine Array.ext h.size fun i hi hi' => ?_
    have hnode := h.grows.node i hi' (by simp)
    simpa [Store.node, hi, hi'] using hnode
  have hlinks : τ'.links = τ.links := by
    refine Array.ext h.links fun l hl hl' => ?_
    have hlink := h.grows.link l hl'
    simpa [Store.link, hl, hl'] using hlink
  have hnext := h.nextId
  have hpasses := h.grows.passes
  have hprinted := h.grows.printed
  have hwarnings := h.grows.warnings
  cases τ
  cases τ'
  simp_all

theorem suite_leaves {g first last : Nat} {front : List (Flow Site)} {t : Flow Site}
    (hf : (τ.node g).form = .group .suite (.node first) [.node last] "" "")
    (hrow : Row σ τ first last front t) : ∃ L, Unfolds τ 0 false [.node g] L ∧
      (L.map Leaf.node).Nodup ∧ EndsIn τ 0 (τ.nodes.size - σ.nodes.size + 1) g (openNodes τ L) ∧
      ∀ i ∈ openNodes τ L, Waits τ i := by
  have hg := lt_size_of_isGroup (isGroup_of_form hf)
  obtain ⟨L, hL, hnodup⟩ := hrow.leaves
  obtain ⟨E, hE, -, hmem⟩ := hrow.exits
  obtain rfl := hE.eq_openNodes hL
  have hE₀ : EndsIn τ 0 (τ.nodes.size - σ.nodes.size) last (openNodes τ L) :=
    hE.transfer (Nat.le_refl _) (fun _ _ _ => rfl) (Nat.zero_le _) (Nat.le_refl _)
  have hL₀ : Unfolds τ 0 false [.node last] L :=
    hL.transfer (Nat.le_refl _) (fun _ _ _ => rfl) (Nat.zero_le _)
  refine ⟨L ++ [], .group (Nat.zero_le _) hg hf hL₀ .nil, ?_, ?_, ?_⟩
  · rwa [List.append_nil]
  · have hends : EndsIn τ 0 (τ.nodes.size - σ.nodes.size + 1) g [openNodes τ L].flatten :=
      .inner (Nat.zero_le _) hg (by rw [hf]; rfl) (.cons hE₀ .nil)
    rwa [List.flatten_singleton, ← List.append_nil L] at hends
  · intro i hi
    rw [List.append_nil, hmem i] at hi
    refine hrow.holds.waits ?_
    rwa [ends_verticesAll]

/-- The group of a list of statements is unfolded in one way, into distinct leaves. A connection
from the group to any node, made then or later, joins each open leaf to that node by one link of its
own. An open leaf has led nowhere before. If no leaf is open, nothing changes. -/
theorem connect_joins_open_leaves (options : Options) (pieces : List Piece) (hne : pieces ≠ [])
    (σ : Store) (hσ : σ.Sound) (g : Nat) (τ : Store) (hrun : ofPieces options pieces σ = .ok g τ) :
    Grows [] σ τ ∧ ∃ L, (∀ L', Unfolds τ 0 false [.node g] L' ↔ L' = L) ∧ (L.map Leaf.node).Nodup ∧
      (∀ i ∈ openNodes τ L, Waits τ i) ∧
      ∀ τ₁, Grows [] τ τ₁ → ∀ n, n < τ₁.nodes.size →
        ∃ τ₂, connect g (.node n) [] τ₁ = .ok () τ₂ ∧ Closed (openNodes τ L) (.node n) τ₁ τ₂ ∧
          (openNodes τ L = [] → τ₂ = τ₁) := by
  have hsuite := suite_realizes options (builds_pieces options pieces) hσ
  cases hspec : outlinePieces options pieces with
  | error f =>
    rw [hspec] at hsuite
    obtain ⟨σ', hfault, -⟩ := hsuite
    cases hfault.symm.trans hrun
  | ok flows =>
    rw [hspec] at hsuite
    obtain ⟨g', τ', hrun', hg, hends⟩ := hsuite
    cases hrun'.symm.trans hrun
    have hflows : arrange options flows ≠ [] := arrange_ne_nil (outlinePieces_ne_nil hne hspec)
    generalize arrange options flows = arranged at hends hflows
    cases hends with
    | empty _ => exact absurd rfl hflows
    | row hf hrow =>
      obtain ⟨L, hL, hnodup, hE, hwaits⟩ := suite_leaves hf hrow
      refine ⟨hg, L, fun L' => ⟨fun hL' => hL'.unique hL, fun he => he ▸ hL⟩, hnodup, hwaits, ?_⟩
      intro τ₁ hg₁ n hn
      have hsize := hg₁.size
      have hE₁ := hE.transfer hsize (fun i _ hi => by rw [hg₁.node i hi (by simp)]) (Nat.le_refl _)
        (Nat.le_refl _)
      have hopen : (openNodes τ L).Nodup := hnodup.sublist (List.filter_sublist.map Leaf.node)
      have hwithin : (Item.node n).Within τ₁ := by
        rintro i ⟨⟩
        exact hn
      obtain ⟨τ₂, hrun₂, hclosed⟩ := connect_closes hg₁.sound hwithin hE₁ hopen (by omega)
      refine ⟨τ₂, hrun₂, hclosed, fun hnone => ?_⟩
      rw [hnone] at hclosed
      exact hclosed.eq_of_nil

/-- A jump and a return, and a test that is passed by if it fails. -/
def guardedEnds : List Piece :=
  [.stmt (.branch (.name "a") [.stop] [.branch (.name "b") [.giveBack none] []])]

/-- Of three leaves only the way past the inner test is open. -/
theorem connect_joins_open_leaves_guardedEnds : ∃ τ τ', ofPieces {} guardedEnds {} = .ok 0 τ ∧
    Unfolds τ 0 false [.node 0] [⟨4, false⟩, ⟨10, true⟩, ⟨14, false⟩] ∧
    connect 0 (.node 1) [] τ = .ok () τ' ∧ Closed [14] (.node 1) τ τ' := by
  let forms : List (Nat × Form) :=
    [(0, .group .suite (.node 2) [.node 2] "" ""),
      (2, .group (.branch (.node 1)) (.node 1) [.node 4, .node 8] "" ""), (4, .box .jump),
      (8, .group (.branch (.node 7)) (.node 7) [.node 11, .node 14] "" ""),
      (10, .box .returnEnd),
        (11, .group (.returning .nothing (.node 10)) (.node 10) [.node 10] "" ""),
      (14, .bridge true (.node 7) .nothing [some "no"] (.link 4))]
  have hfound : (do
      let g ← ofPieces {} guardedEnds
      let s ← get
      return g == 0 && s.nodes.size == 16 &&
        forms.all fun form => (s.node form.1).form == form.2 : Action Bool).run' {}
          = some true := by
    decide +kernel
  cases hrun : ofPieces {} guardedEnds {} with
  | error fault σ =>
    unfold EStateM.run' EStateM.run at hfound
    rw [bind_error hrun] at hfound
    cases hfound
  | ok g τ =>
    unfold EStateM.run' EStateM.run at hfound
    rw [bind_ok hrun] at hfound
    have hall := Option.some.inj hfound
    simp only [forms, Bool.and_eq_true, beq_iff_eq, List.all_cons, List.all_nil] at hall
    obtain ⟨⟨rfl, hsize⟩, h0, h2, h4, h8, h10, h11, h14, -⟩ := hall
    have hin : ∀ i ≤ 14, i < τ.nodes.size := fun i hi => by omega
    have hreturn := Unfolds.group (r := false) (Nat.zero_le _) (hin 11 (by decide)) h11
      (.single (Nat.zero_le _) (hin 10 (by decide)) (by rw [Node.isGroup, h10]; rfl))
      (.single (Nat.zero_le _) (hin 14 (by decide)) (by rw [Node.isGroup, h14]; rfl))
    have hleaves := Unfolds.group (r := false) (Nat.zero_le _) (hin 0 (by decide)) h0
      (.group (Nat.zero_le _) (hin 2 (by decide)) h2
        (.leaf (Nat.zero_le _) (hin 4 (by decide)) (by rw [Node.isGroup, h4]; rfl)
          (.group (Nat.zero_le _) (hin 8 (by decide)) h8 hreturn .nil)) .nil) .nil
    obtain ⟨hg, L, hL, -, -, hconnect⟩ := connect_joins_open_leaves {} guardedEnds (by decide) {}
      sound_empty 0 τ hrun
    obtain rfl := (hL _).1 hleaves
    obtain ⟨τ', hrun', hclosed, -⟩ := hconnect τ (.refl hg.sound) 1 (hin 1 (by decide))
    refine ⟨τ, τ', rfl, hleaves, hrun', ?_⟩
    have hopen : openNodes τ [⟨4, false⟩, ⟨10, true⟩, ⟨14, false⟩] = [14] := by
      simp [openNodes, Leaf.isOpen, h4, h14]
    exact hopen ▸ hclosed

end CodeChart.Chart
