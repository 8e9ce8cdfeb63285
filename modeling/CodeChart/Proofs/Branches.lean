import CodeChart.Proofs.Tests

/-! Branches. Each answer leads to a suite, or is an exit if the suite is empty; the exits of a
branch are those of both answers. -/
namespace CodeChart.Chart

open CodeChart.Graph

variable {σ ρ τ τ' : Store} {E : List Nat} {g t b l : Nat} {yes no target : Item}
  {links tails : List Item} {text name word : String} {ts : List (Flow Site)}

/-- Whether a body is drawn together with the test. -/
def oneLine {V : Type} : List (Flow V) → Bool
  | [.step _] => true
  | .jump _ :: _ => true
  | _ => false

/-- Whether the body behind an answer is one box without connections. -/
def ArmHead (τ : Store) (target : Item) (ts : List (Flow Site)) : Prop :=
  (oneLine ts = true ∧ ∃ v shape, Flow.entryOf ts = some v ∧ target = .node v.node ∧
    (τ.node v.node).form = .box shape ∧ (τ.node v.node).links = []) ∨
  oneLine ts = false ∧ (target = .nothing ∨ ∃ first, target = .node first ∧
    ((τ.node first).isGroup = true ∨
      ∃ shape, (τ.node first).form = .box shape ∧ (τ.node first).links ≠ []))

/-- The nodes that wait for a connection behind an answer over bridge `b`. -/
def armEnds (b : Nat) (ts : List (Flow Site)) : List Nat :=
  if ts.isEmpty then [b] else (Flow.verticesAll [] ts).flatMap Vertex.ends

/-- An answer of a branch has been built since `ρ`. -/
structure Arm (ρ τ : Store) (t l b : Nat) (word : String) (target : Item) (ts : List (Flow Site))
    (tails : List Item) : Prop where
  answer : Answered τ t b l word target
  fresh : ρ.links.size ≤ l
  bridge : ρ.nodes.size ≤ b ∧ b < τ.nodes.size
  inside : ∀ first, target = .node first → ρ.nodes.size ≤ first ∧ first < τ.nodes.size
  leads : Leads τ (Flow.entryOf ts) target
  holds : Holds ρ τ (Flow.verticesAll [] ts)
  apart : ∀ i ∈ (Flow.verticesAll [] ts).flatMap Vertex.nodes, i ≠ b
  exits : ∃ Es, TailEnds τ ρ.nodes.size (τ.nodes.size - ρ.nodes.size) tails Es ∧
    Es.flatten.Nodup ∧ ∀ e, e ∈ Es.flatten ↔ e ∈ armEnds b ts
  leaves : Unfolded ρ τ false tails
  head : ArmHead τ target ts

theorem armHead_of_row {first last : Nat} {front : List (Flow Site)} {u : Flow Site}
    (h : Row ρ τ first last front u) : ArmHead τ (.node first) (front ++ [u]) := by
  obtain ⟨f, rest, hlist, henters⟩ := h.first_cons
  have hholds := h.holds
  rw [hlist] at hholds ⊢
  cases hf : f.isPlain with
  | false =>
    refine .inr ⟨?_, .inr ⟨first, rfl, .inl (isGroup_of_not_plain henters.heads henters.plain hf)⟩⟩
    cases f with
    | step v => cases hf
    | jump v => cases hf
    | _ => rfl
  | true =>
    have hfirst := henters.plain.2 hf
    cases f with
    | step v =>
      obtain rfl : first = v.node := hfirst
      cases rest with
      | nil =>
        obtain ⟨shape, item, hform, -, -, rfl, hlinks⟩ := hholds.wired
          (.box v (some ⟨[], none⟩)) List.mem_cons_self
        refine .inl ⟨rfl, v, shape, rfl, rfl, hform, ?_⟩
        rcases hlinks with ⟨-, hlinks⟩ | ⟨hne, -⟩
        · exact hlinks
        · exact absurd rfl hne
      | cons w rest =>
        obtain ⟨shape, item, hform, -, -, harr, hlinks⟩ := hholds.wired
          (.box v (some ⟨[], some w.entry⟩)) List.mem_cons_self
        refine .inr ⟨rfl, .inr ⟨_, rfl, .inr ⟨shape, hform, ?_⟩⟩⟩
        rcases hlinks with ⟨rfl, -⟩ | ⟨-, l, hlinks, -⟩
        · exact (not_headsTo_nothing harr.1).elim
        · rw [hlinks]
          simp
    | jump v =>
      obtain rfl : first = v.node := hfirst
      obtain ⟨hform, hlinks⟩ := henters.jump v rfl
      exact .inl ⟨rfl, v, .jump, rfl, rfl, hform, hlinks⟩
    | _ => cases hf

theorem answer_tails {role : DecisionRole} {group : GroupRole} {head : Item} (hs : τ.Sound)
    (hn : IsTest (τ.node t) role yes no links text name)
    (hf : (τ.node g).form = .group group head tails "" "") (hgt : g ≠ t) (answer : Answer)
    (ht : target.Within τ) (k : Nat → List Item) :
    ∃ τ', (do
        let out ← connectAnswer t answer target
        setTails g (· ++ k out) : Action Unit) τ = .ok () τ' ∧ Grows [t, g] τ τ' ∧
      τ'.nodes.size = τ.nodes.size + 1 ∧ τ'.nextId = τ.nextId + 1 ∧
      IsTest (τ'.node t) role (match answer with | .yes => .link (τ.links.size + 1) | .no => yes)
        (match answer with | .yes => no | .no => .link (τ.links.size + 1))
        (links ++ [.link (τ.links.size + 1)]) text name ∧
      Answered τ' t τ.nodes.size (τ.links.size + 1) answer.word target ∧
      (τ'.node g).form = .group group head (tails ++ k τ.nodes.size) "" "" := by
  have hglt := lt_size_of_isGroup (isGroup_of_form hf)
  obtain ⟨τ₁, hrun, hg₁, hsize, hcount, hn₁, hans⟩ := answer_step hs hn answer ht
  have hg₂ : Grows [g] τ₁ (τ₁.mapNode g
      (·.regroup fun role head tails => (role, head, tails ++ k τ.nodes.size))) :=
    grows_regroup hg₁.sound fun _ _ _ => rfl
  refine ⟨_, ?_, hg₁.trans hg₂, ?_, hcount, hn₁.grow hg₂ ?_, hans.grow hg₁.sound hg₂ ?_, ?_⟩
  · rw [bind_ok hrun]
    exact setTails_run g _
  · rw [Store.size_mapNode, hsize]
  · simpa using hgt.symm
  · simp
    omega
  · refine form_regroup ?_ _
    rw [hg₁.node g hglt (by simpa using hgt), hf]

/-- Leads an answer to a row of statements, whose last becomes a tail of the group. -/
theorem arm_of_row {role : DecisionRole} {group : GroupRole} {head : Item} {first last : Nat}
    {front : List (Flow Site)} {u : Flow Site} (answer : Answer)
    (hn : IsTest (ρ.node t) role yes no links text name)
    (hf : (ρ.node g).form = .group group head tails "" "") (hgt : g ≠ t) (hg : Grows [] ρ τ)
    (hrow : Row ρ τ first last front u) :
    ∃ τ' l b, (do
        let _ ← connectAnswer t answer (.node first)
        setTails g (· ++ [.node last]) : Action Unit) τ = .ok () τ' ∧ τ'.nextId = τ.nextId + 1 ∧
      Grows [t, g] ρ τ' ∧
      Arm ρ τ' t l b answer.word (.node first) (front ++ [u]) [.node last] ∧
      IsTest (τ'.node t) role (match answer with | .yes => .link l | .no => yes)
        (match answer with | .yes => no | .no => .link l) (links ++ [.link l]) text name ∧
      (τ'.node g).form = .group group head (tails ++ [.node last]) "" "" ∧
      Flow.mapAll (boxAt τ') (front ++ [u]) = Flow.mapAll (boxAt τ) (front ++ [u]) := by
  have hglt := lt_size_of_isGroup (isGroup_of_form hf)
  have hf₁ : (τ.node g).form = .group group head tails "" "" := by
    rw [hg.node g hglt (by simp), hf]
  have hsize := hg.size
  have hcount := hg.linkCount
  obtain ⟨f, rest, hlist, henters⟩ := hrow.first_cons
  have hfirst : (Item.node first).Within τ := by
    rintro i ⟨⟩
    exact henters.inside.2
  obtain ⟨τ', hrun, hg', hsize', hcount', hn', hans, hf'⟩ := answer_tails hg.sound
    (hn.grow hg (by simp)) hf₁ hgt answer hfirst fun _ => [.node last]
  have hbefore : ∀ i ∈ [t, g], i < ρ.nodes.size := by
    simpa using ⟨hn.lt_size, hglt⟩
  have hrow' := hrow.grow hg.sound hg' hbefore
  refine ⟨τ', _, τ.nodes.size, hrun, hcount', hg.trans hg',
    ⟨hans, by omega, by omega, ?_, ?_, hrow'.holds, ?_, ?_,
    hrow'.leaves, armHead_of_row hrow'⟩, hn', hf', hrow.boxes_grow hg' hbefore⟩
  · rintro i ⟨⟩
    have := henters.inside
    omega
  · rw [hlist]
    exact hg'.arrives hfirst henters.heads
  · intro i hi he
    obtain ⟨x, hx, hmem⟩ := List.mem_flatMap.1 hi
    have := (hrow.holds.inside x hx i hmem).2
    omega
  · obtain ⟨F, hF, hnodup, hmem⟩ := hrow'.exits
    refine ⟨[F], .cons hF .nil, by simpa using hnodup, fun e => ?_⟩
    rw [List.flatten_singleton, hmem e, armEnds, if_neg (by simp), ends_verticesAll]

theorem branchArm_realizes {group : GroupRole} {head : Item} (answer : Answer)
    {suite : Action Nat} {spec : Except Fault (List (Flow Box))} (h : BuildsSuite suite spec)
    (hρ : ρ.Sound) (hn : IsTest (ρ.node t) .branch yes no links text name)
    (hf : (ρ.node g).form = .group group head tails "" "") (hgt : g ≠ t) :
    Realizes ρ (branchArm g t answer suite) spec fun _ τ flows => ∃ ts l b target tails',
      Grows [t, g] ρ τ ∧ Arm ρ τ t l b answer.word target ts tails' ∧
      IsTest (τ.node t) .branch (match answer with | .yes => .link l | .no => yes)
        (match answer with | .yes => no | .no => .link l) (links ++ [.link l]) text name ∧
      (τ.node g).form = .group group head (tails ++ tails') "" "" ∧
      Flow.mapAll (boxAt τ) ts = flows := by
  unfold branchArm
  rw [← bind_pure spec]
  refine (h ρ hρ).bind (fun s τ₁ flows _ hsuite => ?_) fun _ _ _ hsuite => hsuite.1.silent
  obtain ⟨hg₁, hends⟩ := hsuite
  cases hends with
  | empty hrun =>
    have hglt := lt_size_of_isGroup (isGroup_of_form hf)
    have hf₁ : (τ₁.node g).form = .group group head tails "" "" := by
      rw [hg₁.node g hglt (by simp), hf]
    have hsize₁ := hg₁.size
    have hcount₁ := hg₁.linkCount
    have hnothing : Item.nothing.Within τ₁ := fun _ hj => by cases hj
    obtain ⟨τ₂, hrun₂, hg₂, hsize₂, -, hn₂, hans, hf₂⟩ := answer_tails hg₁.sound
      (hn.grow hg₁ (by simp)) hf₁ hgt answer hnothing fun out => [.node out]
    obtain ⟨k, hbridge, -⟩ := hans.bridge
    have hplain : (τ₂.node τ₁.nodes.size).isGroup = false := by
      rw [Node.isGroup, hbridge]
      rfl
    refine .step hrun ⟨(), τ₂, hrun₂, [], _, τ₁.nodes.size, .nothing, _, hg₁.trans hg₂,
      ⟨hans, by omega, by omega, ?_, rfl, .nil ρ τ₂, by simp, ?_,
        .single (by omega) (by omega) hplain, .inr ⟨rfl, .inl rfl⟩⟩, hn₂, hf₂, rfl⟩
    · rintro first ⟨⟩
    · have hleaf : EndsIn τ₂ ρ.nodes.size (τ₂.nodes.size - ρ.nodes.size) τ₁.nodes.size
          [τ₁.nodes.size] := by
        rw [show τ₂.nodes.size - ρ.nodes.size = (τ₁.nodes.size - ρ.nodes.size) + 1 by omega]
        exact .leaf hsize₁ (by omega) (by rw [hbridge]; rfl)
      exact ⟨_, .cons hleaf .nil, by simp, by simp [armEnds]⟩
  | @row first last front u hform hrow =>
    obtain ⟨τ₂, l, b, hrun₂, -, hrest⟩ := arm_of_row answer hn hf hgt hg₁ hrow
    exact .step (groupEnds_run hform) ⟨(), τ₂, hrun₂, front ++ [u], l, b, .node first, _, hrest⟩

theorem TailEnds.transfer {lo lo' n m : Nat} {Es : List (List Nat)}
    (hsize : τ.nodes.size ≤ τ'.nodes.size)
    (hform : ∀ i, lo ≤ i → i < τ.nodes.size → ending (τ'.node i).form = ending (τ.node i).form)
    (hlo : lo' ≤ lo) (hm : n ≤ m) (h : TailEnds τ lo n tails Es) : TailEnds τ' lo' m tails Es := by
  refine List.Forall₂.imp ?_ h
  intro item e he
  cases item with
  | node j => exact EndsIn.transfer hsize hform hlo hm he
  | nothing => exact he
  | link l => exact he

theorem ArmHead.grow (hg : Grows E τ τ')
    (hE : ∀ first, target = .node first → first ∉ E ∧ first < τ.nodes.size)
    (h : ArmHead τ target ts) : ArmHead τ' target ts := by
  rcases h with ⟨hone, v, shape, hv, rfl, hrest⟩ | ⟨hone, rfl | ⟨first, rfl, hrest⟩⟩
  · refine .inl ⟨hone, v, shape, hv, rfl, ?_⟩
    rwa [hg.node _ (hE _ rfl).2 (hE _ rfl).1]
  · exact .inr ⟨hone, .inl rfl⟩
  · refine .inr ⟨hone, .inr ⟨first, rfl, ?_⟩⟩
    rwa [hg.node _ (hE _ rfl).2 (hE _ rfl).1]

theorem Arm.grow (hs : τ.Sound) (hg : Grows E τ τ') (hE : ∀ i ∈ E, i < ρ.nodes.size)
    (h : Arm ρ τ t l b word target ts tails) : Arm ρ τ' t l b word target ts tails := by
  have hafter : ∀ i, ρ.nodes.size ≤ i → i ∉ E := fun i hi hmem => by
    have := hE i hmem
    omega
  have hsize := hg.size
  refine ⟨h.answer.grow hs hg (hafter b h.bridge.1), h.fresh,
    ⟨h.bridge.1, by have := h.bridge.2; omega⟩, ?_,
    ?_, ?_, h.apart, ?_, h.leaves.grow hg hE, h.head.grow hg ?_⟩
  · intro first hfirst
    have := h.inside first hfirst
    omega
  · exact h.leads.grow hg fun i hi => (h.inside i hi).2
  · exact h.holds.grow hs hg fun x hx i hi => hafter i (h.holds.inside x hx i hi).1
  · obtain ⟨Es, htails, hnodup, hmem⟩ := h.exits
    refine ⟨Es, htails.transfer hsize ?_ (Nat.le_refl _) (by omega), hnodup, hmem⟩
    intro i hlo hi
    rw [hg.node i hi (hafter i hlo)]
  · intro first hfirst
    exact ⟨hafter first (h.inside first hfirst).1, (h.inside first hfirst).2⟩

theorem Arm.ends_inside (h : Arm ρ τ t l b word target ts tails) :
    ∀ e ∈ armEnds b ts, ρ.nodes.size ≤ e ∧ e < τ.nodes.size := by
  intro e he
  unfold armEnds at he
  split at he
  · obtain rfl := List.mem_singleton.1 he
    exact h.bridge
  · obtain ⟨x, hx, hmem⟩ := List.mem_flatMap.1 he
    exact h.holds.inside x hx e (ends_subset e hmem)

theorem mem_branch_ends (s : Site) (body orelse : List (Flow Site)) (e : Nat) :
    e ∈ (Flow.vertices [] (.branch s body orelse)).flatMap Vertex.ends ↔
      e ∈ armEnds s.yes body ∨ e ∈ armEnds s.no orelse := by
  rw [Flow.vertices, List.flatMap_cons, List.flatMap_append, List.mem_append, List.mem_append]
  unfold armEnds
  cases body with
  | nil => cases orelse <;> simp [Vertex.ends]
  | cons u us =>
    generalize (Flow.verticesAll [] (u :: us)).flatMap Vertex.ends = xs
    cases orelse with
    | nil => simp [Vertex.ends, or_comm]
    | cons v vs => simp [Vertex.ends]

section

variable {τ₁ τ₂ : Store} {y n b₁ b₂ number : Nat} {target₁ target₂ : Item}
  {body orelse : List (Flow Site)} {tails₁ tails₂ : List Item}

theorem branch_row (ho : Opened σ ρ t g number .branch (.branch (.node t)) text)
    (hg₁ : Grows [t, g] ρ τ₁) (h₁ : Arm ρ τ₁ t y b₁ "yes" target₁ body tails₁)
    (hg₂ : Grows [t, g] τ₁ τ₂) (h₂ : Arm τ₁ τ₂ t n b₂ "no" target₂ orelse tails₂)
    (hn : IsTest (τ₂.node t) .branch (.link y) (.link n) [.link y, .link n] text
      ("cond" ++ toString number))
    (hf : (τ₂.node g).form = .group (.branch (.node t)) (.node t) (tails₁ ++ tails₂) "" "") :
    Row σ τ₂ g g [] (.branch ⟨t, number, b₁, b₂, []⟩ body orelse) := by
  let s : Site := ⟨t, number, b₁, b₂, []⟩
  obtain ⟨hσt, htg, hgρ⟩ := ho.inside
  have hσsize := ho.grows.size
  have hsize₁ := hg₁.size
  have hsize₂ := hg₂.size
  have hb₁ := h₁.bridge
  have hb₂ := h₂.bridge
  have htρ : t < ρ.nodes.size := by omega
  have htτ : t < τ₂.nodes.size := by omega
  have hbefore : ∀ i ∈ [t, g], i < ρ.nodes.size := by
    simp
    omega
  have hyes := h₁.grow hg₁.sound hg₂ hbefore
  have hvertex : VertexAt τ₂ (.test s (some (Flow.entryOf body)) (Flow.entryOf orelse)) :=
    ⟨.branch, y, n, hn.form, hn.links, hyes.answer.answerAt (by decide) hyes.leads,
      h₂.answer.answerAt (by decide) h₂.leads⟩
  have hnumbered : Numbered τ₂ s := ⟨"cond", by simp, hn.name⟩
  have hleaves : Unfolded ρ τ₂ false (tails₁ ++ tails₂) :=
    .append hsize₁ hg₂ hbefore h₁.leaves h₂.leaves
  refine .of_group hf (by omega) ?_ ⟨.of_not_group hn.not_group, hnumbered.name_ne⟩ rfl ?_
    (hleaves.base hσsize) ?_
  · refine (Holds.append hg₁ hg₂ hbefore h₁.holds h₂.holds).cons_test ho.grows
      (Nat.le_trans hg₁.nextId hg₂.nextId) (by omega) hvertex hnumbered ⟨hσt, htρ⟩ ho.counted
      ?_ ?_ ?_
    · simp [bridges]
      omega
    · simp [bridges]
      omega
    · intro i hi x hx hmem
      have hcases : i = b₂ ∨ i = b₁ := by simpa [bridges, s] using hi
      rcases List.mem_append.1 hx with hx | hx
      · have := (h₁.holds.inside x hx i hmem).2
        have := h₁.apart i (List.mem_flatMap.2 ⟨x, hx, hmem⟩)
        omega
      · have := (h₂.holds.inside x hx i hmem).1
        have := h₂.apart i (List.mem_flatMap.2 ⟨x, hx, hmem⟩)
        omega
  · obtain ⟨Es₁, ht₁, hnodup₁, hmem₁⟩ := hyes.exits
    obtain ⟨Es₂, ht₂, hnodup₂, hmem₂⟩ := h₂.exits
    have hdepth : τ₂.nodes.size - ρ.nodes.size + 1 ≤ τ₂.nodes.size - σ.nodes.size := by omega
    have ht₁ := ht₁.transfer (Nat.le_refl _) (fun _ _ _ => rfl) hσsize (Nat.le_refl _)
    have ht₂ := ht₂.transfer (Nat.le_refl _) (fun _ _ _ => rfl)
      (Nat.le_trans hσsize hsize₁) (Nat.sub_le_sub_left hsize₁ _)
    refine .of_tails (by omega) (by rw [hf]; rfl) (by omega) (List.rel_append ht₁ ht₂) hdepth ?_ ?_
    · rw [List.flatten_append]
      refine List.nodup_append.2 ⟨hnodup₁, hnodup₂, ?_⟩
      rintro e he _ he' rfl
      have := (h₁.ends_inside e ((hmem₁ e).1 he)).2
      have := (h₂.ends_inside e ((hmem₂ e).1 he')).1
      omega
    · intro e
      rw [mem_branch_ends, List.flatten_append, List.mem_append, hmem₁, hmem₂]
  · exact ⟨⟨hσt, htτ, by rw [hn.form]; rfl, _, _, _, _, hf⟩, hn.params⟩

end

theorem Arm.nothing_iff (h : Arm ρ τ t l b word target ts tails) :
    (target == .nothing) = ts.isEmpty := by
  have hleads := h.leads
  cases ts with
  | nil =>
    obtain rfl : target = .nothing := hleads
    rfl
  | cons u us =>
    cases target with
    | nothing => exact (not_headsTo_nothing hleads.1).elim
    | node j => rfl
    | link k => rfl

theorem isWithoutElse_run (hs : τ.Sound) {n : Nat}
    (hn : IsTest (τ.node t) .branch yes (.link n) links text name)
    (hno : Answered τ t b n word target) :
    isWithoutElse (.node t) τ = .ok (target == .nothing) τ := by
  obtain ⟨k, hbridge, -⟩ := hno.bridge
  unfold isWithoutElse
  refine (bind_ok (getNode_run τ t)).trans ?_
  rw [hn.form]
  unfold hasNoAlternative orPrinted
  apply tryCatch_ok
  refine (bind_ok (noOf_run hs hn)).trans ((bind_ok (getLink_run τ n)).trans ?_)
  rw [hno.link]
  refine (bind_ok (getNode_run τ b)).trans ?_
  rw [hbridge]
  rfl

theorem bodyIsOneLine_run (hs : τ.Sound) {y : Nat} (hy : Answered τ t b y word target)
    (hh : ArmHead τ target ts) : bodyIsOneLine (.link y) τ = .ok (oneLine ts) τ := by
  unfold bodyIsOneLine
  rcases hh with ⟨hone, v, shape, -, rfl, hf, hlinks⟩ |
      ⟨hone, rfl | ⟨first, rfl, hgroup | ⟨shape, hf, hlinks⟩⟩⟩
  · refine (bind_ok (plainBody_run hy)).trans ?_
    rw [hf]
    refine (bind_ok (linksOf_run τ v.node (hs.fits v.node).whole)).trans ?_
    rw [ownLinks_box hf, hlinks, hone]
    rfl
  · obtain ⟨k, hbridge, -⟩ := hy.bridge
    have hplain : plainBody (.link y) τ = .ok none τ := by
      unfold plainBody
      refine (bind_ok (getLink_run τ y)).trans ?_
      rw [hy.link]
      refine (bind_ok (getNode_run τ b)).trans ?_
      rw [hbridge]
      rfl
    refine (bind_ok hplain).trans ?_
    rw [hone]
    rfl
  · refine (bind_ok (plainBody_run hy)).trans ?_
    rw [show (τ.node first).form.isGroup = true from hgroup, hone]
    rfl
  · refine (bind_ok (plainBody_run hy)).trans ?_
    rw [hf]
    refine (bind_ok (linksOf_run τ first (hs.fits first).whole)).trans ?_
    rw [ownLinks_box hf, hone, show (τ.node first).links.isEmpty = false by simpa using hlinks]
    rfl

theorem branchFlow_of_not_line (options : Options) (test : Box) {body orelse : List (Flow Site)}
    (h : (options.simplify && (orelse.isEmpty && oneLine body)) = false) :
    branchFlow options test (Flow.mapAll (boxAt τ) body) (Flow.mapAll (boxAt τ) orelse)
      = .branch test (Flow.mapAll (boxAt τ) body) (Flow.mapAll (boxAt τ) orelse) := by
  unfold branchFlow
  split
  · next b hopt hbody horelse =>
    match body, orelse, hbody, horelse with
    | [.step v], [], _, _ => simp [hopt, oneLine] at h
  · next b rest hopt hbody horelse =>
    match body, orelse, hbody, horelse with
    | .jump v :: us, [], _, _ => simp [hopt, oneLine] at h
  · rfl

theorem branchFlow_of_line {options : Options} (hopt : options.simplify = true) (test : Box)
    {body orelse : List (Flow Site)} (hempty : orelse.isEmpty = true) (hone : oneLine body = true)
    {v : Site} (hv : Flow.entryOf body = some v) :
    branchFlow options test (Flow.mapAll (boxAt τ) body) (Flow.mapAll (boxAt τ) orelse)
      = .merged true ⟨some .operation, branchText (boxAt τ v).text test.text, []⟩ := by
  obtain rfl := List.isEmpty_iff.1 hempty
  unfold oneLine at hone
  split at hone
  · cases hv
    simp only [branchFlow, hopt, Flow.mapAll, Flow.map, Flow.entry]
  · cases hv
    simp only [branchFlow, hopt, Flow.mapAll, Flow.map, Flow.entry]
  · cases hone

section

variable {y n b₁ b₂ : Nat} {target₁ target₂ head : Item} {body orelse : List (Flow Site)}
  {d c : String} (hs : τ.Sound)
  (hn : IsTest (τ.node t) .branch (.link y) (.link n) [.link y, .link n] text name)
  (hno : Answered τ t b₂ n "no" target₂)
include hs hn hno

theorem simplify_branch_run {τ' : Store}
    (hg : (τ.node g).form = .group (.branch (.node t)) head tails d c)
    (hy : Answered τ t b₁ y "yes" target₁) (hh : ArmHead τ target₁ body)
    (hrun : (do
      if target₂ == .nothing && oneLine body then
        let (body, condition) ← bodyAndTest (.node t)
        replaceBy g (branchText body condition) "" : Action Unit) τ = .ok () τ') :
    simplify g τ = .ok () τ' := by
  have hask : isOneLine (.node t) τ = .ok (oneLine body) τ := by
    unfold isOneLine
    refine (bind_ok (getNode_run τ t)).trans ?_
    rw [hn.form]
    unfold branchIsOneLine orPrinted
    apply tryCatch_ok
    exact (bind_ok (yesOf_run hs hn)).trans (bodyIsOneLine_run hs hy hh)
  unfold simplify
  rw [bind_ok (getNode_run τ g), hg]
  apply tryCatch_ok
  refine (bind_ok (present_run τ g "cond_node" (Item.node t) (hs.fits g).whole)).trans ?_
  refine (bind_ok (isWithoutElse_run hs hn hno)).trans ?_
  cases hnothing : target₂ == .nothing with
  | false =>
    rw [hnothing] at hrun
    exact hrun
  | true =>
    rw [hnothing, Bool.true_and] at hrun
    exact (bind_ok hask).trans hrun

theorem turnRight_run (hσ : σ.Sound) (hg : Grows [] σ τ) (hy : σ.links.size ≤ y) :
    ∃ τ', turnRight t τ = .ok () τ' ∧ Grows [] σ τ' ∧ Alike τ τ' ∧ ∀ i, τ'.node i = τ.node i := by
  unfold turnRight
  cases hnothing : target₂ == .nothing with
  | false =>
    refine ⟨τ, ?_, hg, .refl τ, fun _ => rfl⟩
    refine (bind_ok (isWithoutElse_run hs hn hno)).trans ?_
    rw [hnothing]
    rfl
  | true =>
    let f : Link → Link := fun k => { k with labels := k.labels ++ [some "right"] }
    refine ⟨τ.mapLink y f, ?_, ?_, ?_, fun _ => rfl⟩
    · refine (bind_ok (isWithoutElse_run hs hn hno)).trans ?_
      rw [hnothing]
      refine (bind_ok (yesOf_run hs hn)).trans ?_
      rfl
    · refine .of_later hσ hg (hs.mapLink rfl) (Nat.le_refl _) (by simp)
        (Nat.le_refl _) (fun _ _ => rfl)
        ?_ rfl rfl rfl
      intro l hl
      exact τ.link_mapLink_of_ne y l f (by omega)
    · refine .mapLink hs (t := t) (by rw [hn.form]; rfl) ?_ fun _ => rfl
      simp [Node.ownLinks, hn.form, hn.links]

theorem simplified_branch (options : Options) {s : Site} {number : Nat}
    (hname : name = "cond" ++ toString number) (hσ : σ.Sound) (hgσ : Grows [] σ τ)
    (hst : s.node = t) (hrow : Row σ τ g g [] (.branch s body orelse))
    (hf : (τ.node g).form = .group (.branch (.node t)) (.node t) tails d c)
    (hy : Answered τ t b₁ y "yes" target₁) (hh : ArmHead τ target₁ body)
    (hnothing : (target₂ == .nothing) = orelse.isEmpty) (htin : σ.nodes.size ≤ t)
    (hcount : σ.nextId ≤ number ∧ number < τ.nextId) :
    ∃ τ' u, (do if options.simplify then simplify g : Action Unit) τ = .ok () τ' ∧ Grows [] σ τ' ∧
      Row σ τ' g g [] u ∧ u.map (boxAt τ') = branchFlow options ⟨none, text, []⟩
        (Flow.mapAll (boxAt τ) body) (Flow.mapAll (boxAt τ) orelse) ∧
      IsTest (τ'.node t) .branch (.link y) (.link n) [.link y, .link n] text name ∧
      Answered τ' t b₂ n "no" target₂ ∧
      τ'.nextId = τ.nextId + (options.simplify && (orelse.isEmpty && oneLine body)).toNat := by
  subst hname
  cases hone : options.simplify && (orelse.isEmpty && oneLine body) with
  | false =>
    refine ⟨τ, _, ?_, hgσ, hrow, ?_, hn, hno, rfl⟩
    · cases hopt : options.simplify with
      | false => rfl
      | true =>
        rw [hopt, Bool.true_and] at hone
        refine simplify_branch_run hs hn hno hf hy hh ?_
        rw [hnothing, hone]
        rfl
    · rw [branchFlow_of_not_line options _ hone, Flow.map, hn.boxAt hst]
  | true =>
    obtain ⟨hopt, hone⟩ := Bool.and_eq_true_iff.1 hone
    obtain ⟨hempty, hone⟩ := Bool.and_eq_true_iff.1 hone
    rcases hh with ⟨hone, v, shape, hv, rfl, hshape, hlinks⟩ | ⟨hone', -⟩
    · obtain ⟨τ', s', hrun, hg', hrow', hbox, hnext, hlink, hother⟩ :=
        replaceBy_row true hσ hgσ hf hn
          hrow.leave.inside.1 htin hcount (branchText (τ.node v.node).text text)
      have hkeep : ∀ {i}, (τ.node i).isGroup = false → i < τ.nodes.size → τ'.node i = τ.node i := by
        intro i hi hlt
        refine hother i hlt ?_
        rintro rfl
        rw [isGroup_of_form hf] at hi
        cases hi
      refine ⟨τ', _, ?_, hg', hrow', ?_, ?_, ?_, hnext⟩
      · rw [hopt]
        refine simplify_branch_run hs hn hno hf hy
          (.inl ⟨hone, v, shape, hv, rfl, hshape, hlinks⟩) ?_
        rw [hnothing, hempty, hone]
        exact (bind_ok (bodyAndTest_run hs hn hy hshape)).trans hrun
      · rw [Flow.map, hbox, branchFlow_of_line hopt _ hempty hone hv]
        rfl
      · rw [hkeep hn.not_group hn.lt_size]
        exact hn
      · obtain ⟨k, hbridge, hk⟩ := hno.bridge
        have hlink' : ∀ l, τ'.link l = τ.link l := fun l => by rw [Store.link, hlink, Store.link]
        have hb : τ'.node b₂ = τ.node b₂ :=
          hkeep (by rw [Node.isGroup, hbridge]; rfl) (hs.targets n b₂ hno.link)
        refine ⟨(hlink' n).symm ▸ hno.link, hlink ▸ hno.bound, hb ▸ hno.name, k, hb ▸ hbridge, ?_⟩
        rw [hlink' k, hk]
    · rw [hone'] at hone
      cases hone

end

theorem branch_closed (options : Options) {τ₁ τ₂ : Store} {y n b₁ b₂ number : Nat}
    {target₁ target₂ : Item} {body orelse : List (Flow Site)} {tails₁ tails₂ : List Item}
    (hσ : σ.Sound) (ho : Opened σ ρ t g number .branch (.branch (.node t)) text)
    (hg₁ : Grows [t, g] ρ τ₁) (h₁ : Arm ρ τ₁ t y b₁ "yes" target₁ body tails₁)
    (hg₂ : Grows [t, g] τ₁ τ₂) (h₂ : Arm τ₁ τ₂ t n b₂ "no" target₂ orelse tails₂)
    (hn : IsTest (τ₂.node t) .branch (.link y) (.link n) [.link y, .link n] text
      ("cond" ++ toString number))
    (hf : (τ₂.node g).form = .group (.branch (.node t)) (.node t) (tails₁ ++ tails₂) "" "") :
    ∃ τ', (do
        if options.simplify then simplify g
        if options.align then turnRight t
        return g : Action Nat) τ₂ = .ok g τ' ∧
      Built σ g τ' (branchFlow options ⟨none, text, []⟩ (Flow.mapAll (boxAt τ₁) body)
        (Flow.mapAll (boxAt τ₂) orelse)) ∧
      τ'.nextId = τ₂.nextId + (options.simplify && (orelse.isEmpty && oneLine body)).toNat := by
  obtain ⟨hσt, htg, hgρ⟩ := ho.inside
  have hbefore : ∀ i ∈ [t, g], i < ρ.nodes.size := by
    simp
    omega
  have h₁' := h₁.grow hg₁.sound hg₂ hbefore
  have hrow := branch_row ho hg₁ h₁ hg₂ h₂ hn hf
  have hgσ : Grows [] σ τ₂ := (ho.grows.trans (hg₁.trans hg₂)).drop (by simp; omega)
  have hlater : ρ.nextId ≤ τ₂.nextId := Nat.le_trans hg₁.nextId hg₂.nextId
  obtain ⟨τ₃, u, hrun₃, hg₃, hrow₃, hbox₃, hn₃, hno₃, hnext₃⟩ := simplified_branch hgσ.sound hn
    h₂.answer options rfl hσ hgσ rfl hrow hf h₁'.answer h₁'.head h₂.nothing_iff hσt
    ⟨ho.counted.1, Nat.lt_of_lt_of_le ho.counted.2 hlater⟩
  obtain ⟨τ₄, hrun₄, hg₄, halike, hsame⟩ : ∃ τ₄,
      (if options.align then turnRight t else pure ()) τ₃ = .ok () τ₄ ∧ Grows [] σ τ₄ ∧
        Alike τ₃ τ₄ ∧ ∀ i, τ₄.node i = τ₃.node i := by
    cases options.align with
    | false => exact ⟨τ₃, rfl, hg₃, .refl τ₃, fun _ => rfl⟩
    | true =>
      exact turnRight_run hg₃.sound hn₃ hno₃ hσ hg₃ (Nat.le_trans ho.grows.linkCount h₁.fresh)
  have hbox₄ : boxAt τ₄ = boxAt τ₃ := funext fun s => by rw [boxAt, boxAt, hsame]
  refine ⟨τ₄, (ite_bind_ok hrun₃).trans (ite_bind_ok hrun₄), ⟨hg₄, u,
    hrow₃.alike halike (fun i => by rw [hsame]) (fun s _ => by rw [hsame]), ?_⟩,
    halike.nextId.trans hnext₃⟩
  rw [hbox₄, hbox₃, mapAll_boxAt_grow hg₂ hbefore fun s hs => h₁.holds.place_inside hs]

theorem builds_branch (options : Options) (code : Code.Piece) {body orelse : Action Nat}
    {spec spec' : Except Fault (List (Flow Box))} (h : BuildsSuite body spec)
    (h' : BuildsSuite orelse spec') :
    Builds (branch options code body orelse) (do
      let test ← code.header
      let body ← spec
      let orelse ← spec'
      return branchFlow options ⟨none, test, []⟩ body orelse) := by
  intro σ hσ
  unfold branch
  refine .step (takeId_run σ) ?_
  have hcount := grows_countId hσ
  refine (newCodeDecision_realizes hcount.sound .branch code code.header).bind ?_
    fun _ _ _ ⟨_, hmade⟩ => hmade.grows.silent
  rintro t τ₀ text - ⟨number, hmade⟩
  let g := τ₀.nodes.size
  let ρ := τ₀.withGroup (.branch (.node t)) (.node t) [] (some code)
  have ho : Opened σ ρ t g number .branch (.branch (.node t)) text := hmade.opened hcount _ _
  obtain ⟨hσt, htg, hgρ⟩ := ho.inside
  have hgt : g ≠ t := Nat.ne_of_gt htg
  refine .step (newGroup_run τ₀ _ (fun l => by simp) [] (some code)) ?_
  refine (branchArm_realizes .yes h ho.grows.sound ho.test ho.form hgt).bind ?_
    fun _ _ _ ⟨_, _, _, _, _, hg, _⟩ => hg.silent
  rintro - τ₁ flows - ⟨ts, y, b₁, target₁, tails₁, hg₁, h₁, hn₁, hf₁, rfl⟩
  refine (branchArm_realizes .no h' hg₁.sound hn₁ hf₁ hgt).bind ?_
    fun _ _ _ ⟨_, _, _, _, _, hg, _⟩ => hg.silent
  rintro - τ₂ flows' - ⟨us, n, b₂, target₂, tails₂, hg₂, h₂, hn₂, hf₂, rfl⟩
  obtain ⟨τ', hrun, hbuilt, -⟩ := branch_closed options hσ ho hg₁ h₁ hg₂ h₂ hn₂ hf₂
  exact .ok hrun hbuilt

end CodeChart.Chart
