import CodeChart.Proofs.Construction

/-! How many numbers the constructs of a chart take. A construct takes some numbers of its own and
those of its parts; connecting what has been built takes none, and putting a loop or a branch in one
box takes one more. The body of a loop is built twice, so its numbers count twice. -/
namespace CodeChart.Chart

open CodeChart.Graph Code

variable {σ ρ τ τ' : Store} {t g n m : Nat} {body orelse : Action Nat} {acts : List (Action Nat)}
  {spec spec' : Except Fault (List (Flow Box))} {specs : Except Fault (List (Flow Box))}

/-- From every sound store the action takes `n` numbers, if it succeeds. -/
def Takes (act : Action Nat) (n : Nat) : Prop :=
  ∀ σ : Store, σ.Sound → ∀ g τ, act σ = .ok g τ → τ.nextId = σ.nextId + n

inductive TakesAll : List (Action Nat) → Nat → Prop where
  | nil : TakesAll [] 0
  | cons {act acts n m} : Takes act n → TakesAll acts m → TakesAll (act :: acts) (n + m)

theorem takes_codeBox (shape : Shape) (code : Piece) (text : Except Fault String) :
    Takes (newCodeBox shape code text) 2 :=
  fun _ _ _ _ hrun => newCodeBox_nextId hrun

theorem takes_unlessMissing (missing : List String) (code : Piece) (part : String)
    (h : Takes body n) : Takes (unlessMissing missing code part body) n := by
  intro σ hσ g τ hrun
  unfold unlessMissing at hrun
  cases hm : missing.contains part with
  | true =>
    rw [hm] at hrun
    cases hrun
  | false =>
    rw [hm] at hrun
    exact h σ hσ g τ hrun

theorem chain_takes (options : Options) {first : Nat} (h : BuildsAll Builds acts specs)
    (hm : TakesAll acts m) :
    ∀ {τ last front t last' τ'}, Grows [] σ τ → Row σ τ first last front t →
      chain options last acts τ = .ok last' τ' → τ'.nextId = τ.nextId + m := by
  induction h generalizing m with
  | nil =>
    intro τ last front t last' τ' _ _ hrun
    cases hm
    cases hrun
    rfl
  | @cons act acts spec specs hact _ ih =>
    intro τ last front t last' τ' hg hrow hrun
    cases hm with
    | cons hn hm =>
      obtain ⟨next, τ₁, hrun₁, hrun⟩ := exists_of_bind hrun
      obtain ⟨_, τ₂, hrun₂, hrun⟩ := exists_of_bind hrun
      obtain ⟨-, -, hg₁, u, hu, -⟩ := (hact τ hg.sound).exists_of_run hrun₁
      obtain ⟨τ₂', hjoin, hg₂, hnext, hrow₂, -⟩ := join_run options hg hrow hg₁ hu
      cases hjoin.symm.trans hrun₂
      have hcount := hn τ hg.sound _ _ hrun₁
      have hrest := ih hm hg₂ hrow₂ hrun
      omega

theorem takes_suite (options : Options) (h : BuildsAll Builds acts specs) (hm : TakesAll acts m) :
    Takes (suite options acts) (1 + m) := by
  intro σ hσ g τ hrun
  obtain ⟨_, σ₁, hgroup, hrun⟩ := exists_of_bind hrun
  cases (newGroup_run σ .suite (fun l => by simp) [] none).symm.trans hgroup
  have hnothing : Item.nothing.Within σ := fun _ hj => by cases hj
  have hg₁ := grows_withGroup hσ .suite hnothing [] none
  cases h with
  | nil =>
    cases hm
    cases hrun
    rfl
  | cons hact hacts =>
    cases hm with
    | @cons _ _ n m hn hm =>
      obtain ⟨first, τ₁, hrun₁, hrun⟩ := exists_of_bind hrun
      obtain ⟨last, τ₂, hrun₂, hrun⟩ := exists_of_bind hrun
      obtain ⟨-, -, hgτ₁, u, hu, -⟩ := (hact _ hg₁.sound).exists_of_run hrun₁
      have hfirst := hn _ hg₁.sound _ _ hrun₁
      have hrest := chain_takes options hacts hm hgτ₁ hu hrun₂
      rw [bind_ok (moveHead_run _ first), bind_ok (setTails_run _ _)] at hrun
      cases hrun
      show τ₂.nextId = σ.nextId + (1 + (n + m))
      have hone : (σ.withGroup .suite .nothing [] none).nextId = σ.nextId + 1 := rfl
      omega

theorem loopBody_takes {text name : String} (h : BuildsSuite body spec) (hn : Takes body n)
    (hidle : spec = .ok [] → n = 1) (hσ : σ.Sound)
    (ht : IsTest (σ.node t) .loop .nothing .nothing [] text name) (hname : name ≠ "")
    (hrun : loopBody t body σ = .ok () τ) : τ.nextId = σ.nextId + 2 * n + 1 := by
  obtain ⟨g, τ₁, hrun₁, hrun⟩ := exists_of_bind hrun
  obtain ⟨flows, hspec, hg₁, hends⟩ := (h σ hσ).exists_of_run hrun₁
  have hcount₁ := hn σ hσ _ _ hrun₁
  have ht₁ := ht.grow hg₁ (by simp)
  cases hends with
  | empty hempty =>
    obtain ⟨τ₂, _, _, _, _, hrun₂, -, -, -, hcount₂⟩ := loop_idle hg₁.sound ht₁ hname
    rw [bind_ok hempty] at hrun
    cases hrun₂.symm.trans hrun
    have := hidle hspec
    omega
  | @row first₁ last₁ front₁ u₁ hform₁ hrow₁ =>
    rw [bind_ok (groupEnds_run hform₁)] at hrun
    obtain ⟨g₂, τ₂, hrun₂, hrun⟩ := exists_of_bind hrun
    obtain ⟨flows₂, hspec₂, hg₂, hends₂⟩ := (h τ₁ hg₁.sound).exists_of_run hrun₂
    have hcount₂ := hn τ₁ hg₁.sound _ _ hrun₂
    cases hends₂ with
    | empty _ =>
      have hempty : Flow.mapAll (boxAt τ₁) (front₁ ++ [u₁]) = [] :=
        Except.ok.inj (hspec.symm.trans hspec₂)
      simp [Flow.mapAll_eq] at hempty
    | row hform₂ hrow₂ =>
      obtain ⟨τ₃, _, _, hrun₃, -, -, -, hcount₃⟩ :=
        loop_row hg₂ hrow₂ (ht₁.grow hg₂ (by simp)) hname ht₁.lt_size
      rw [bind_ok (groupEnds_run hform₂)] at hrun
      cases hrun₃.symm.trans hrun
      omega

theorem oneStep_mapAll {V W : Type} (f : V → W) (ts : List (Flow V)) :
    oneStep (Flow.mapAll f ts) = oneStep ts := by
  rcases ts with _ | ⟨u, _ | ⟨v, rest⟩⟩
  · rfl
  · cases u <;> rfl
  · cases u <;> rfl

theorem takes_loop (options : Options) (code : Piece) {line : Bool} (h : BuildsSuite body spec)
    (hn : Takes body n) (hidle : spec = .ok [] → n = 1)
    (hline : ∀ flows, spec = .ok flows → (options.simplify && oneStep (orIdle flows)) = line) :
    Takes (loop options code body) (6 + 2 * n + line.toNat) := by
  intro σ hσ g τ hrun
  have hcount := grows_countId hσ
  rw [loop, bind_ok (takeId_run σ)] at hrun
  obtain ⟨t, τ₁, hrun₁, hrun⟩ := exists_of_bind hrun
  obtain ⟨text, -, number, hmade⟩ :=
    (newCodeDecision_realizes hcount.sound .loop code code.header).exists_of_run hrun₁
  have hcount₁ := newCodeDecision_nextId hrun₁
  have ho := hmade.opened hcount (.loop (.node t)) (some code)
  rw [bind_ok (newGroup_run τ₁ _ (fun l => by simp) [] (some code))] at hrun
  obtain ⟨_, τ₂, hrun₂, hrun⟩ := exists_of_bind hrun
  have hcount₂ := loopBody_takes h hn hidle ho.grows.sound ho.test (by simp) hrun₂
  obtain ⟨flows, hflows, ts, y, b, first, hbody, ht, hts⟩ :=
    (loopBody_realizes h ho.grows.sound ho.test (by simp)).exists_of_run hrun₂
  obtain ⟨τ₃, hrun₃, -, hcount₃⟩ := loop_closed options hσ ho hbody ht
  cases hrun₃.symm.trans hrun
  have hone : (options.simplify && oneStep ts) = line := by
    cases spec with
    | error fault => cases hflows
    | ok flows' =>
      cases hflows
      rw [← oneStep_mapAll (boxAt τ₂), hts]
      exact hline flows' rfl
  rw [hone] at hcount₃
  have hfirst : σ.countId.nextId = σ.nextId + 1 := rfl
  have hgroup : (τ₁.withGroup (.loop (.node t)) (.node t) [] (some code)).nextId
      = τ₁.nextId + 1 := rfl
  omega

theorem branchArm_takes {answer : Answer} {group : GroupRole} {head yes no : Item}
    {links tails : List Item} {text name : String} (h : BuildsSuite body spec) (hn : Takes body n)
    (hσ : σ.Sound) (ht : IsTest (σ.node t) .branch yes no links text name)
    (hf : (σ.node g).form = .group group head tails "" "") (hgt : g ≠ t)
    (hrun : branchArm g t answer body σ = .ok () τ) : τ.nextId = σ.nextId + n + 1 := by
  obtain ⟨s, τ₁, hrun₁, hrun⟩ := exists_of_bind hrun
  obtain ⟨flows, -, hg₁, hends⟩ := (h σ hσ).exists_of_run hrun₁
  have hcount₁ := hn σ hσ _ _ hrun₁
  cases hends with
  | empty hempty =>
    have hf₁ : (τ₁.node g).form = .group group head tails "" "" := by
      rw [hg₁.node g (lt_size_of_isGroup (isGroup_of_form hf)) (by simp), hf]
    have hnothing : Item.nothing.Within τ₁ := fun _ hj => by cases hj
    obtain ⟨τ₂, hrun₂, -, -, hcount₂, -⟩ := answer_tails hg₁.sound (ht.grow hg₁ (by simp)) hf₁ hgt
      answer hnothing fun out => [.node out]
    rw [bind_ok hempty] at hrun
    cases hrun₂.symm.trans hrun
    omega
  | row hform hrow =>
    obtain ⟨τ₂, _, _, hrun₂, hcount₂, -⟩ := arm_of_row answer ht hf hgt hg₁ hrow
    rw [bind_ok (groupEnds_run hform)] at hrun
    cases hrun₂.symm.trans hrun
    omega

theorem oneLine_mapAll {V W : Type} (f : V → W) (ts : List (Flow V)) :
    oneLine (Flow.mapAll f ts) = oneLine ts := by
  rcases ts with _ | ⟨u, _ | ⟨v, rest⟩⟩
  · rfl
  · cases u <;> rfl
  · cases u <;> rfl

theorem takes_branch (options : Options) (code : Piece) {line : Bool} (h : BuildsSuite body spec)
    (h' : BuildsSuite orelse spec') (hn : Takes body n) (hm : Takes orelse m)
    (hline : ∀ flows flows', spec = .ok flows → spec' = .ok flows' →
      (options.simplify && (flows'.isEmpty && oneLine flows)) = line) :
    Takes (branch options code body orelse) (6 + n + m + line.toNat) := by
  intro σ hσ g τ hrun
  have hcount := grows_countId hσ
  rw [branch, bind_ok (takeId_run σ)] at hrun
  obtain ⟨t, τ₀, hrun₀, hrun⟩ := exists_of_bind hrun
  obtain ⟨text, -, number, hmade⟩ :=
    (newCodeDecision_realizes hcount.sound .branch code code.header).exists_of_run hrun₀
  have hcount₀ := newCodeDecision_nextId hrun₀
  have ho := hmade.opened hcount (.branch (.node t)) (some code)
  have hgt := Nat.ne_of_gt ho.inside.2.1
  rw [bind_ok (newGroup_run τ₀ _ (fun l => by simp) [] (some code))] at hrun
  obtain ⟨_, τ₁, hrun₁, hrun⟩ := exists_of_bind hrun
  have hcount₁ := branchArm_takes h hn ho.grows.sound ho.test ho.form hgt hrun₁
  obtain ⟨flows, hspec, us, y, b₁, target₁, tails₁, hg₁, h₁, ht₁, hf₁, hus⟩ :=
    (branchArm_realizes .yes h ho.grows.sound ho.test ho.form hgt).exists_of_run hrun₁
  obtain ⟨_, τ₂, hrun₂, hrun⟩ := exists_of_bind hrun
  have hcount₂ := branchArm_takes h' hm hg₁.sound ht₁ hf₁ hgt hrun₂
  obtain ⟨flows', hspec', vs, k, b₂, target₂, tails₂, hg₂, h₂, ht₂, hf₂, hvs⟩ :=
    (branchArm_realizes .no h' hg₁.sound ht₁ hf₁ hgt).exists_of_run hrun₂
  obtain ⟨τ₃, hrun₃, -, hcount₃⟩ := branch_closed options hσ ho hg₁ h₁ hg₂ h₂ ht₂ hf₂
  cases hrun₃.symm.trans hrun
  have hone : (options.simplify && (vs.isEmpty && oneLine us)) = line := by
    rw [← hline flows flows' hspec hspec', ← hus, ← hvs, oneLine_mapAll, Flow.mapAll_eq _ vs]
    simp
  rw [hone] at hcount₃
  have hfirst : σ.countId.nextId = σ.nextId + 1 := rfl
  have hgroup : (τ₀.withGroup (.branch (.node t)) (.node t) [] (some code)).nextId
      = τ₀.nextId + 1 := rfl
  omega

theorem takes_function (code : Piece) (h : BuildsSuite body spec) (hn : Takes body n) :
    Takes (function code body) (8 + n) := by
  intro σ hσ g τ hrun
  have hcount := grows_countId hσ
  rw [function, bind_ok (takeId_run σ)] at hrun
  obtain ⟨_, τ₁, hrun₁, hrun⟩ := exists_of_bind hrun
  obtain ⟨name, hname, start, rfl, hstart⟩ := (newCodeBox_map_realizes (by decide) hcount.sound code
    ("start " ++ ·) (nameOf code)).exists_of_run hrun₁
  obtain ⟨_, ρ, hrun₂, hrun⟩ := exists_of_bind hrun
  obtain ⟨params, -, input, rfl, hinput⟩ := (newCodeBox_map_realizes (by decide) hstart.grows.sound
    code ("input: " ++ ·) (paramNames code)).exists_of_run hrun₂
  obtain ⟨s, τ₃, hrun₃, hrun⟩ := exists_of_bind hrun
  obtain ⟨flows, -, hg, hends⟩ := (h ρ hinput.grows.sound).exists_of_run hrun₃
  obtain ⟨r, τ₄, hrun₄, -, hcount₄⟩ := function_closed code hσ hname hstart hinput hg hends
  cases hrun₄.symm.trans hrun
  have hcount₁ := newCodeBox_nextId hrun₁
  have hcount₂ := newCodeBox_nextId hrun₂
  have hcount₃ := hn ρ hinput.grows.sound _ _ hrun₃
  have hfirst : σ.countId.nextId = σ.nextId + 1 := rfl
  omega

theorem takes_returning (code : Piece) (hasValue : Bool) :
    Takes (returning code (pure hasValue)) (4 + 2 * hasValue.toNat) := by
  intro σ hσ g τ hrun
  have hcount := grows_countId hσ
  rw [returning, bind_ok (takeId_run σ)] at hrun
  obtain ⟨_, τ₁, hrun₁, hrun⟩ := exists_of_bind hrun
  obtain ⟨_, -, finish, rfl, hfinish⟩ := (newCodeBox_realizes (by decide) hcount.sound code
    (.ok "end function return")).exists_of_run hrun₁
  have hcount₁ := newCodeBox_nextId hrun₁
  have hfirst : σ.countId.nextId = σ.nextId + 1 := rfl
  obtain ⟨_, hvalue, hrun⟩ := exists_of_ofExcept hrun
  cases hvalue
  cases hasValue with
  | false =>
    rw [if_neg Bool.false_ne_true] at hrun
    cases (newGroup_run τ₁ _ (fun l => by simp) _ _).symm.trans hrun
    show τ₁.nextId + 1 = σ.nextId + 4
    omega
  | true =>
    rw [if_pos rfl] at hrun
    obtain ⟨_, τ₂, hrun₂, hrun⟩ := exists_of_bind hrun
    obtain ⟨text, -, output, rfl, houtput⟩ := (newCodeBox_map_realizes (by decide)
      hfinish.grows.sound code (outputText ∘ Text.dropLeadingOf "return")
        code.text).exists_of_run hrun₂
    have hcount₂ := newCodeBox_nextId hrun₂
    have hend : EndsIn τ₂ 0 1 output.node [output.node] :=
      .leaf (Nat.zero_le _) houtput.lt_size (by rw [houtput.form]; rfl)
    obtain ⟨τ₃, hrun₃, hclosed⟩ := connect_closes houtput.grows.sound
      (houtput.grows.within hfinish.within) hend (by simp) (by have := houtput.lt_size; omega)
    rw [bind_ok hrun₃] at hrun
    cases (newGroup_run τ₃ _ (fun l => by simp) _ _).symm.trans hrun
    show τ₃.nextId + 1 = σ.nextId + 6
    have := hclosed.nextId
    omega

theorem caseTest_nextId {subject code : Piece} (h : caseTest subject code σ = .ok t τ) :
    τ.nextId = σ.nextId + 1 := by
  obtain ⟨text, -, hrun⟩ := exists_of_ofExcept h
  cases hrun
  rfl

/-- A case, if `filled` says whether its body has statements: only then is there an answer `yes`. -/
theorem takes_case (subject code : Piece) {filled : Bool} (h : BuildsSuite body spec)
    (hn : Takes body n) (hfilled : ∀ flows, spec = .ok flows → flows.isEmpty = !filled) :
    Takes (case subject code body) (5 + n + filled.toNat) := by
  intro σ hσ g τ hrun
  have hcount := grows_countId hσ
  rw [case, bind_ok (takeId_run σ)] at hrun
  obtain ⟨t, τ₀, hrun₀, hrun⟩ := exists_of_bind hrun
  obtain ⟨text, -, number, hmade⟩ :=
    (caseTest_realizes subject code hcount.sound).exists_of_run hrun₀
  have hcount₀ := caseTest_nextId hrun₀
  have ho := hmade.opened hcount (.case (.node t)) (some code)
  rw [bind_ok (newGroup_run τ₀ _ (fun l => by simp) [] (some code))] at hrun
  obtain ⟨s, τ₁, hrun₁, hrun⟩ := exists_of_bind hrun
  obtain ⟨flows, hspec, hg₁, hends⟩ := (h _ ho.grows.sound).exists_of_run hrun₁
  have hcount₁ := hn _ ho.grows.sound _ _ hrun₁
  have hfirst : σ.countId.nextId = σ.nextId + 1 := rfl
  have hgroup : (τ₀.withGroup (.case (.node t)) (.node t) [] (some code)).nextId
      = τ₀.nextId + 1 := rfl
  have hempty := hfilled flows hspec
  cases hends with
  | empty hnone =>
    obtain rfl : filled = false := by simpa using hempty.symm
    obtain ⟨τ₂, hrun₂, -, hcount₂⟩ := case_built (b := 0) ho (hg₁.restrict (by simp)) .empty
      (ho.test.grow hg₁ (by simp)) (by rw [hg₁.node _ ho.inside.2.2 (by simp), ho.form])
    rw [bind_ok hnone] at hrun
    cases hrun₂.symm.trans hrun
    simp only [Bool.toNat_false]
    omega
  | row hform hrow =>
    obtain rfl : filled = true := by
      cases filled with
      | true => rfl
      | false => simp [Flow.mapAll_eq] at hempty
    obtain ⟨τ₂, l, b, hrun₂, hcount₂, hg₂, harm, ht₂, hf₂, -⟩ :=
      arm_of_row .yes ho.test ho.form (Nat.ne_of_gt ho.inside.2.1) hg₁ hrow
    obtain ⟨τ₃, hrun₃, -, hcount₃⟩ := case_built ho hg₂ (.arm (by simp) harm) ht₂ hf₂
    rw [bind_ok (groupEnds_run hform)] at hrun
    obtain ⟨_, τ₄, hyes, hrun⟩ := exists_of_bind hrun
    obtain ⟨_, τ₅, htails, hrun⟩ := exists_of_bind hrun
    cases hrun₂.symm.trans ((bind_ok hyes).trans htails)
    cases hrun₃.symm.trans hrun
    simp only [Bool.toNat_true]
    omega

theorem caseChain_takes {first : Nat} {E : List Nat} (h : BuildsAll BuildsCase acts specs)
    (hm : TakesAll acts m) : ∀ {τ last front t built τ'}, Grows E σ τ → Row σ τ first last front t →
      caseChain last acts τ = .ok built τ' → τ'.nextId = τ.nextId + m := by
  induction h generalizing m with
  | nil =>
    intro τ last front t built τ' _ _ hrun
    cases hm
    cases hrun
    rfl
  | @cons act acts spec specs hact _ ih =>
    intro τ last front t built τ' hg hrow hrun
    cases hm with
    | cons hn hm =>
      obtain ⟨next, τ₁, hrun₁, hrun⟩ := exists_of_bind hrun
      obtain ⟨_, τ₂, hrun₂, hrun⟩ := exists_of_bind hrun
      obtain ⟨-, -, ⟨hg₁, u, hu, -⟩, -⟩ := (hact τ hg.sound).exists_of_run hrun₁
      obtain ⟨τ₂', hjoin, hg₂, hrow₂, -, -, -, hnext, -⟩ := hrow.join hg hg₁ hu
      cases hjoin.symm.trans hrun₂
      obtain ⟨rest, τ₃, hrun₃, hrun⟩ := exists_of_bind hrun
      cases hrun
      have hcount := hn τ hg.sound _ _ hrun₁
      have hrest := ih hm hg₂ hrow₂ hrun₃
      omega

theorem cases_takes {entry : Nat} {act : Action Nat} {spec : Except Fault (Flow Box)}
    {built : List Nat} (ho : Selecting σ ρ g entry) (h : BuildsCase act spec)
    (hs : BuildsAll BuildsCase acts specs) (hn : Takes act n) (hm : TakesAll acts m)
    (hrun : caseChain entry (act :: acts) ρ = .ok built τ) : τ.nextId = ρ.nextId + (n + m) := by
  have hlt := ho.inside.2.2
  have hbefore : ∀ i ∈ [entry], i < ρ.nodes.size := by simpa using hlt
  obtain ⟨first, τ₁, hrun₁, hrun⟩ := exists_of_bind hrun
  obtain ⟨-, -, ⟨hg₁, u, hu, -⟩, -⟩ := (h ρ ho.grows.sound).exists_of_run hrun₁
  have hsize₁ := hg₁.size
  have hleaf : ending (τ₁.node entry).form = .leaf := by
    rw [hg₁.node entry hlt (by simp)]
    exact ho.bridge
  have hfirst : (Item.node first).Within τ₁ := by
    rintro i ⟨⟩
    exact hu.leave.inside.2
  obtain ⟨τ₂, hrun₂, hclosed⟩ := connect_closes hg₁.sound hfirst
    (.leaf (n := 0) (Nat.zero_le entry) (by omega) hleaf) (by simp) (by omega)
  rw [bind_ok hrun₂] at hrun
  obtain ⟨rest, τ₃, hrun₃, hrun⟩ := exists_of_bind hrun
  cases hrun
  have hcount₁ := hn ρ ho.grows.sound _ _ hrun₁
  have hcount₂ := hclosed.nextId
  have hcount₃ := caseChain_takes hs hm (hg₁.trans hclosed.grows)
    (hu.grow hg₁.sound hclosed.grows hbefore) hrun₃
  omega

theorem fillSelection_takes {entry : Nat} {whole : Except Fault Unit} {i : Nat}
    (ho : Selecting σ ρ g entry) (h : BuildsAll BuildsCase acts specs) (hm : TakesAll acts m)
    (hrun : fillSelection (whole >>= fun _ => pure acts) g entry ρ = .ok i τ) :
    τ.nextId = ρ.nextId + m := by
  obtain ⟨items, hitems, hchain⟩ := exists_of_ofExcept hrun
  cases whole with
  | error fault => cases hitems
  | ok _ =>
    cases hitems
    obtain ⟨built, τ₁, hrun₁, hrest⟩ := exists_of_bind hchain
    cases h with
    | nil =>
      cases hrun₁
      cases hrest
    | cons hact hacts =>
      cases hm with
      | cons hn hm =>
        have hcount₁ := cases_takes ho hact hacts hn hm hrun₁
        obtain ⟨flows, -, hg, hleaf, first, last, front, u, hfirst, hlast, hrow, hcase, -⟩ :=
          (cases_realizes ho hact hacts).exists_of_run hrun₁
        obtain ⟨τ₂, f, rest, -, hrun₂, -, hcount₂, -⟩ :=
          select_row ho hg hleaf hrow hcase (built.map .node)
        rw [hfirst, hlast] at hrest
        cases hrun₂.symm.trans hrest
        omega

theorem takes_selection (code : Piece) (whole : Except Fault Unit)
    (h : BuildsAll BuildsCase acts specs) (hm : TakesAll acts m) :
    Takes (selection code (whole >>= fun _ => pure acts)) (3 + m) := by
  intro σ hσ i τ hrun
  unfold selection at hrun
  cases hsubject : (code.part? "subject").isNone with
  | true =>
    rw [hsubject] at hrun
    cases hrun
  | false =>
    rw [hsubject] at hrun
    obtain ⟨ρ, g, entry, hopen, ho, hcount⟩ := openSelection_run hσ code
    have hfill := bind_ok hopen (k := fun p => fillSelection (whole >>= fun _ => pure acts) p.1 p.2)
    simp only [openSelection, bind_assoc, pure_bind] at hfill
    have := fillSelection_takes ho h hm (hfill.symm.trans hrun)
    omega

end CodeChart.Chart
