import CodeChart.Proofs.Building
import CodeChart.Proofs.Rendering
import CodeChart.Session.Step

/-! Graphs put together in a session. A session makes nodes, by hand or from code, connects them,
changes them, reads them and draws them in any order. Every store that it can reach is sound, so
each of its charts is the text of the drawing of a walk from the head. -/
namespace CodeChart.Session

open CodeChart.Graph Variables

/-- Bridges start at a node. -/
def Blueprint.Allowed (vars : Variables) : Blueprint → Prop
  | .bridge parent _ _ => ∃ p, resolve vars parent = .node p
  | .answer test _ _ => ∃ p, resolve vars test = .node p
  | _ => True

def Step.Builds (vars : Variables) : Step → Prop
  | .make _ blueprint => blueprint.Allowed vars
  | .look .. | .connect .. | .setDirection .. | .setParam .. | .addLabel .. | .setName ..
  | .setText .. | .setHead .. | .appendTail .. | .extendTails .. => True
  | _ => False

/-- The steps that put a graph together, by hand or from code, and those that read it or draw it.
Only fields that are written behind a node's back are left out, and walks with a mark of their
own. -/
def Step.Assembles (vars : Variables) (step : Step) : Prop :=
  match step with
  | .chartList .. | .construct .. | .chart .. | .read .. | .ask .. | .lineFrom .. => True
  | other => other.Builds vars

theorem Step.Builds.assembles {vars : Variables} {step : Step} (h : step.Builds vars) :
    step.Assembles vars := by
  cases step <;> first | exact h | trivial

structure State where
  store : Store := {}
  vars : Variables := []

/-- The store that a step starts with: no messages are left from the step before. -/
def State.quiet (state : State) : Store := { state.store with printed := [], warnings := [] }

/-- The state after a step. A step that fails keeps what it has changed. -/
def Step.after (step : Step) (state : State) : State :=
  match (step.run state.vars).run { state.store with printed := [], warnings := [] } with
  | .ok (vars, _) store => ⟨store, vars⟩
  | .error _ store => ⟨store, state.vars⟩

/-- What a session of such steps can reach. -/
inductive Assembled : State → Prop where
  | start : Assembled {}
  | step {state} (step : Step) : Assembled state → step.Assembles state.vars →
      Assembled (step.after state)

def Variables.Within (vars : Variables) (s : Store) : Prop := ∀ p ∈ vars, p.2.Within s

variable {σ τ : Store} {vars : Variables}

theorem within_get (h : vars.Within σ) (name : String) : (vars.get name).Within σ := by
  unfold Variables.get
  cases hl : vars.lookup name with
  | none => exact within_nothing σ
  | some item =>
    obtain ⟨before, after, hvars, -⟩ := List.lookup_eq_some_iff.1 hl
    exact h (name, item) (by simp [hvars])

theorem within_resolve (h : vars.Within σ) (ref : Ref) : (vars.resolve ref).Within σ := by
  cases ref with
  | none => exact within_nothing σ
  | some name => exact within_get h name

theorem within_map_resolve (h : vars.Within σ) (refs : List Ref) :
    ∀ item ∈ refs.map (vars.resolve ·), item.Within σ :=
  List.forall_mem_map.2 fun ref _ => within_resolve h ref

theorem Variables.Within.grown (h : vars.Within σ) (hg : Grown σ τ) : vars.Within τ :=
  fun p hp => (h p hp).grown hg

theorem Variables.Within.cons (h : vars.Within σ) (name : String) {item : Item}
    (hitem : item.Within σ) : Variables.Within ((name, item) :: vars) σ :=
  List.forall_mem_cons.2 ⟨hitem, h⟩

theorem setName_keeps (hσ : σ.Sound) (i : Nat) (name : String) :
    Keeps σ (modifyNode i fun n => if n.isGroup then n else { n with name }) fun _ _ => True := by
  refine modifyPlain_keeps hσ i ?_ ?_ ?_ ?_
  all_goals
    intro n
    split <;> rfl

theorem setText_keeps (hσ : σ.Sound) (i : Nat) (text : String) :
    Keeps σ (modifyNode i fun n => { n with text }) fun _ _ => True :=
  modifyPlain_keeps (f := ({ · with text })) hσ i (fun _ => rfl) (fun _ => rfl) (fun _ => rfl)
    fun _ => rfl

theorem connectBy_keeps (hσ : σ.Sound) (i : Nat) (way : Way) {target : Item}
    (ht : target.Within σ) (labels : List Label) :
    Keeps σ (connectBy i way target labels) fun _ _ => True := by
  cases way with
  | plain => exact connect_keeps hσ i ht labels
  | answer a =>
    refine .of_eq (bind_ok (getNode_run σ i)) ?_
    split
    · rename_i hdecision
      have hi := lt_size_of_isDecision hdecision
      refine (connectAnswer_keeps hσ hi a ht _).bind fun _ τ hτ _ => ?_
      exact .ret hτ.sound trivial
    · exact lacks_keeps hσ _ _

theorem grown_of_redrawn (hσ : σ.Sound) (h : Redrawn σ τ) : Grown σ τ where
  sound := h.sound hσ
  size := Nat.le_of_eq h.size.symm
  closed hc i item hitem := by
    have hitems : (τ.node i).form.items = (σ.node i).form.items :=
      apply_form_eq_of_bare (h.bare i) Form.items fun _ _ _ _ _ _ _ => rfl
    exact (hc i item (hitems ▸ hitem)).mono (Nat.le_of_eq h.size.symm)

theorem refresh_keeps (hσ : σ.Sound) {g : Nat} (hg : (σ.node g).isGroup = true) :
    Keeps σ (refresh g) fun _ _ => True := by
  obtain ⟨τ, hτ, hrun | ⟨f, hrun⟩⟩ := Redrawn.of_refresh hσ hg
  · exact .of_ok hrun (grown_of_redrawn hσ hτ) trivial
  · exact .of_error hrun (grown_of_redrawn hσ hτ)

theorem clearTexts_keeps (hσ : σ.Sound) {g : Nat} (hg : (σ.node g).isGroup = true) :
    Keeps σ (clearTexts g) fun _ _ => True := by
  obtain ⟨τ, hrun, hτ, -⟩ := Redrawn.modifyTexts_run σ hg fun _ => ("", "")
  exact .of_ok hrun (grown_of_redrawn hσ hτ.toRedrawn) trivial

theorem textsOf_keeps (hσ : σ.Sound) (g : Nat) : Keeps σ (textsOf g) fun _ _ => True :=
  .of_ok (textsOf_run σ g) (.refl hσ) trivial

theorem refreshed_keeps (hσ : σ.Sound) {g : Nat} (hg : (σ.node g).isGroup = true)
    (part : String × String → String) :
    Keeps σ (do refresh g; return part (← textsOf g)) fun _ _ => True := by
  refine (refresh_keeps hσ hg).bind fun _ τ hτ _ => ?_
  refine (textsOf_keeps hτ.sound g).bind fun _ υ hυ _ => ?_
  exact .ret hυ.sound trivial

theorem definitionText_keeps (hσ : σ.Sound) (i : Nat) :
    Keeps σ (definitionText i) fun _ _ => True := by
  refine .of_eq (bind_ok (getNode_run σ i)) ?_
  split
  · rename_i hg
    exact refreshed_keeps hσ hg Prod.fst
  · exact .ret hσ trivial

theorem connectionText_keeps (hσ : σ.Sound) (i : Nat) :
    Keeps σ (connectionText i) fun _ _ => True := by
  refine .of_eq (bind_ok (getNode_run σ i)) ?_
  split
  · rename_i hg
    exact refreshed_keeps hσ hg Prod.snd
  · obtain ⟨τ, hrun, hτ, -⟩ := Redrawn.drawLinks_run hσ.drawable (.refl σ) i
    exact .of_ok hrun (grown_of_redrawn hσ hτ.toRedrawn) trivial

theorem chartText_keeps (hσ : σ.Sound) (g : Nat) : Keeps σ (chartText g) fun _ _ => True := by
  refine (definitionText_keeps hσ g).bind fun _ τ hτ _ => ?_
  refine (connectionText_keeps hτ.sound g).bind fun _ υ hυ _ => ?_
  exact .ret hυ.sound trivial

theorem askNode_keeps (hσ : σ.Firm) (i : Nat) (request : Request) :
    Keeps σ (askNode i request) fun _ _ => True := by
  have answered : ∀ {α : Type} {act : Action α} (wrap : α → Value),
      Keeps σ act (fun _ _ => True) →
      Keeps σ (do return some (wrap (← act)) : Action (Option Value)) fun _ _ => True :=
    fun wrap hact => hact.bind fun _ τ hτ _ => .ret hτ.sound trivial
  have done : ∀ {act : Action Unit}, Keeps σ act (fun _ _ => True) →
      Keeps σ (do act; return none : Action (Option Value)) fun _ _ => True :=
    fun hact => hact.bind fun _ τ hτ _ => .ret hτ.sound trivial
  refine .of_eq (bind_ok (getNode_run σ i)) ?_
  cases request with
  | definition => exact answered .text (definitionText_keeps hσ.sound i)
  | connections => exact answered .text (connectionText_keeps hσ.sound i)
  | chart =>
    dsimp only
    split
    · exact answered .text (chartText_keeps hσ.sound i)
    · exact lacks_keeps hσ.sound _ _
  | isOneLine => exact answered .truth (isOneLine_keeps hσ.sound _)
  | hasNoElse => exact answered .truth (isWithoutElse_keeps hσ.sound _)
  | isInlineable =>
    dsimp only
    split
    · exact answered .truth (caseIsOneLine_keeps hσ.sound i _)
    · exact lacks_keeps hσ.sound _ _
  | simplify => exact done (simplify_keeps hσ i)
  | align => exact done (alignBranch_keeps hσ.sound i)
  | source =>
    dsimp only
    split
    · exact answered .text (.given hσ.sound _)
    · exact lacks_keeps hσ.sound _ _
  | condition =>
    dsimp only
    split
    · exact answered .text (.given hσ.sound _)
    · exact lacks_keeps hσ.sound _ _
  | breakAlignment => exact done (breakAlignment_keeps hσ.sound _)
  | paramNames =>
    dsimp only
    split
    · exact answered .text (.given hσ.sound _)
    · exact lacks_keeps hσ.sound _ _
  | clearTexts =>
    cases hg : (σ.node i).isGroup with
    | false => exact .of_error rfl (.refl hσ.sound)
    | true => exact done (clearTexts_keeps hσ.sound hg)
  | refresh =>
    cases hg : (σ.node i).isGroup with
    | false => exact .of_error rfl (.refl hσ.sound)
    | true => exact done (refresh_keeps hσ.sound hg)
  | describe => exact .of_ok rfl (.refl hσ.sound) trivial

def Value.held : Value → List Item
  | .item x => [x]
  | .items xs => xs
  | _ => []

theorem roleField?_held {role : GroupRole} {field : String} {v : Value}
    (h : roleField? role field = some v) : v.held ⊆ role.items := by
  unfold roleField? at h
  intro x hx
  split at h <;> cases h <;> simp_all [Value.held, GroupRole.items]

theorem formField?_held {form : Form} {field : String} {v : Value}
    (h : formField? form field = some v) : v.held ⊆ form.items := by
  unfold formField? at h
  split at h
  case h_16 => exact fun item hitem => by simp [Form.items, roleField?_held h hitem]
  case h_17 => split at h <;> cases h; exact List.nil_subset _
  case h_18 => split at h <;> cases h; exact List.nil_subset _
  all_goals cases h <;> simp [Value.held, Form.items]

theorem nodeField?_within (hσ : σ.Firm) {i : Nat} {field : String} {v : Value}
    (h : nodeField? σ i field = some v) : ∀ item ∈ v.held, item.Within σ := by
  have hlinks : ∀ item ∈ (σ.node i).ownLinks, item.Within σ := by
    intro item hitem
    obtain ⟨l, rfl, -⟩ := (hσ.sound.fits i).links item hitem
    exact within_link σ l
  unfold nodeField? at h
  dsimp only at h
  split at h
  · cases h
  · split at h
    case h_7 =>
      unfold Node.ownLinks at hlinks
      split at h <;> cases h <;> simp_all [Value.held]
    case h_8 =>
      obtain ⟨c, -, rfl⟩ := Option.map_eq_some_iff.1 h
      exact List.forall_mem_nil _
    case h_9 =>
      split at h
      · obtain ⟨p, -, rfl⟩ := Option.map_eq_some_iff.1 h
        exact List.forall_mem_nil _
      · cases h
    case h_10 => exact fun item hitem => hσ.closed i item (formField?_held h hitem)
    all_goals
      cases h
      exact List.forall_mem_nil _

theorem checkWords_keeps (hσ : σ.Sound) (i : Nat) (field : String) :
    Keeps σ (checkWords i field) fun _ τ => τ = σ := by
  refine .of_eq (bind_ok (getNode_run σ i)) ?_
  split
  · split
    · exact .fail hσ _
    · exact .ret hσ rfl
  · exact .ret hσ rfl

theorem itemField_keeps (hσ : σ.Firm) (item : Item) (field : String) :
    Keeps σ (itemField item field) fun v τ => ∀ x ∈ v.held, x.Within τ := by
  cases item with
  | node i =>
    refine (checkWords_keeps hσ.sound i field).bind ?_
    rintro _ τ - rfl
    refine .of_eq (bind_ok rfl) ?_
    split
    · rename_i v hv
      exact .ret hσ.sound (nodeField?_within hσ hv)
    · exact lacks_keeps hσ.sound _ _
  | link l =>
    have htarget : (σ.link l).target.Within σ := hσ.sound.targets l
    unfold itemField
    dsimp only
    split
    · exact .of_ok rfl (.refl hσ.sound) (by simpa [Value.held] using htarget)
    · exact .of_ok rfl (.refl hσ.sound) (by simp [Value.held])
    · exact lacks_keeps hσ.sound _ _
  | nothing => exact lacks_keeps hσ.sound _ _

theorem follow_keeps (hσ : σ.Firm) {v : Value} (hv : ∀ item ∈ v.held, item.Within σ)
    (path : List Code.PathStep) :
    Keeps σ (follow v path) fun w τ => ∀ item ∈ w.held, item.Within τ := by
  induction path generalizing σ v with
  | nil => exact .ret hσ.sound hv
  | cons step rest ih =>
    unfold follow
    split
    · rename_i heq
      cases heq
    · rename_i item field rest' heq
      cases heq
      refine (itemField_keeps hσ item field).next hσ fun w τ _ hτ hw => ?_
      exact ih hτ hw
    · rename_i items i rest' heq
      cases heq
      split
      · rename_i item hitem
        obtain ⟨k, -, hk⟩ := Option.bind_eq_some_iff.1 hitem
        refine ih hσ ?_
        simpa [Value.held] using hv item (List.mem_of_getElem? hk)
      · exact .fail hσ.sound _
    · rename_i labels i rest' heq
      cases heq
      split
      · exact ih hσ (by simp [Value.held])
      · exact .fail hσ.sound _
    · exact .of_error rfl (.refl hσ.sound)
    · exact .of_error rfl (.refl hσ.sound)

theorem made_keeps {act : Action Nat} (h : Makes σ act) :
    Keeps σ (Item.node <$> act) fun item τ => item.Within τ := by
  refine h.bind fun i τ hτ hi => ?_
  exact .ret hτ.sound (within_node.2 hi)

theorem makeNode_keeps (hσ : σ.Sound) (hv : vars.Within σ) {blueprint : Blueprint}
    (hb : blueprint.Allowed vars) :
    Keeps σ (makeNode vars blueprint) fun item τ => item.Within τ := by
  cases blueprint with
  | decision text alignNext =>
    refine (newDecision_keeps hσ .plain text none).bind fun i τ hτ hi => ?_
    refine .optional hτ.sound (fun _ => breakAlignment_keeps hτ.sound (.node i)) fun υ hυ => ?_
    exact .ret hυ.sound (within_node.2 (Nat.lt_of_lt_of_le hi hυ.size))
  | bridge parent child labels =>
    obtain ⟨p, hp⟩ := hb
    have hparent := within_resolve hv parent
    rw [hp, within_node] at hparent
    rw [makeNode, hp]
    exact made_keeps (newBridge_keeps hσ false hparent (within_resolve hv child) labels)
  | answer test word target =>
    obtain ⟨p, hp⟩ := hb
    have htest := within_resolve hv test
    rw [hp, within_node] at htest
    rw [makeNode, hp]
    exact made_keeps (newBridge_keeps hσ true htest (within_resolve hv target) [word])
  | group head tails =>
    exact made_keeps (newGroup_keeps hσ .plain (List.forall_mem_nil _) (within_resolve hv head)
      (within_map_resolve hv tails) none)
  | chart head =>
    exact made_keeps (newOpenGroup_keeps hσ .chart (List.forall_mem_nil _)
      (within_resolve hv head) none)
  | link target labels =>
    exact .of_ok (map_ok (addLink_run σ _ labels))
      ⟨hσ.pushLink (k := ⟨_, labels⟩) (within_resolve hv target), Nat.le_refl _,
        fun hc => hc.of_nodes rfl⟩ (within_link σ _)
  | _ => exact made_keeps (newBox_keeps hσ _ _ none)

theorem chartExcerpt_builder (e : Excerpt) (options : Chart.Options) :
    Chart.Builder (chartExcerpt e options) := by
  intro σ hσ
  refine (Keeps.given hσ.sound e.tree).next hσ fun tree τ _ hτ _ => ?_
  refine (Keeps.given hτ.sound (partAt tree e.path)).next hτ fun part υ _ hυ _ => ?_
  split
  · exact Chart.pieces_builder options _ hυ
  · exact Chart.notIterable_builder _ hυ
  · exact Chart.notIterable_builder _ hυ

theorem constructExcerpt_builder (as : Chart.Construct) (e : Excerpt)
    (subject : Option (List Code.PathStep)) (options : Chart.Options) :
    Chart.Builder (constructExcerpt as e subject options) := by
  intro σ hσ
  refine (Keeps.given hσ.sound e.tree).next hσ fun tree τ _ hτ _ => ?_
  refine (Keeps.given hτ.sound (partAt tree e.path)).next hτ fun code υ _ hυ _ => ?_
  refine (Keeps.given hυ.sound (partAt tree (subject.getD []))).next hυ fun on φ _ hφ _ => ?_
  exact Chart.construct_builder options _ _ as hφ

theorem lookAt_run (hσ : σ.Sound) (item : Item) : ∃ reply, lookAt item σ = .ok reply σ := by
  cases item with
  | node i =>
    have hview : ∃ v, view i σ = .ok v σ := ⟨_, bind_ok (linksOf_run σ i (hσ.fits i).whole)⟩
    obtain ⟨v, hv⟩ := hview
    exact ⟨_, bind_ok hv⟩
  | nothing => exact ⟨_, rfl⟩
  | link l => exact ⟨_, rfl⟩

theorem lookAt_keeps (hσ : σ.Sound) (item : Item) : Keeps σ (lookAt item) fun _ τ => τ = σ := by
  obtain ⟨reply, hrun⟩ := lookAt_run hσ item
  exact .of_ok hrun (.refl hσ) rfl

theorem reply_keeps (hv : vars.Within σ) {act : Action Reply} (h : Keeps σ act fun _ _ => True) :
    Keeps σ (do return (vars, ← act)) fun p τ => p.1.Within τ :=
  h.bind fun _ _ hτ _ => .ret hτ.sound (hv.grown hτ)

theorem change_keeps (hv : vars.Within σ) (item : Item) {act : Action Unit}
    (h : Keeps σ act fun _ _ => True) :
    Keeps σ (do return (vars, ← change item act)) fun p τ => p.1.Within τ :=
  reply_keeps hv (h.bind fun _ _ hτ _ => (lookAt_keeps hτ.sound item).any)

theorem keep_keeps (hσ : σ.Sound) (hv : vars.Within σ) (var : String) {item : Item}
    (hitem : item.Within σ) : Keeps σ (keep vars var item) fun p τ => p.1.Within τ := by
  refine (lookAt_keeps hσ item).bind ?_
  rintro _ υ - rfl
  exact .ret hσ (hv.cons var hitem)

theorem built_keeps (hσ : σ.Firm) (hv : vars.Within σ) (var : String) {act : Action Nat}
    (h : Chart.Builder act) :
    Keeps σ (do keep vars var (.node (← act))) fun p τ => p.1.Within τ := by
  refine (h hσ).bind fun i τ hτ hi => ?_
  exact keep_keeps hτ.sound (hv.grown hτ) var (within_node.2 hi)

theorem withNode_keeps {α : Type} {post : α → Store → Prop} (hσ : σ.Sound) (item : Item)
    (field : String) {act : Nat → Action α} (h : ∀ i, item = .node i → Keeps σ (act i) post) :
    Keeps σ (withNode item field act) post := by
  cases item with
  | node i => exact h i rfl
  | nothing => exact lacks_keeps hσ _ _
  | link l => exact lacks_keeps hσ _ _

theorem withGroup_keeps {α : Type} {post : α → Store → Prop} (hσ : σ.Sound) (item : Item)
    (field : String) {act : Nat → Action α} (h : ∀ i, item = .node i → Keeps σ (act i) post) :
    Keeps σ (withGroup item field act) post := by
  refine withNode_keeps hσ item field ?_
  intro i hi
  refine .of_eq (bind_ok (getNode_run σ i)) ?_
  split
  · exact h i hi
  · exact lacks_keeps hσ _ _

theorem read_keeps (hσ : σ.Firm) (hv : vars.Within σ) (node : String)
    (path : List Code.PathStep) (var : Option String) :
    Keeps σ ((Step.read node path var).run vars) fun p τ => p.1.Within τ := by
  have hstart : ∀ item ∈ (Value.item (vars.get node)).held, item.Within σ := by
    simpa [Value.held] using within_get hv node
  refine (follow_keeps hσ hstart path).bind fun v τ hτ hheld => ?_
  refine .of_ok rfl (.refl hτ.sound) ?_
  split
  · rename_i name item
    exact (hv.grown hτ).cons name (hheld item List.mem_cons_self)
  · exact hv.grown hτ

theorem Step.run_keeps (hσ : σ.Firm) (hv : vars.Within σ) {step : Step}
    (ha : step.Assembles vars) : Keeps σ (step.run vars) fun p τ => p.1.Within τ := by
  have hs := hσ.sound
  cases step with
  | make var blueprint =>
    refine (makeNode_keeps hs hv ha).bind fun item τ hτ hitem => ?_
    exact keep_keeps hτ.sound (hv.grown hτ) var hitem
  | chartList var e options => exact built_keeps hσ hv var (chartExcerpt_builder e options)
  | construct var as e subject options =>
    exact built_keeps hσ hv var (constructExcerpt_builder as e subject options)
  | chart var source => exact built_keeps hσ hv var (Chart.source_builder source)
  | read node path var => exact read_keeps hσ hv node path var
  | ask node request =>
    have hasked : Keeps σ (withNode (vars.get node) request.name (askNode · request))
        fun _ _ => True := withNode_keeps hs _ _ fun i _ => askNode_keeps hσ i request
    simp only [Step.run]
    split
    · exact .of_ok rfl (.refl hs) hv
    · refine hasked.bind fun answer τ hτ _ => ?_
      cases answer with
      | some v => exact .of_ok rfl (.refl hτ.sound) (hv.grown hτ)
      | none => exact reply_keeps (hv.grown hτ) (lookAt_keeps hτ.sound _).any
  | look node => exact reply_keeps hv (lookAt_keeps hs _).any
  | connect node way target labels =>
    refine change_keeps hv _ (withNode_keeps hs _ _ fun i _ => ?_)
    exact connectBy_keeps hs i way (within_resolve hv target) labels
  | setDirection node value =>
    exact change_keeps hv _ (withNode_keeps hs _ _ fun i _ => setDirection_keeps hs i value)
  | setParam node key value =>
    exact change_keeps hv _ (withNode_keeps hs _ _ fun i _ => setParam_keeps hs i key value)
  | addLabel node value =>
    simp only [Step.run]
    cases vars.get node with
    | node i => exact lacks_keeps hs _ _
    | nothing => exact lacks_keeps hs _ _
    | link l => exact change_keeps hv _ (addLabel_keeps hs l value)
  | setName node value =>
    exact change_keeps hv _ (withNode_keeps hs _ _ fun i _ => setName_keeps hs i value)
  | setText node value =>
    exact change_keeps hv _ (withNode_keeps hs _ _ fun i _ => setText_keeps hs i value)
  | setHead node target =>
    refine change_keeps hv _ (withGroup_keeps hs _ _ fun i _ => ?_)
    exact moveHead_keeps hs i (within_resolve hv target)
  | appendTail node target =>
    refine change_keeps hv _ (withGroup_keeps hs _ _ fun i _ => ?_)
    exact appendTails_keeps hs i (List.forall_mem_singleton.2 (within_resolve hv target))
  | extendTails node target =>
    refine change_keeps hv _ (withGroup_keeps hs _ _ fun i _ => ?_)
    exact appendTails_keeps hs i (within_map_resolve hv target)
  | lineFrom node source =>
    simp only [Step.run]
    cases vars.get node with
    | node i => exact lacks_keeps hs _ _
    | nothing => exact lacks_keeps hs _ _
    | link l => exact .of_ok rfl (.refl hs) hv
  | _ => exact ha.elim

theorem grown_quiet {state : State} (hs : state.store.Sound) : Grown state.store state.quiet :=
  grown_of_parts hs rfl rfl rfl

theorem sound_quiet {state : State} (hs : state.store.Sound) : state.quiet.Sound :=
  (grown_quiet hs).sound

theorem after_eq (step : Step) (state : State) : step.after state =
    match step.run state.vars state.quiet with
    | .ok (vars, _) store => ⟨store, vars⟩
    | .error _ store => ⟨store, state.vars⟩ := rfl

theorem Step.after_firm {state : State} (hs : state.store.Firm)
    (hv : state.vars.Within state.store) {step : Step} (ha : step.Assembles state.vars) :
    (step.after state).store.Firm ∧ (step.after state).vars.Within (step.after state).store := by
  have hquiet := grown_quiet hs.sound
  have hrun := Step.run_keeps (hquiet.firm hs) (hv.grown hquiet) ha
  rw [after_eq]
  cases hstep : step.run state.vars state.quiet with
  | ok p τ =>
    obtain ⟨hgrown, hwithin⟩ := hrun.ok hstep
    exact ⟨(hquiet.trans hgrown).firm hs, hwithin⟩
  | error f τ =>
    have hgrown := hquiet.trans (hrun.error hstep)
    exact ⟨hgrown.firm hs, hv.grown hgrown⟩

theorem Assembled.firm {state : State} (h : Assembled state) :
    state.store.Firm ∧ state.vars.Within state.store := by
  induction h with
  | start => exact ⟨⟨sound_empty, .empty⟩, by simp [Variables.Within]⟩
  | step _ _ ha ih => exact Step.after_firm ih.1 ih.2 ha

theorem Assembled.sound {state : State} (h : Assembled state) : state.store.Sound :=
  h.firm.1.sound

/-- In a graph assembled by any steps, with drawings in between, the chart of a group is the text
of the drawing of what is reachable from its head, each node once and in depth-first order,
whenever the chains of heads met on the way end. -/
theorem chartText_of_assembled (h : Assembled ⟨σ, vars⟩) {g : Nat} {role head tails d c}
    (hg : (σ.node g).form = .group role head tails d c)
    (hends : ∀ item, (item = head ∨ ∃ i, σ.Reachable head i ∧ item ∈ σ.nextItems i) →
      ∃ j, HeadsTo σ item j) :
    ∃ order τ, chartText g σ = .ok (σ.drawing order).text τ ∧
      DepthFirst σ (fun _ => true) [] [head] order ∧ order.Nodup ∧
      (∀ i, i ∈ order ↔ σ.Reachable head i) ∧
      ∀ labels, (shownLabels labels).Pairwise (· < ·) ∧
        ∀ x, x ∈ shownLabels labels ↔ x ≠ "" ∧ some x ∈ labels := by
  have hs := h.sound
  have hgroup := isGroup_of_form hg
  have hwalk : Walkable σ (.node g) := by
    obtain ⟨j, hj⟩ := hends head (.inl rfl)
    refine hs.walkable ?_ ⟨j, .of_group hg hj⟩ ?_
    · intro i hi
      cases hi
      exact lt_size_of_isGroup hgroup
    · intro i hi item hitem
      exact hends item (.inr ⟨i, hi.of_group hg, hitem⟩)
  obtain ⟨order, τ, hd, hrun, -⟩ := Redrawn.chartText_run hs hgroup hwalk
  have hd' := hd.of_group hg
  exact ⟨order, τ, hrun, hd', hd'.nodup, fun i => hd'.mem_iff_reachable, fun labels =>
    ⟨shownLabels_pairwise labels, fun x => mem_shownLabels⟩⟩

theorem assembled_of_steps {steps : List Step} (h : ∀ step ∈ steps, ∀ vars, step.Assembles vars) :
    Assembled (steps.foldl (fun state step => step.after state) {}) := by
  suffices ∀ state, Assembled state →
      Assembled (steps.foldl (fun state step => step.after state) state) from this {} .start
  induction steps with
  | nil => exact fun state hstate => hstate
  | cons first rest ih =>
    obtain ⟨hfirst, hrest⟩ := List.forall_mem_cons.1 h
    exact fun state hstate => ih hrest _ (hstate.step first (hfirst state.vars))

/-- A start by hand leads to a loop from a program, and the loop to a branch from an excerpt. The
link between the two statements in the loop is read from the graph and gets a label. -/
def mixedSteps : List Step := [
  .make "begin" (.start "all"),
  .chart "program" { code := "while a:\n    b\n    c\n" },
  .construct "branch" .branch
    { code := "if d:\n    e\nelse:\n    f\n", path := [.named "body", .at 0] } none {},
  .read "program" [.named "head"] (some "loop"),
  .connect "begin" .plain (some "loop") [],
  .connect "loop" .plain (some "branch") [],
  .make "all" (.chart (some "begin")),
  .read "loop" [.named "cond_node", .named "connection_yes", .named "next_node", .named "child",
    .named "connections", .at 0] (some "edge"),
  .addLabel "edge" (some "right")]

def mixedGraph : State := mixedSteps.foldl (fun state step => step.after state) {}

def mixedText : String :=
  "st0=>start: start all\ncond4=>condition: while a\nop13=>operation: b\nop15=>operation: c\n" ++
    "cond21=>condition: if d\nop25=>operation: e\nop29=>operation: f\n\nst0->cond4\n" ++
    "cond4(yes)->op13\nop13(right)->op15\nop15(left)->cond4\ncond4(no)->cond21\n" ++
    "cond21(yes)->op25\ncond21(no)->op29\n"

/-- The tests of the loop and of the branch lead on by their answers, and the label shows. -/
theorem chartText_of_assembled_mixed : ∃ order τ, Assembled mixedGraph ∧
    chartText 21 mixedGraph.store = .ok (mixedGraph.store.drawing order).text τ ∧
    (mixedGraph.store.drawing order).text = mixedText ∧
    DepthFirst mixedGraph.store (fun _ => true) [] [.node 0] order := by
  have h : Assembled mixedGraph :=
    assembled_of_steps (by simp [mixedSteps, Step.Assembles, Step.Builds, Blueprint.Allowed])
  obtain ⟨hform, hentry, hheads, htext⟩ :
      (mixedGraph.store.node 21).form = .group .chart (.node 0) [] "" "" ∧
      mixedGraph.store.entry (.node 0) = .ok 0 ∧
      ((List.range mixedGraph.store.nodes.size).all fun i =>
        (mixedGraph.store.nextItems i).all fun item =>
          (mixedGraph.store.entry item).isOk) = true ∧
      mixedGraph.store.chartWithin 40 21 = some mixedText := by
    decide +kernel
  generalize mixedGraph = graph at h hform hentry hheads htext ⊢
  obtain ⟨σ, vars⟩ := graph
  obtain ⟨υ, hυ⟩ := Redrawn.chartText_of_chartWithin h.sound htext
  obtain ⟨order, τ, hrun, hd, -⟩ := chartText_of_assembled h hform (by
    rintro item (rfl | ⟨i, -, hitem⟩)
    · exact ⟨0, entry_eq_ok_iff.1 hentry⟩
    · exact exists_headsTo_of_all hheads hitem)
  exact ⟨order, τ, h, hrun, value_unique hrun hυ, hd⟩

end CodeChart.Session
