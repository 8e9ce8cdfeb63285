import CodeChart.Proofs.Suites

/-! Tests. A test leads to its answers over bridges of its own. The group of a test whose body is
one line may be put in one box, which takes over the name of the test. -/
namespace CodeChart.Chart

open CodeChart.Graph

variable {σ τ τ' : Store} {E : List Nat} {t b l : Nat} {word : String} {target : Item}

structure TestMade (σ τ : Store) (t number : Nat) (role : DecisionRole) (text : String) : Prop where
  grows : Grows [] σ τ
  size : τ.nodes.size = σ.nodes.size + 1
  node : t = σ.nodes.size
  form : (τ.node t).form = .decision role .nothing .nothing
  links : (τ.node t).links = []
  text : (τ.node t).text = text
  params : (τ.node t).params = []
  name : (τ.node t).name = "cond" ++ toString number
  counted : σ.nextId ≤ number ∧ number < τ.nextId

theorem newDecision_made (hσ : σ.Sound) (role : DecisionRole) (text : String)
    (code : Option Code.Piece) :
    TestMade σ (σ.withDecision role text code) σ.nodes.size σ.nextId role text where
  grows := grows_withDecision hσ role text code
  size := by simp
  node := rfl
  form := by simp
  links := by simp
  text := by simp
  params := by simp
  name := by simp
  counted := ⟨Nat.le_refl _, Nat.lt_succ_self _⟩

theorem newCodeDecision_realizes (hσ : σ.Sound) (role : DecisionRole) (code : Code.Piece)
    (text : Except Fault String) :
    Realizes σ (newCodeDecision role code text) text fun t τ x =>
      ∃ number, TestMade σ τ t number role x := by
  cases text with
  | error f => exact ⟨σ.countId, rfl, rfl, rfl⟩
  | ok x =>
    have hmade := newDecision_made hσ.countId role x (some code)
    refine ⟨σ.nodes.size, σ.countId.withDecision role x (some code), rfl,
      σ.nextId + 1, ?_⟩
    exact { hmade with
      grows := (grows_countId hσ).trans hmade.grows
      counted := ⟨Nat.le_trans (Nat.le_succ _) hmade.counted.1, hmade.counted.2⟩ }

theorem newCodeDecision_nextId {role : DecisionRole} {code : Code.Piece}
    {text : Except Fault String} (h : newCodeDecision role code text σ = .ok t τ) :
    τ.nextId = σ.nextId + 2 := by
  cases text with
  | error f =>
    have hfail : newCodeDecision role code (.error f) σ = .error f σ.countId := rfl
    cases hfail.symm.trans h
  | ok x =>
    cases h
    rfl

structure IsTest (n : Node) (role : DecisionRole) (yes no : Item) (links : List Item)
    (text name : String) : Prop where
  form : n.form = .decision role yes no
  links : n.links = links
  text : n.text = text
  params : n.params = []
  name : n.name = name

variable {role : DecisionRole} {yes no : Item} {links : List Item} {text name : String}

theorem IsTest.lt_size (h : IsTest (τ.node t) role yes no links text name) : t < τ.nodes.size := by
  by_contra hle
  have hf := h.form
  rw [τ.node_eq_default t (by omega)] at hf
  cases hf

theorem IsTest.not_group (h : IsTest (τ.node t) role yes no links text name) :
    (τ.node t).isGroup = false := by
  rw [Node.isGroup, h.form]
  rfl

theorem IsTest.boxAt {s : Site} (h : IsTest (τ.node t) role yes no links text name)
    (hs : s.node = t) : boxAt τ s = ⟨none, text, []⟩ := by
  rw [Chart.boxAt, hs, h.form, h.text, h.params]
  rfl

theorem IsTest.grow (h : IsTest (τ.node t) role yes no links text name) (hg : Grows E τ τ')
    (ht : t ∉ E) : IsTest (τ'.node t) role yes no links text name := by
  rwa [hg.node t h.lt_size ht]

structure Opened (σ ρ : Store) (t g number : Nat) (role : DecisionRole) (group : GroupRole)
    (text : String) : Prop where
  grows : Grows [] σ ρ
  test : IsTest (ρ.node t) role .nothing .nothing [] text ("cond" ++ toString number)
  form : (ρ.node g).form = .group group (.node t) [] "" ""
  inside : σ.nodes.size ≤ t ∧ t < g ∧ g < ρ.nodes.size
  counted : σ.nextId ≤ number ∧ number < ρ.nextId

theorem TestMade.opened {ρ : Store} {number : Nat} {role : DecisionRole} {text : String}
    (h : TestMade ρ τ t number role text) (hσ : Grows [] σ ρ) (group : GroupRole)
    (code : Option Code.Piece) :
    Opened σ (τ.withGroup group (.node t) [] code) t τ.nodes.size number role group text := by
  have hsize := h.size
  have hnode := h.node
  have hσsize := hσ.size
  have ht : (Item.node t).Within τ := by
    rintro i ⟨⟩
    omega
  have hg := grows_withGroup h.grows.sound group ht [] code
  have htest : IsTest (τ.node t) role .nothing .nothing [] text ("cond" ++ toString number) :=
    ⟨h.form, h.links, h.text, h.params, h.name⟩
  refine ⟨(hσ.trans h.grows).trans hg, htest.grow hg (by simp), by simp, ?_, ?_, ?_⟩
  · simp
    omega
  · exact Nat.le_trans hσ.nextId h.counted.1
  · exact Nat.lt_of_lt_of_le h.counted.2 hg.nextId

/-- Link `l` leads from test `t` over the bridge `b` of an answer to the target. -/
structure Answered (τ : Store) (t b l : Nat) (word : String) (target : Item) : Prop where
  link : (τ.link l).target = .node b
  bound : l < τ.links.size
  name : (τ.node b).name = ""
  bridge : ∃ k, (τ.node b).form = .bridge true (.node t) target [some word] (.link k) ∧
    τ.link k = ⟨target, [some word]⟩

theorem Answered.grow (hs : τ.Sound) (hg : Grows E τ τ') (h : Answered τ t b l word target)
    (hb : b ∉ E) : Answered τ' t b l word target := by
  obtain ⟨k, hf, hk⟩ := h.bridge
  have hlt : b < τ.nodes.size := hs.targets l b h.link
  have hsame := hg.node b hlt hb
  refine ⟨?_, Nat.lt_of_lt_of_le h.bound hg.linkCount, ?_, k, ?_, ?_⟩
  · rw [hg.link l h.bound, h.link]
  · rw [hsame, h.name]
  · rw [hsame, hf]
  · rw [hg.link k (hs.bridge_link_lt hf), hk]

theorem shownLabels_word (h : word ≠ "") : shownLabels [some word] = [word] := by
  rw [← shownLabels_singleton h]
  apply shownLabels_congr
  intro x hx
  simp [hx]

theorem Answered.answerAt {s : Site} (h : Answered τ s.node b l word target) (hword : word ≠ "")
    {w : Option Site} (hw : Leads τ w target) : AnswerAt τ s b l word w := by
  obtain ⟨k, hf, hk⟩ := h.bridge
  exact ⟨⟨target, _, ⟨h.name, true, k, hf, hk⟩, shownLabels_word hword, hw⟩, .inl h.link⟩

theorem withAnswer_answered (τ : Store) (answer : Answer) (target : Item) (ht : t < τ.nodes.size) :
    Answered (τ.withAnswer t answer target (some "")) t τ.nodes.size (τ.links.size + 1)
      answer.word target := by
  let β := τ.withBridge true (.node t) target [some answer.word]
  have hcount : β.links.size = τ.links.size + 1 := by simp [β]
  have hnode : (τ.withAnswer t answer target (some "")).node τ.nodes.size
      = β.node τ.nodes.size :=
    (τ.withAnswerLink t answer target (some "")).node_mapNode_of_ne t _ _ (Nat.ne_of_gt ht)
  refine ⟨?_, ?_, ?_, τ.links.size, ?_, ?_⟩
  · have hlink : (β.pushLink ⟨.node τ.nodes.size, [some answer.word, some ""]⟩).link β.links.size
        = ⟨.node τ.nodes.size, [some answer.word, some ""]⟩ := β.link_pushLink_size _
    rw [hcount] at hlink
    exact congrArg Link.target hlink
  · simp [Store.withAnswer]
  · rw [hnode]
    simp [β]
  · rw [hnode]
    simp [β]
  · have hlink : (β.pushLink ⟨.node τ.nodes.size, [some answer.word, some ""]⟩).link τ.links.size
        = β.link τ.links.size := β.link_pushLink_of_ne _ _ (by omega)
    exact hlink.trans (τ.countId.link_pushLink_size _)

theorem withAnswer_test (τ : Store) (answer : Answer) (target : Item) (ht : t < τ.nodes.size) :
    (τ.withAnswer t answer target (some "")).node t
      = (τ.node t).addAnswer answer (τ.links.size + 1) := by
  have hlt : t < (τ.withAnswerLink t answer target (some "")).nodes.size := by
    simp [Store.withAnswerLink]
    omega
  have hnode : (τ.withAnswerLink t answer target (some "")).node t = τ.node t :=
    (τ.countId.pushLink ⟨target, [some answer.word]⟩).node_pushNode_of_ne t _ (Nat.ne_of_lt ht)
  rw [Store.withAnswer, Store.node_mapNode_self _ t _ hlt, hnode]

theorem IsTest.addAnswer {n : Node} (h : IsTest n role yes no links text name) (answer : Answer)
    (l : Nat) : IsTest (n.addAnswer answer l) role
      (match answer with | .yes => .link l | .no => yes)
      (match answer with | .yes => no | .no => .link l) (links ++ [.link l]) text name := by
  unfold Node.addAnswer Node.setAnswer
  have hf := h.form
  cases answer <;> simp only [hf] <;>
    exact ⟨rfl, by simp [h.links], h.text, h.params, h.name⟩

theorem answer_step (hs : τ.Sound) (h : IsTest (τ.node t) role yes no links text name)
    (answer : Answer) (ht : target.Within τ) :
    ∃ τ', connectAnswer t answer target (some "") τ = .ok τ.nodes.size τ' ∧ Grows [t] τ τ' ∧
      τ'.nodes.size = τ.nodes.size + 1 ∧ τ'.nextId = τ.nextId + 1 ∧
      IsTest (τ'.node t) role (match answer with | .yes => .link (τ.links.size + 1) | .no => yes)
        (match answer with | .yes => no | .no => .link (τ.links.size + 1))
        (links ++ [.link (τ.links.size + 1)]) text name ∧
      Answered τ' t τ.nodes.size (τ.links.size + 1) answer.word target := by
  refine ⟨_, connectAnswer_run hs t answer ht (some ""), grows_withAnswer hs t answer ht (some ""),
    by simp, rfl, ?_, withAnswer_answered τ answer target h.lt_size⟩
  rw [withAnswer_test τ answer target h.lt_size]
  exact h.addAnswer answer _

def bridges (s : Site) (yes : Option (Option Site)) : List Nat :=
  s.no :: (s.rest ++ yes.toList.map fun _ => s.yes)

theorem Holds.cons_test {ρ : Store} {xs : List (Vertex Site)} {s : Site}
    {yes : Option (Option Site)} {no : Option Site} (h : Holds ρ τ xs)
    (hbase : Grows [] σ ρ) (hcount : ρ.nextId ≤ τ.nextId) (hsize : ρ.nodes.size ≤ τ.nodes.size)
    (hx : VertexAt τ (.test s yes no)) (hname : Numbered τ s)
    (hnode : σ.nodes.size ≤ s.node ∧ s.node < ρ.nodes.size)
    (hnumber : σ.nextId ≤ s.number ∧ s.number < ρ.nextId) (hnodup : (bridges s yes).Nodup)
    (hin : ∀ i ∈ bridges s yes, ρ.nodes.size ≤ i ∧ i < τ.nodes.size)
    (hapart : ∀ i ∈ bridges s yes, ∀ x ∈ xs, i ∉ x.nodes) : Holds σ τ (.test s yes no :: xs) := by
  have hσ := hbase.size
  have hnodes : (Vertex.test s yes no).nodes = s.node :: bridges s yes := rfl
  refine (h.base hbase.size hbase.nextId).cons hx hname ?_ ?_ ?_ ?_ ?_
  · rw [hnodes, List.nodup_cons]
    refine ⟨fun hmem => ?_, hnodup⟩
    have := (hin _ hmem).1
    omega
  · intro i hi
    rcases List.mem_cons.1 (hnodes ▸ hi) with rfl | hi
    · omega
    · have := hin i hi
      omega
  · intro y hy i hi hmem
    rcases List.mem_cons.1 (hnodes ▸ hmem) with rfl | hmem
    · have := (h.inside y hy _ hi).1
      omega
    · exact hapart i hmem y hy hi
  · show σ.nextId ≤ s.number ∧ s.number < τ.nextId
    omega
  · intro y hy he
    have := (h.counted y hy).1
    have : y.place.number = s.number := he
    omega

theorem ownLinks_box {n : Node} {shape : Shape} (h : n.form = .box shape) :
    n.ownLinks = n.links := by
  rw [Node.ownLinks, h]

theorem plainBody_run {y first : Nat} (h : Answered τ t b y word (.node first)) :
    plainBody (.link y) τ = .ok (if (τ.node first).form.isGroup || (τ.node first).form.isDecision
      then none else some first) τ := by
  obtain ⟨k, hf, -⟩ := h.bridge
  unfold plainBody
  refine (bind_ok (getLink_run τ y)).trans ?_
  rw [h.link]
  refine (bind_ok (getNode_run τ b)).trans ?_
  rw [hf]
  rfl

theorem yesOf_run (hs : τ.Sound) (h : IsTest (τ.node t) role yes no links text name) :
    yesOf (.node t) τ = .ok yes τ := by
  unfold yesOf
  refine (bind_ok (getNode_run τ t)).trans ?_
  rw [h.form]
  exact present_run τ t _ _ (hs.fits t).whole

theorem noOf_run (hs : τ.Sound) (h : IsTest (τ.node t) role yes no links text name) :
    noOf (.node t) τ = .ok no τ := by
  unfold noOf
  refine (bind_ok (getNode_run τ t)).trans ?_
  rw [h.form]
  exact present_run τ t _ _ (hs.fits t).whole

theorem bodyAndTest_run (hs : τ.Sound) {y first : Nat}
    (hn : IsTest (τ.node t) role (.link y) no links text name)
    (hy : Answered τ t b y word (.node first)) {shape : Shape}
    (hf : (τ.node first).form = .box shape) :
    bodyAndTest (.node t) τ = .ok ((τ.node first).text, text) τ := by
  unfold bodyAndTest
  refine (bind_ok (yesOf_run hs hn)).trans ((bind_ok (plainBody_run hy)).trans ?_)
  rw [hf]
  refine (bind_ok (getNode_run τ first)).trans ((bind_ok (getNode_run τ t)).trans ?_)
  rw [hn.text]
  rfl

theorem isGroup_of_not_plain {first : Nat} {f : Flow Site} (harr : Arrives τ (.node first) f.entry)
    (hplain : first = f.entry.node ↔ f.isPlain = true) (hf : f.isPlain = false) :
    (τ.node first).isGroup = true := by
  cases hg : (τ.node first).isGroup with
  | true => rfl
  | false =>
    have := hplain.1 ((HeadsTo.of_not_group hg).unique harr.1)
    rw [hf] at this
    cases this

theorem replaceBy_row {g number : Nat} (isBranch : Bool) {tails d c} (hσ : σ.Sound)
    (hg : Grows [] σ τ)
    (hf : (τ.node g).form
      = .group (if isBranch then .branch (.node t) else .loop (.node t)) (.node t) tails d c)
    (hn : IsTest (τ.node t) role yes no links text ("cond" ++ toString number))
    (hgin : σ.nodes.size ≤ g) (htin : σ.nodes.size ≤ t)
    (hcount : σ.nextId ≤ number ∧ number < τ.nextId) (shown : String) :
    ∃ τ' s, replaceBy g shown "" τ = .ok () τ' ∧ Grows [] σ τ' ∧
      Row σ τ' g g [] (.merged isBranch s) ∧ boxAt τ' s = ⟨some .operation, shown, []⟩ ∧
      τ'.nextId = τ.nextId + 1 ∧ τ'.links = τ.links ∧ ∀ i, i < τ.nodes.size → i ≠ g →
        τ'.node i = τ.node i := by
  let op := τ.nodes.size
  let name := "cond" ++ toString number
  let s : Site := ⟨op, number, 0, 0, []⟩
  let τ₁ := τ.withBox .operation shown none
  let τ₂ := τ₁.mapNode op fun n => { n with name := name ++ "" }
  let τ₃ := τ₂.mapNode g (·.regroup fun role _ tails => (role, .node op, tails))
  let τ₄ := τ₃.mapNode g (·.regroup fun role head _ => (role, head, [.node op]))
  have hglt := lt_size_of_isGroup (isGroup_of_form hf)
  have htlt := hn.lt_size
  have hg₁ : Grows [] τ τ₁ := grows_withBox hg.sound .operation shown none
  have hsize : τ₄.nodes.size = τ.nodes.size + 1 := by simp [τ₄, τ₃, τ₂, τ₁]
  have hgop : g ≠ op := Nat.ne_of_lt hglt
  have hn₁ := hn.grow hg₁ (by simp)
  have hf₁ : (τ₁.node g).form
      = .group (if isBranch then .branch (.node t) else .loop (.node t)) (.node t) tails d c := by
    rw [hg₁.node g hglt (by simp), hf]
  have hf₂ : (τ₂.node g).form
      = .group (if isBranch then .branch (.node t) else .loop (.node t)) (.node t) tails d c := by
    rw [τ₁.node_mapNode_of_ne op g _ hgop, hf₁]
  have hf₄ : (τ₄.node g).form = .group (if isBranch then .branch (.node t) else .loop (.node t))
      (.node op) [.node op] d c := form_regroup (form_regroup hf₂ _) _
  have hother : ∀ i, i < τ.nodes.size → i ≠ g → τ₄.node i = τ.node i := fun i hi hig => by
    rw [τ₃.node_mapNode_of_ne g i _ hig, τ₂.node_mapNode_of_ne g i _ hig,
      τ₁.node_mapNode_of_ne op i _ (Nat.ne_of_lt hi), hg₁.node i hi (by simp)]
  have hop : τ₄.node op
      = { form := .box .operation, id := τ.nextId, name := name ++ "", text := shown } := by
    rw [τ₃.node_mapNode_of_ne g op _ hgop.symm, τ₂.node_mapNode_of_ne g op _ hgop.symm,
      τ₁.node_mapNode_self op _ (by simp [op, τ₁])]
    simp [op, τ₁]
  have hrun : replaceBy g shown "" τ = .ok () τ₄ := by
    have hitem : itemName (.node t) τ₁ = .ok name τ₁ := by
      rw [show name = τ₁.name t by rw [(HeadsTo.of_not_group hn₁.not_group).name, hn₁.name]]
      rfl
    unfold replaceBy
    rw [bind_ok (newBox_run τ .operation shown none)]
    refine (bind_ok (groupEnds_run hf₁)).trans ?_
    refine (bind_ok hitem).trans ?_
    refine (bind_ok (modifyNode_run τ₁ op _)).trans ?_
    refine (bind_ok (setHead_run g _)).trans ?_
    exact setTails_run g _
  have hsound₂ : τ₂.Sound :=
    hg₁.sound.mapPlain op (fun _ => rfl) (fun _ => rfl) (fun _ => rfl) fun _ => rfl
  have hsound₃ : τ₃.Sound := hsound₂.regroup g fun _ _ _ _ _ _ i hi => by
    cases hi
    simp [op, τ₂, τ₁]
  have hsound₄ : τ₄.Sound := (grows_regroup hsound₃ fun _ _ _ => rfl).sound
  have hnumbered : Numbered τ₄ s := by
    refine ⟨"cond", by simp, ?_⟩
    show (τ₄.node op).name = name
    rw [hop]
    exact String.append_empty
  have hform : (τ₄.node s.node).form = .box .operation := by
    show (τ₄.node op).form = _
    rw [hop]
  have hvertex : VertexAt τ₄ (.box s (some ⟨[], none⟩)) := by
    refine ⟨.operation, .nothing, hform, by decide, ?_, rfl, .inl ⟨rfl, ?_⟩⟩
    · show [] = shownLabels [some "", (τ₄.node op).direction]
      rw [hop, shownLabels_none]
    · show (τ₄.node op).links = []
      rw [hop]
  have hsizes := hg.size
  refine ⟨τ₄, s, hrun, ?_, ?_, ?_, rfl, rfl, hother⟩
  · refine .of_later hσ hg hsound₄ (by omega) (Nat.le_refl _) (Nat.le_succ _) ?_
      (fun _ _ => rfl) rfl
      rfl rfl
    intro i hi
    exact hother i (by omega) (by omega)
  · have hplain : (τ₄.node op).isGroup = false := by
      rw [Node.isGroup, hop]
      rfl
    refine .of_group hf₄ hgin ?_ (hnumbered.arrives hform) rfl ?_
      (.single (by omega) (by omega) hplain) ?_
    · refine (Holds.nil σ τ₄).cons hvertex hnumbered (by simp [Vertex.nodes]) ?_
        (by simp) ?_ (by simp)
      · intro i hi
        obtain rfl := List.mem_singleton.1 hi
        show σ.nodes.size ≤ op ∧ op < τ₄.nodes.size
        omega
      · exact ⟨hcount.1, Nat.lt_succ_of_lt hcount.2⟩
    · have hleaf : EndsIn τ₄ σ.nodes.size 1 op [op] :=
        .leaf (by omega) (by omega) (by rw [hop]; rfl)
      refine .of_tails hgin (by rw [hf₄]; cases isBranch <;> rfl) (by omega)
        (.cons hleaf .nil) (by omega) (by simp) ?_
      simp [Flow.vertices, Vertex.ends, s]
    · have htg : t ≠ g := fun he => by
        have := hn.not_group
        rw [he, isGroup_of_form hf] at this
        cases this
      cases isBranch with
      | false => simp [Tagged, hf₄]
      | true =>
        refine ⟨t, ⟨htin, by omega, ?_, _, _, _, _, hf₄⟩, Nat.ne_of_gt htlt⟩
        rw [hother t htlt htg, hn.form]
        rfl
  · show (⟨(τ₄.node op).form.shape?, (τ₄.node op).text, (τ₄.node op).params⟩ : Box) = _
    rw [hop]
    rfl

end CodeChart.Chart
