import CodeChart.Chart.OfPiece
import CodeChart.Chart.Source
import CodeChart.Proofs.Growth
import CodeChart.Proofs.Rendering

/-! Building from code. Whatever is built, and wherever a fault stops it, the store only grows: it
stays sound, and no node refers to one that does not exist. -/
namespace CodeChart.Graph

variable {σ τ : Store} {α β : Type} {post : α → Store → Prop}

namespace Keeps

/-- Where the store is firm, the next action starts from a firm store. -/
theorem next {act : Action α} {k : α → Action β} {post' : β → Store → Prop} (hσ : σ.Firm)
    (h : Keeps σ act post) (hk : ∀ a τ, Grown σ τ → τ.Firm → post a τ → Keeps τ (k a) post') :
    Keeps σ (act >>= k) post' :=
  h.bind fun a τ hτ hp => hk a τ hτ (hτ.firm hσ) hp

theorem ret (hσ : σ.Sound) {a : α} (hp : post a σ) : Keeps σ (pure a) post :=
  .of_ok rfl (.refl hσ) hp

theorem fail (hσ : σ.Sound) (f : Fault) : Keeps σ (throw f : Action α) post :=
  .of_error rfl (.refl hσ)

theorem any {act : Action α} (h : Keeps σ act post) : Keeps σ act fun _ _ => True :=
  h.mono fun _ _ _ => trivial

theorem given (hσ : σ.Sound) (x : Except Fault α) :
    Keeps σ (ofExcept x : Action α) fun _ _ => True := by
  cases x with
  | error f => exact fail hσ f
  | ok a => exact ret hσ trivial

theorem optional {c : Prop} [Decidable c] {act : Action Unit} {k : Unit → Action α}
    (hσ : σ.Sound) (h : c → Keeps σ act fun _ _ => True)
    (hk : ∀ τ, Grown σ τ → Keeps τ (k ()) post) :
    Keeps σ (if c then act >>= k else k ()) post := by
  split
  · rename_i hc
    exact (h hc).bind fun _ τ hτ _ => hk τ hτ
  · exact hk σ (.refl hσ)

theorem caught {act : Action α} {handle : Fault → Action α} (h : Keeps σ act post)
    (hh : ∀ f τ, Grown σ τ → Keeps τ (handle f) post) : Keeps σ (tryCatch act handle) post := by
  cases hact : act σ with
  | ok a τ => exact of_ok (tryCatch_ok hact) (h.ok hact).1 (h.ok hact).2
  | error f τ =>
    have hg := h.error hact
    exact after hg (hh f τ hg) (tryCatch_error hact)

end Keeps

theorem lacks_keeps (hσ : σ.Sound) (item : Item) (part : String) :
    Keeps σ (lacks item part : Action α) post :=
  .of_error rfl (.refl hσ)

theorem present_keeps (hσ : σ.Sound) (i : Nat) (field : String) (a : α) :
    Keeps σ (present i field a) fun _ _ => True :=
  .of_ok (present_run σ i field a (hσ.fits i).whole) (.refl hσ) trivial

theorem grown_of_parts (hσ : σ.Sound) (hn : τ.nodes = σ.nodes) (hl : τ.links = σ.links)
    (hp : τ.passes = σ.passes) : Grown σ τ := by
  obtain ⟨nodes, links, nextId, passes, printed, warnings⟩ := τ
  cases hn
  cases hl
  cases hp
  exact ⟨⟨fun i => (hσ.fits i).mono (Nat.le_refl _) (Nat.le_refl _) (Nat.le_refl _), hσ.apart,
    hσ.targets, hσ.children⟩, Nat.le_refl _, fun hc => hc.of_nodes rfl⟩

theorem takeId_keeps (hσ : σ.Sound) : Keeps σ takeId fun _ _ => True :=
  .of_ok rfl (grown_of_parts hσ rfl rfl rfl) trivial

theorem print_keeps (hσ : σ.Sound) (message : String) : Keeps σ (print message) fun _ _ => True :=
  .of_ok rfl (grown_of_parts hσ rfl rfl rfl) trivial

theorem warn_keeps (hσ : σ.Sound) (message : String) : Keeps σ (warn message) fun _ _ => True :=
  .of_ok rfl (grown_of_parts hσ rfl rfl rfl) trivial

theorem itemName_keeps (hσ : σ.Sound) (item : Item) : Keeps σ (itemName item) fun _ _ => True := by
  cases item with
  | node i => exact .of_ok rfl (.refl hσ) trivial
  | nothing => exact lacks_keeps hσ _ _
  | link l => exact lacks_keeps hσ _ _

/-- Making a node that stands in the store from then on. -/
abbrev Makes (σ : Store) (act : Action Nat) : Prop := Keeps σ act fun i τ => i < τ.nodes.size

theorem newBox_keeps (hσ : σ.Sound) (shape : Shape) (text : String) (code : Option Code.Piece) :
    Makes σ (newBox shape text code) :=
  .of_ok (newBox_run σ shape text code)
    ⟨hσ.withBox shape text code, by simp, fun hc => hc.withBox shape text code⟩ (by simp)

theorem newDecision_keeps (hσ : σ.Sound) (role : DecisionRole) (text : String)
    (code : Option Code.Piece) : Makes σ (newDecision role text code) :=
  .of_ok (newDecision_run σ role text code)
    ⟨hσ.withDecision role text code, by simp, fun hc => hc.withDecision role text code⟩ (by simp)

theorem newCodeBox_keeps (hσ : σ.Sound) (shape : Shape) (code : Code.Piece)
    (text : Except Fault String) : Makes σ (newCodeBox shape code text) := by
  refine (takeId_keeps hσ).bind fun _ τ hτ _ => ?_
  refine (Keeps.given hτ.sound text).bind fun text υ hυ _ => ?_
  exact newBox_keeps hυ.sound shape text (some code)

theorem newCodeDecision_keeps (hσ : σ.Sound) (role : DecisionRole) (code : Code.Piece)
    (text : Except Fault String) : Makes σ (newCodeDecision role code text) := by
  refine (takeId_keeps hσ).bind fun _ τ hτ _ => ?_
  refine (Keeps.given hτ.sound text).bind fun text υ hυ _ => ?_
  exact newDecision_keeps hυ.sound role text (some code)

theorem newBridge_keeps (hσ : σ.Sound) (answer : Bool) {parent : Nat}
    (hp : parent < σ.nodes.size) {child : Item} (hc : child.Within σ) (labels : List Label) :
    Makes σ (newBridge answer (.node parent) child labels) :=
  .of_ok (newBridge_run σ answer (.node parent) child labels)
    ⟨hσ.withBridge answer parent hc labels, by simp,
      fun h => h.withBridge answer (within_node.2 hp) hc labels⟩ (by simp)

theorem newGroup_keeps (hσ : σ.Sound) (role : GroupRole) {head : Item} {tails : List Item}
    (hr : ∀ item ∈ role.items, item.Within σ) (hh : head.Within σ)
    (ht : ∀ item ∈ tails, item.Within σ) (code : Option Code.Piece) :
    Makes σ (newGroup role head tails code) := by
  have hg : Grown σ (σ.withGroup role head tails code) :=
    ⟨hσ.withGroup role hh tails code, by simp, fun hc => hc.withGroup hr hh ht code⟩
  cases head with
  | link l => exact .of_error (newGroup_link_run σ role l tails code) hg
  | nothing => exact .of_ok (newGroup_run σ role (by simp) tails code) hg (by simp)
  | node i => exact .of_ok (newGroup_run σ role (by simp) tails code) hg (by simp)

theorem newOpenGroup_keeps (hσ : σ.Sound) (role : GroupRole) {head : Item}
    (hr : ∀ item ∈ role.items, item.Within σ) (hh : head.Within σ) (code : Option Code.Piece) :
    Makes σ (newGroup role head [] code) :=
  newGroup_keeps hσ role hr hh (List.forall_mem_nil _) code

theorem modifyPlain_keeps (hσ : σ.Sound) (i : Nat) {f : Node → Node}
    (hform : ∀ n, (f n).form = n.form) (hlinks : ∀ n, (f n).links = n.links)
    (hmark : ∀ n, (f n).mark = n.mark) (habsent : ∀ n, (f n).absent = n.absent) :
    Keeps σ (modifyNode i f) fun _ _ => True :=
  .of_ok rfl ⟨hσ.mapPlain i hform hlinks hmark habsent, Nat.le_of_eq (σ.size_mapNode i _).symm,
    fun hc => hc.mapForm (hform _)⟩ trivial

theorem setParam_keeps (hσ : σ.Sound) (i : Nat) (key value : String) :
    Keeps σ (setParam i key value) fun _ _ => True := by
  refine modifyPlain_keeps hσ i ?_ ?_ ?_ ?_
  all_goals exact fun n => field_setParam _ (fun _ _ => rfl) n key value

theorem addLabel_keeps (hσ : σ.Sound) (l : Nat) (label : Label) :
    Keeps σ (modifyLink l fun k => { k with labels := k.labels ++ [label] }) fun _ _ => True :=
  .of_ok rfl ⟨hσ.mapLink rfl, Nat.le_refl _, fun hc => hc.of_nodes rfl⟩ trivial

theorem breakAlignment_keeps (hσ : σ.Sound) (item : Item) :
    Keeps σ (breakAlignment item) fun _ _ => True := by
  cases item with
  | node i =>
    refine .of_eq (bind_ok (getNode_run σ i)) ?_
    split
    · exact setParam_keeps hσ i _ _
    · exact lacks_keeps hσ _ _
  | nothing => exact lacks_keeps hσ _ _
  | link l => exact lacks_keeps hσ _ _

theorem regroup_keeps (hσ : σ.Sound) {act : Action Unit} {i : Nat}
    {f : GroupRole → Item → List Item → GroupRole × Item × List Item}
    (hrun : act σ = .ok () (σ.mapNode i (·.regroup f)))
    (hhead : ∀ role head tails,
      (f role head tails).2.1 = head ∨ (f role head tails).2.1.Within σ)
    (hrest : ∀ role head tails, ∀ item ∈ (f role head tails).2.2 ++ (f role head tails).1.items,
      item ∈ tails ++ role.items ∨ item.Within σ) : Keeps σ act fun _ _ => True := by
  refine .of_ok hrun ⟨hσ.regroup i ?_, by simp, fun hc => ?_⟩ trivial
  · intro role head tails d c hf
    rcases hhead role head tails with hsame | hwithin
    · rw [hsame]
      rintro j rfl
      exact (hσ.fits i).head _ _ _ _ _ hf
    · exact hwithin
  · refine hc.regroup i fun role head tails d c hf => ?_
    have hold : ∀ item ∈ head :: (tails ++ role.items), item.Within σ :=
      fun item hitem => hc i item (by rw [hf]; exact hitem)
    obtain ⟨hhead', hrest'⟩ := List.forall_mem_cons.1 hold
    refine List.forall_mem_cons.2 ⟨?_, fun item hitem => ?_⟩
    · rcases hhead role head tails with hsame | hwithin
      · rw [hsame]
        exact hhead'
      · exact hwithin
    · exact (hrest role head tails item hitem).elim (hrest' item) id

theorem setHead_keeps (hσ : σ.Sound) (i : Nat) {item : Item} (hitem : item.Within σ) :
    Keeps σ (setHead i item) fun _ _ => True :=
  regroup_keeps hσ (setHead_run i item) (fun _ _ _ => .inr hitem) fun _ _ _ _ => .inl

theorem moveHead_keeps (hσ : σ.Sound) (i : Nat) {item : Item} (hitem : item.Within σ) :
    Keeps σ (moveHead i item) fun _ _ => True := by
  unfold moveHead
  split
  · refine (setHead_keeps hσ i hitem).bind fun _ τ hτ _ => ?_
    refine (itemName_keeps hτ.sound item).bind fun _ υ hυ _ => ?_
    exact .ret hυ.sound trivial
  · exact .ret hσ trivial

theorem setTails_keeps (hσ : σ.Sound) (i : Nat) {f : List Item → List Item}
    (hf : ∀ tails, ∀ item ∈ f tails, item ∈ tails ∨ item.Within σ) :
    Keeps σ (setTails i f) fun _ _ => True := by
  refine regroup_keeps hσ (setTails_run i f) (fun _ _ _ => .inl rfl) fun role _ tails item hitem =>
    ?_
  rcases List.mem_append.1 hitem with hitem | hitem
  · exact (hf tails item hitem).imp_left (List.mem_append_left _)
  · exact .inl (List.mem_append_right _ hitem)

theorem appendTails_keeps (hσ : σ.Sound) (i : Nat) {items : List Item}
    (h : ∀ item ∈ items, item.Within σ) : Keeps σ (setTails i (· ++ items)) fun _ _ => True :=
  setTails_keeps hσ i fun _ item hitem => (List.mem_append.1 hitem).imp_right (h item)

theorem setRole_keeps (hσ : σ.Sound) (i : Nat) {f : GroupRole → GroupRole}
    (hf : ∀ role, ∀ item ∈ (f role).items, item.Within σ) :
    Keeps σ (setRole i f) fun _ _ => True := by
  refine regroup_keeps hσ (setRole_run i f) (fun _ _ _ => .inl rfl) fun role _ tails item hitem =>
    ?_
  rcases List.mem_append.1 hitem with hitem | hitem
  · exact .inl (List.mem_append_left _ hitem)
  · exact .inr (hf role item hitem)

theorem groupEnds_keeps (hσ : σ.Firm) (g : Nat) :
    Keeps σ (groupEnds g) fun ends τ => ends.1.Within τ ∧ ∀ t ∈ ends.2, t.Within τ := by
  refine .of_eq (bind_ok (getNode_run σ g)) ?_
  cases hf : (σ.node g).form with
  | group role head tails d c =>
    have hall : ∀ x ∈ head :: (tails ++ role.items), x.Within σ :=
      fun x hx => hσ.closed g x (by rw [hf]; exact hx)
    exact .ret hσ.sound ⟨hall head List.mem_cons_self, fun t ht => hall t (by simp [ht])⟩
  | box shape => exact .ret hσ.sound ⟨within_nothing σ, by simp⟩
  | decision role yes no => exact .ret hσ.sound ⟨within_nothing σ, by simp⟩
  | bridge answer parent child labels link => exact .ret hσ.sound ⟨within_nothing σ, by simp⟩

theorem connectItem_keeps (hσ : σ.Sound) (source : Item) {target : Item} (ht : target.Within σ) :
    Keeps σ (connectItem source target) fun _ _ => True := by
  cases source with
  | node i => exact connect_keeps hσ i ht []
  | nothing => exact .ret hσ trivial
  | link l => exact .ret hσ trivial

theorem yesOf_keeps (hσ : σ.Sound) (item : Item) : Keeps σ (yesOf item) fun _ _ => True := by
  cases item with
  | node i =>
    refine .of_eq (bind_ok (getNode_run σ i)) ?_
    split
    · exact present_keeps hσ i _ _
    · exact lacks_keeps hσ _ _
  | nothing => exact lacks_keeps hσ _ _
  | link l => exact lacks_keeps hσ _ _

theorem noOf_keeps (hσ : σ.Sound) (item : Item) : Keeps σ (noOf item) fun _ _ => True := by
  cases item with
  | node i =>
    refine .of_eq (bind_ok (getNode_run σ i)) ?_
    split
    · exact present_keeps hσ i _ _
    · exact lacks_keeps hσ _ _
  | nothing => exact lacks_keeps hσ _ _
  | link l => exact lacks_keeps hσ _ _

theorem plainBody_keeps (hσ : σ.Sound) (item : Item) :
    Keeps σ (plainBody item) fun _ _ => True := by
  cases item with
  | link l =>
    refine .of_eq (bind_ok (getLink_run σ l)) ?_
    split
    · refine .of_eq (bind_ok (getNode_run σ _)) ?_
      split
      · exact .of_eq (bind_ok (getNode_run σ _)) (.ret hσ trivial)
      · exact .ret hσ trivial
    · exact .ret hσ trivial
  | nothing => exact .ret hσ trivial
  | node i => exact .ret hσ trivial

theorem linksOf_keeps (hσ : σ.Sound) (i : Nat) : Keeps σ (linksOf i) fun _ _ => True :=
  .of_ok (linksOf_run σ i (hσ.fits i).whole) (.refl hσ) trivial

theorem nextOf_keeps (hσ : σ.Sound) (item : Item) : Keeps σ (nextOf item) fun _ _ => True := by
  cases item with
  | link l => exact .of_ok rfl (.refl hσ) trivial
  | nothing => exact lacks_keeps hσ _ _
  | node i => exact lacks_keeps hσ _ _

theorem orPrinted_keeps {test : Action Bool} (h : Keeps σ test fun _ _ => True) :
    Keeps σ (orPrinted test) fun _ _ => True := by
  refine h.caught fun f τ hτ => ?_
  refine (print_keeps hτ.sound _).bind fun _ υ hυ _ => ?_
  exact .ret hυ.sound trivial

theorem loopIsOneLine_keeps (hσ : σ.Sound) (i : Nat) :
    Keeps σ (loopIsOneLine i) fun _ _ => True := by
  refine orPrinted_keeps ?_
  refine (yesOf_keeps hσ _).bind fun yes τ hτ _ => ?_
  refine (plainBody_keeps hτ.sound yes).bind fun body υ hυ _ => ?_
  cases body with
  | none => exact .ret hυ.sound trivial
  | some j =>
    refine (linksOf_keeps hυ.sound j).bind fun links ρ hρ _ => ?_
    split
    · refine (nextOf_keeps hρ.sound _).bind fun _ ω hω _ => ?_
      exact .ret hω.sound trivial
    · exact .ret hρ.sound trivial

theorem bodyIsOneLine_keeps (hσ : σ.Sound) (yes : Item) :
    Keeps σ (bodyIsOneLine yes) fun _ _ => True := by
  refine (plainBody_keeps hσ yes).bind fun body τ hτ _ => ?_
  cases body with
  | none => exact .ret hτ.sound trivial
  | some j =>
    refine (linksOf_keeps hτ.sound j).bind fun _ υ hυ _ => ?_
    exact .ret hυ.sound trivial

theorem hasNoAlternative_keeps (hσ : σ.Sound) (i : Nat) :
    Keeps σ (hasNoAlternative i) fun _ _ => True := by
  refine orPrinted_keeps ?_
  refine (noOf_keeps hσ _).bind fun no τ hτ _ => ?_
  split
  · refine .of_eq (bind_ok (getLink_run τ _)) ?_
    split
    · refine .of_eq (bind_ok (getNode_run τ _)) ?_
      split <;> exact .ret hτ.sound trivial
    · exact .ret hτ.sound trivial
  · exact .ret hτ.sound trivial

theorem isOneLine_keeps (hσ : σ.Sound) (test : Item) :
    Keeps σ (isOneLine test) fun _ _ => True := by
  cases test with
  | node i =>
    refine .of_eq (bind_ok (getNode_run σ i)) ?_
    split
    · exact loopIsOneLine_keeps hσ i
    · refine orPrinted_keeps ((yesOf_keeps hσ _).bind fun yes τ hτ _ => ?_)
      exact bodyIsOneLine_keeps hτ.sound yes
    · exact lacks_keeps hσ _ _
  | nothing => exact lacks_keeps hσ _ _
  | link l => exact lacks_keeps hσ _ _

theorem isWithoutElse_keeps (hσ : σ.Sound) (test : Item) :
    Keeps σ (isWithoutElse test) fun _ _ => True := by
  cases test with
  | node i =>
    refine .of_eq (bind_ok (getNode_run σ i)) ?_
    split
    · exact hasNoAlternative_keeps hσ i
    · exact lacks_keeps hσ _ _
  | nothing => exact lacks_keeps hσ _ _
  | link l => exact lacks_keeps hσ _ _

theorem bodyAndTest_keeps (hσ : σ.Sound) (test : Item) :
    Keeps σ (bodyAndTest test) fun _ _ => True := by
  cases test with
  | node i =>
    refine (yesOf_keeps hσ _).bind fun yes τ hτ _ => ?_
    refine (plainBody_keeps hτ.sound yes).bind fun body υ hυ _ => ?_
    cases body with
    | none => exact .fail hυ.sound _
    | some j => exact .of_ok rfl (.refl hυ.sound) trivial
  | nothing => exact .fail hσ _
  | link l => exact .fail hσ _

theorem replaceBy_keeps (hσ : σ.Firm) (g : Nat) (text ending : String) :
    Keeps σ (replaceBy g text ending) fun _ _ => True := by
  refine (newBox_keeps hσ.sound .operation text none).next hσ fun op τ _ hτ hop => ?_
  refine (groupEnds_keeps hτ g).bind fun ends υ hυ _ => ?_
  refine (itemName_keeps hυ.sound ends.1).bind fun name ρ hρ _ => ?_
  have hρop : op < ρ.nodes.size := Nat.lt_of_lt_of_le hop (hυ.trans hρ).size
  refine (modifyPlain_keeps (f := ({ · with name := name ++ ending })) hρ.sound op (fun _ => rfl)
    (fun _ => rfl) (fun _ => rfl) fun _ => rfl).bind fun _ ω hω _ => ?_
  have hωop : (Item.node op).Within ω := within_node.2 (Nat.lt_of_lt_of_le hρop hω.size)
  refine (setHead_keeps hω.sound g hωop).bind fun _ ψ hψ _ => ?_
  refine setTails_keeps hψ.sound g fun _ item hitem => ?_
  exact .inr (List.mem_singleton.1 hitem ▸ hωop.grown hψ)

theorem printMissing_keeps {act : Action Unit} (h : Keeps σ act fun _ _ => True) :
    Keeps σ (printMissing act) fun _ _ => True := by
  refine h.caught fun f τ hτ => ?_
  split
  · exact print_keeps hτ.sound _
  · exact .fail hτ.sound _

theorem simplifyLoop_keeps (hσ : σ.Firm) (g : Nat) (test : Item) :
    Keeps σ (simplifyLoop g test) fun _ _ => True := by
  refine printMissing_keeps ?_
  refine (present_keeps hσ.sound g _ test).next hσ fun test τ _ hτ _ => ?_
  refine (isOneLine_keeps hτ.sound test).next hτ fun oneLine υ _ hυ _ => ?_
  split
  · refine (bodyAndTest_keeps hυ.sound test).next hυ fun texts ρ _ hρ _ => ?_
    exact replaceBy_keeps hρ g _ _
  · exact .ret hυ.sound trivial

theorem simplifyBranch_keeps (hσ : σ.Firm) (g : Nat) (test : Item) :
    Keeps σ (simplifyBranch g test) fun _ _ => True := by
  refine printMissing_keeps ?_
  refine (present_keeps hσ.sound g _ test).next hσ fun test τ _ hτ _ => ?_
  refine (isWithoutElse_keeps hτ.sound test).next hτ fun alone υ _ hυ _ => ?_
  split
  · refine (isOneLine_keeps hυ.sound test).next hυ fun oneLine ρ _ hρ _ => ?_
    split
    · refine (bodyAndTest_keeps hρ.sound test).next hρ fun texts ω _ hω _ => ?_
      exact replaceBy_keeps hω g _ _
    · exact .ret hρ.sound trivial
  · exact .ret hυ.sound trivial

theorem caseIsOneLine_keeps (hσ : σ.Sound) (g : Nat) (test : Item) :
    Keeps σ (caseIsOneLine g test) fun _ _ => True := by
  refine (present_keeps hσ g _ test).bind fun test τ hτ _ => ?_
  refine (yesOf_keeps hτ.sound test).bind fun yes υ hυ _ => ?_
  refine (bodyIsOneLine_keeps hυ.sound yes).caught fun _ ρ hρ => ?_
  exact .ret hρ.sound trivial

theorem simplifyCase_keeps (hσ : σ.Firm) (g : Nat) (test : Item) :
    Keeps σ (simplifyCase g test) fun _ _ => True := by
  refine (warn_keeps hσ.sound _).next hσ fun _ τ _ hτ _ => ?_
  refine (caseIsOneLine_keeps hτ.sound g test).next hτ fun oneLine υ _ hυ _ => ?_
  split
  · refine Keeps.caught ?_ fun f ρ hρ => warn_keeps hρ.sound _
    refine (bodyAndTest_keeps hυ.sound test).next hυ fun texts ρ _ hρ _ => ?_
    exact replaceBy_keeps hρ g _ _
  · exact .ret hυ.sound trivial

theorem simplifyCases_keeps (hσ : σ.Firm) (cases : List Item) :
    Keeps σ (simplifyCases cases) fun _ _ => True := by
  refine .forM cases hσ.sound fun item _ τ hτ => ?_
  cases item with
  | node g =>
    refine .of_eq (bind_ok (getNode_run τ g)) ?_
    split
    · refine (caseIsOneLine_keeps hτ.sound g _).next (hτ.firm hσ) fun oneLine υ _ hυ _ => ?_
      split
      · exact simplifyCase_keeps hυ g _
      · exact .ret hυ.sound trivial
    · exact lacks_keeps hτ.sound _ _
  | nothing => exact lacks_keeps hτ.sound _ _
  | link l => exact lacks_keeps hτ.sound _ _

theorem simplify_keeps (hσ : σ.Firm) (g : Nat) : Keeps σ (simplify g) fun _ _ => True := by
  refine .of_eq (bind_ok (getNode_run σ g)) ?_
  split
  · exact simplifyLoop_keeps hσ g _
  · exact simplifyBranch_keeps hσ g _
  · exact simplifyCase_keeps hσ g _
  · refine (warn_keeps hσ.sound _).next hσ fun _ τ _ hτ _ => ?_
    refine Keeps.caught ?_ fun f υ hυ => warn_keeps hυ.sound _
    refine (present_keeps hτ.sound g _ _).next hτ fun cases υ _ hυ _ => ?_
    exact simplifyCases_keeps hυ cases
  · exact .ret hσ.sound trivial
  · exact lacks_keeps hσ.sound _ _

theorem alignBranch_keeps (hσ : σ.Sound) (g : Nat) : Keeps σ (alignBranch g) fun _ _ => True := by
  refine .of_eq (bind_ok (getNode_run σ g)) ?_
  split
  · refine (present_keeps hσ g _ _).bind fun test τ hτ _ => ?_
    exact breakAlignment_keeps hτ.sound test
  · exact lacks_keeps hσ _ _

end CodeChart.Graph

namespace CodeChart.Chart

open CodeChart.Graph Code

variable {σ : Store}

def Builder (act : Action Nat) : Prop := ∀ {σ : Store}, σ.Firm → Makes σ act

theorem isBranch_keeps (hσ : σ.Sound) (i : Nat) : Keeps σ (isBranch i) fun _ _ => True := by
  refine .of_eq (bind_ok (getNode_run σ i)) ?_
  split <;> exact .ret hσ trivial

theorem join_keeps (hσ : σ.Sound) (options : Options) (last : Nat) {next : Nat}
    (hnext : next < σ.nodes.size) : Keeps σ (join options last next) fun _ _ => True := by
  refine (connect_keeps hσ last (within_node.2 hnext) []).bind fun _ τ hτ _ => ?_
  split
  · refine (isBranch_keeps hτ.sound last).bind fun _ υ hυ _ => ?_
    split
    · refine (isBranch_keeps hυ.sound next).bind fun _ ρ hρ _ => ?_
      split
      · exact alignBranch_keeps hρ.sound last
      · exact .ret hρ.sound trivial
    · exact .ret hυ.sound trivial
  · exact .ret hτ.sound trivial

theorem chain_keeps (hσ : σ.Firm) (options : Options) {last : Nat} (hlast : last < σ.nodes.size)
    {acts : List (Action Nat)} (h : ∀ act ∈ acts, Builder act) :
    Makes σ (chain options last acts) := by
  induction acts generalizing σ last with
  | nil => exact .ret hσ.sound hlast
  | cons act rest ih =>
    obtain ⟨hact, hrest⟩ := List.forall_mem_cons.1 h
    refine (hact hσ).next hσ fun next τ _ hτ hnext => ?_
    refine (join_keeps hτ.sound options last hnext).next hτ fun _ υ hgrown hυ _ => ?_
    exact ih hυ (Nat.lt_of_lt_of_le hnext hgrown.size) hrest

theorem suite_builder (options : Options) {acts : List (Action Nat)}
    (h : ∀ act ∈ acts, Builder act) : Builder (suite options acts) := by
  intro σ hσ
  refine (newOpenGroup_keeps hσ.sound .suite (by simp [GroupRole.items]) (within_nothing σ)
    none).next hσ fun g τ _ hτ hg => ?_
  cases acts with
  | nil =>
    refine (appendTails_keeps hτ.sound g (by simp [within_nothing])).bind fun _ υ hυ _ => ?_
    exact .ret hυ.sound (Nat.lt_of_lt_of_le hg hυ.size)
  | cons act rest =>
    obtain ⟨hact, hrest⟩ := List.forall_mem_cons.1 h
    refine (hact hτ).next hτ fun first υ hτυ hυ hfirst => ?_
    refine (chain_keeps hυ options hfirst hrest).next hυ fun last ρ hυρ hρ hlast => ?_
    have hfirst' := Nat.lt_of_lt_of_le hfirst hυρ.size
    refine (moveHead_keeps hρ.sound g (within_node.2 hfirst')).next hρ fun _ ω hρω hω _ => ?_
    have hlast' := Nat.lt_of_lt_of_le hlast hρω.size
    refine (appendTails_keeps hω.sound g (by simpa using within_node.2 hlast')).bind
      fun _ ψ hψ _ => ?_
    exact .ret hψ.sound (Nat.lt_of_lt_of_le hg (((hτυ.trans hυρ).trans hρω).trans hψ).size)

theorem function_builder (code : Piece) {body : Action Nat} (h : Builder body) :
    Builder (function code body) := by
  intro σ hσ
  refine (takeId_keeps hσ.sound).next hσ fun _ τ₁ _ hτ₁ _ => ?_
  refine (newCodeBox_keeps hτ₁.sound _ code _).next hτ₁ fun start τ₂ _ hτ₂ hstart => ?_
  refine (newCodeBox_keeps hτ₂.sound _ code _).next hτ₂ fun input τ₃ h₃ hτ₃ hinput => ?_
  refine (h hτ₃).next hτ₃ fun b τ₄ h₄ hτ₄ _ => ?_
  refine (groupEnds_keeps hτ₄ b).next hτ₄ fun ends τ₅ h₅ hτ₅ hends => ?_
  refine (newCodeBox_keeps hτ₅.sound _ code _).next hτ₅ fun finish τ₆ h₆ hτ₆ hfinish => ?_
  obtain ⟨head, tails⟩ := ends
  have hstart' := within_node.2 (Nat.lt_of_lt_of_le hstart (((h₃.trans h₄).trans h₅).trans h₆).size)
  have hinput' := within_node.2 (Nat.lt_of_lt_of_le hinput ((h₄.trans h₅).trans h₆).size)
  have hfinish' := within_node.2 hfinish
  refine (connect_keeps hτ₆.sound start hinput' []).next hτ₆ fun _ τ₇ h₇ hτ₇ _ => ?_
  refine (connect_keeps hτ₇.sound input ((hends.1.grown h₆).grown h₇) []).next hτ₇
    fun _ τ₈ h₈ hτ₈ _ => ?_
  have htails : Keeps τ₈ (tails.forM (connectItem · (.node finish))) fun _ _ => True :=
    .forM tails hτ₈.sound fun t _ υ hυ =>
      connectItem_keeps hυ.sound t (hfinish'.grown ((h₇.trans h₈).trans hυ))
  refine htails.bind fun _ τ₉ h₉ _ => ?_
  have hgrown := (h₇.trans h₈).trans h₉
  refine newGroup_keeps h₉.sound _ ?_ (hstart'.grown hgrown) ?_ (some code)
  · simp only [GroupRole.items, List.forall_mem_cons]
    exact ⟨hstart'.grown hgrown, hinput'.grown hgrown, (hends.1.grown h₆).grown hgrown,
      hfinish'.grown hgrown, fun t ht => ((hends.2 t ht).grown h₆).grown hgrown⟩
  · simpa using hfinish'.grown hgrown

theorem loopBack_keeps (hσ : σ.Sound) {test : Nat} (ht : test < σ.nodes.size) (tail : Item) :
    Keeps σ (loopBack test tail) fun _ _ => True := by
  cases tail with
  | node i =>
    refine (setDirection_keeps hσ i _).bind fun _ τ hτ _ => ?_
    exact connect_keeps hτ.sound i (within_node.2 (Nat.lt_of_lt_of_le ht hτ.size)) []
  | nothing => exact .ret hσ trivial
  | link l => exact .ret hσ trivial

theorem loopBody_keeps (hσ : σ.Firm) {test : Nat} (ht : test < σ.nodes.size) {body : Action Nat}
    (h : Builder body) : Keeps σ (loopBody test body) fun _ _ => True := by
  refine (h hσ).next hσ fun b τ₁ h₁ hτ₁ _ => ?_
  refine (groupEnds_keeps hτ₁ b).next hτ₁ fun ends τ₂ h₂ hτ₂ _ => ?_
  have ht₂ := Nat.lt_of_lt_of_le ht (h₁.trans h₂).size
  obtain ⟨head, tails⟩ := ends
  dsimp only
  split
  · refine (h hτ₂).next hτ₂ fun b' τ₃ h₃ hτ₃ _ => ?_
    refine (groupEnds_keeps hτ₃ b').next hτ₃ fun ends τ₄ h₄ hτ₄ hends => ?_
    have ht₄ := Nat.lt_of_lt_of_le ht₂ (h₃.trans h₄).size
    refine (connectAnswer_keeps hτ₄.sound ht₄ .yes hends.1 _).bind fun _ τ₅ h₅ _ => ?_
    refine .forM _ h₅.sound fun tail _ υ hυ => ?_
    exact loopBack_keeps hυ.sound (Nat.lt_of_lt_of_le ht₄ (h₅.trans hυ).size) tail
  · refine (newBox_keeps hτ₂.sound .subroutine _ none).bind fun idle τ₃ h₃ hidle => ?_
    have ht₃ := Nat.lt_of_lt_of_le ht₂ h₃.size
    refine (loopBack_keeps h₃.sound ht₃ (.node idle)).bind fun _ τ₄ h₄ _ => ?_
    refine (connectAnswer_keeps h₄.sound (Nat.lt_of_lt_of_le ht₃ h₄.size) .yes
      (within_node.2 (Nat.lt_of_lt_of_le hidle h₄.size)) _).bind fun _ τ₅ h₅ _ => ?_
    exact .ret h₅.sound trivial

theorem loop_builder (options : Options) (code : Piece) {body : Action Nat} (h : Builder body) :
    Builder (loop options code body) := by
  intro σ hσ
  refine (takeId_keeps hσ.sound).next hσ fun _ τ₁ _ hτ₁ _ => ?_
  refine (newCodeDecision_keeps hτ₁.sound .loop code _).next hτ₁ fun t τ₂ _ hτ₂ ht => ?_
  refine (newOpenGroup_keeps hτ₂.sound (.loop (.node t))
    (by simpa [GroupRole.items] using within_node.2 ht) (within_node.2 ht)
    (some code)).next hτ₂ fun g τ₃ h₃ hτ₃ hg => ?_
  have ht₃ := Nat.lt_of_lt_of_le ht h₃.size
  refine (loopBody_keeps hτ₃ ht₃ h).next hτ₃ fun _ τ₄ h₄ hτ₄ _ => ?_
  refine (connectAnswer_keeps hτ₄.sound (Nat.lt_of_lt_of_le ht₃ h₄.size) .no (within_nothing τ₄)
    _).next hτ₄ fun out τ₅ h₅ hτ₅ hout => ?_
  refine (appendTails_keeps hτ₅.sound g (by simpa using within_node.2 hout)).next hτ₅
    fun _ τ₆ h₆ hτ₆ _ => ?_
  refine .optional hτ₆.sound (fun _ => simplify_keeps hτ₆ g) fun τ₇ h₇ => ?_
  exact .ret h₇.sound (Nat.lt_of_lt_of_le hg (((h₄.trans h₅).trans h₆).trans h₇).size)

theorem branchArm_keeps (hσ : σ.Firm) (g : Nat) {t : Nat} (ht : t < σ.nodes.size)
    (answer : Answer) {suite : Action Nat} (h : Builder suite) :
    Keeps σ (branchArm g t answer suite) fun _ _ => True := by
  refine (h hσ).next hσ fun b τ₁ h₁ hτ₁ _ => ?_
  refine (groupEnds_keeps hτ₁ b).next hτ₁ fun ends τ₂ h₂ hτ₂ hends => ?_
  have ht₂ := Nat.lt_of_lt_of_le ht (h₁.trans h₂).size
  obtain ⟨head, tails⟩ := ends
  dsimp only
  split
  · refine (connectAnswer_keeps hτ₂.sound ht₂ answer hends.1 _).bind fun _ τ₃ h₃ _ => ?_
    exact appendTails_keeps h₃.sound g fun tail htail => (hends.2 tail htail).grown h₃
  · refine (connectAnswer_keeps hτ₂.sound ht₂ answer (within_nothing τ₂) _).bind
      fun out τ₃ h₃ hout => ?_
    exact appendTails_keeps h₃.sound g (by simpa using within_node.2 hout)

theorem turnRight_keeps (hσ : σ.Sound) (t : Nat) : Keeps σ (turnRight t) fun _ _ => True := by
  refine (isWithoutElse_keeps hσ _).bind fun alone τ hτ _ => ?_
  split
  · refine (yesOf_keeps hτ.sound _).bind fun yes υ hυ _ => ?_
    split
    · exact addLabel_keeps hυ.sound _ _
    · exact lacks_keeps hυ.sound _ _
  · exact .ret hτ.sound trivial

theorem branch_builder (options : Options) (code : Piece) {body orelse : Action Nat}
    (h : Builder body) (h' : Builder orelse) : Builder (branch options code body orelse) := by
  intro σ hσ
  refine (takeId_keeps hσ.sound).next hσ fun _ τ₁ _ hτ₁ _ => ?_
  refine (newCodeDecision_keeps hτ₁.sound .branch code _).next hτ₁ fun t τ₂ _ hτ₂ ht => ?_
  refine (newOpenGroup_keeps hτ₂.sound (.branch (.node t))
    (by simpa [GroupRole.items] using within_node.2 ht) (within_node.2 ht)
    (some code)).next hτ₂ fun g τ₃ h₃ hτ₃ hg => ?_
  have ht₃ := Nat.lt_of_lt_of_le ht h₃.size
  refine (branchArm_keeps hτ₃ g ht₃ .yes h).next hτ₃ fun _ τ₄ h₄ hτ₄ _ => ?_
  refine (branchArm_keeps hτ₄ g (Nat.lt_of_lt_of_le ht₃ h₄.size) .no h').next hτ₄
    fun _ τ₅ h₅ hτ₅ _ => ?_
  refine .optional hτ₅.sound (fun _ => simplify_keeps hτ₅ g) fun τ₆ h₆ => ?_
  refine .optional h₆.sound (fun _ => turnRight_keeps h₆.sound t) fun τ₇ h₇ => ?_
  exact .ret h₇.sound (Nat.lt_of_lt_of_le hg (((h₄.trans h₅).trans h₆).trans h₇).size)

theorem returning_builder (code : Piece) (hasValue : Except Fault Bool) :
    Builder (returning code hasValue) := by
  intro σ hσ
  refine (takeId_keeps hσ.sound).bind fun _ τ₁ h₁ _ => ?_
  refine (newCodeBox_keeps h₁.sound _ code _).bind fun finish τ₂ h₂ hfinish => ?_
  refine (Keeps.given h₂.sound hasValue).bind fun value τ₃ h₃ _ => ?_
  have hfinish₃ := within_node.2 (Nat.lt_of_lt_of_le hfinish h₃.size)
  split
  · refine (newCodeBox_keeps h₃.sound _ code _).bind fun output τ₄ h₄ houtput => ?_
    refine (connect_keeps h₄.sound output (hfinish₃.grown h₄) []).bind fun _ τ₅ h₅ _ => ?_
    have houtput₅ := within_node.2 (Nat.lt_of_lt_of_le houtput h₅.size)
    have hfinish₅ := hfinish₃.grown (h₄.trans h₅)
    refine newGroup_keeps h₅.sound _ ?_ houtput₅ (by simpa using hfinish₅) (some code)
    simp only [GroupRole.items, List.forall_mem_cons]
    exact ⟨houtput₅, hfinish₅, List.forall_mem_nil _⟩
  · refine newGroup_keeps h₃.sound _ ?_ hfinish₃ (by simpa using hfinish₃) (some code)
    simp only [GroupRole.items, List.forall_mem_cons]
    exact ⟨within_nothing τ₃, hfinish₃, List.forall_mem_nil _⟩

theorem caseTest_builder (subject code : Piece) : Builder (caseTest subject code) := by
  intro σ hσ
  refine (Keeps.given hσ.sound _).bind fun text τ hτ _ => ?_
  exact newDecision_keeps hτ.sound .case text none

theorem case_builder (subject code : Piece) {body : Action Nat} (h : Builder body) :
    Builder (case subject code body) := by
  intro σ hσ
  refine (takeId_keeps hσ.sound).next hσ fun _ τ₁ _ hτ₁ _ => ?_
  refine (caseTest_builder subject code hτ₁).next hτ₁ fun t τ₂ _ hτ₂ ht => ?_
  refine (newOpenGroup_keeps hτ₂.sound (.case (.node t))
    (by simpa [GroupRole.items] using within_node.2 ht) (within_node.2 ht)
    (some code)).next hτ₂ fun g τ₃ h₃ hτ₃ hg => ?_
  refine (h hτ₃).next hτ₃ fun b τ₄ h₄ hτ₄ _ => ?_
  refine (groupEnds_keeps hτ₄ b).next hτ₄ fun ends τ₅ h₅ hτ₅ hends => ?_
  have ht₅ := Nat.lt_of_lt_of_le ht ((h₃.trans h₄).trans h₅).size
  have hg₅ := Nat.lt_of_lt_of_le hg (h₄.trans h₅).size
  obtain ⟨head, tails⟩ := ends
  have hbody : ∀ {υ : Store}, Grown τ₅ υ → Makes υ (do
      let out ← newBridge false (.node t) .nothing [some "no"]
      let _ ← connectAnswer t .no (.node out)
      setTails g (· ++ [.node out])
      return g) := by
    intro υ hυ
    have htυ := Nat.lt_of_lt_of_le ht₅ hυ.size
    refine (newBridge_keeps hυ.sound false htυ (within_nothing υ) _).bind fun out ρ hρ hout => ?_
    refine (connectAnswer_keeps hρ.sound (Nat.lt_of_lt_of_le htυ hρ.size) .no
      (within_node.2 hout) _).bind fun _ ω hω _ => ?_
    refine (appendTails_keeps hω.sound g
      (by simpa using (within_node.2 hout).grown hω)).bind fun _ ψ hψ _ => ?_
    exact .ret hψ.sound (Nat.lt_of_lt_of_le hg₅ (((hυ.trans hρ).trans hω).trans hψ).size)
  dsimp only
  split
  · refine (connectAnswer_keeps hτ₅.sound ht₅ .yes hends.1 _).bind fun _ τ₆ h₆ _ => ?_
    refine (appendTails_keeps h₆.sound g fun tail htail => (hends.2 tail htail).grown h₆).bind
      fun _ τ₇ h₇ _ => ?_
    exact hbody (h₆.trans h₇)
  · exact hbody (.refl hτ₅.sound)

theorem caseChain_keeps (hσ : σ.Firm) (last : Nat) {acts : List (Action Nat)}
    (h : ∀ act ∈ acts, Builder act) :
    Keeps σ (caseChain last acts) fun built τ => ∀ i ∈ built, i < τ.nodes.size := by
  induction acts generalizing σ last with
  | nil => exact .ret hσ.sound (List.forall_mem_nil _)
  | cons act rest ih =>
    obtain ⟨hact, hrest⟩ := List.forall_mem_cons.1 h
    refine (hact hσ).next hσ fun next τ _ hτ hnext => ?_
    refine (connect_keeps hτ.sound last (within_node.2 hnext) []).next hτ fun _ υ hτυ hυ _ => ?_
    refine (ih hυ next hrest).bind fun built ρ hρ hbuilt => ?_
    refine .ret hρ.sound (List.forall_mem_cons.2 ⟨?_, hbuilt⟩)
    exact Nat.lt_of_lt_of_le hnext (hτυ.trans hρ).size

theorem addSelection_keeps (hσ : σ.Sound) (id : Nat) (code : Option Piece) :
    Makes σ (addNode { form := .group (.selection []) .nothing [] "" "", id, code }) := by
  refine .of_ok rfl ⟨?_, Nat.le_of_lt (by simp), fun hc => hc.pushNode ?_⟩ (by simp)
  · refine hσ.pushNode ⟨rfl, ?_, ?_, ?_, ?_⟩ ?_ ?_
    · exact fun _ h => nomatch h
    · exact List.forall_mem_nil _
    · exact fun _ _ _ _ _ h => nomatch h
    · exact fun _ _ _ _ _ h => nomatch h
    · exact fun _ h => nomatch h
    · exact fun _ _ _ _ _ h => nomatch h
  · simp [Form.items, GroupRole.items, within_nothing]

theorem selection_builder (code : Piece) {cases : Except Fault (List (Action Nat))}
    (h : ∀ acts, cases = .ok acts → ∀ act ∈ acts, Builder act) :
    Builder (selection code cases) := by
  intro σ hσ
  refine (takeId_keeps hσ.sound).next hσ fun id τ₁ _ hτ₁ _ => ?_
  dsimp only
  split
  · exact .fail hτ₁.sound _
  refine (addSelection_keeps hτ₁.sound id (some code)).next hτ₁ fun g τ₂ _ hτ₂ hg => ?_
  refine (newBridge_keeps hτ₂.sound false hg (within_nothing τ₂) []).next hτ₂
    fun entry τ₃ h₃ hτ₃ hentry => ?_
  refine (takeId_keeps hτ₃.sound).next hτ₃ fun id' τ₄ h₄ hτ₄ _ => ?_
  refine (modifyPlain_keeps (f := ({ · with id := id' })) hτ₄.sound g (fun _ => rfl)
    (fun _ => rfl) (fun _ => rfl) fun _ => rfl).next hτ₄ fun _ τ₅ h₅ hτ₅ _ => ?_
  have hentry₅ := within_node.2 (Nat.lt_of_lt_of_le hentry (h₄.trans h₅).size)
  refine (setHead_keeps hτ₅.sound g hentry₅).next hτ₅ fun _ τ₆ h₆ hτ₆ _ => ?_
  cases cases with
  | error f => exact .of_error (bind_error rfl) (.refl hτ₆.sound)
  | ok acts =>
    refine .of_eq (bind_ok rfl) ?_
    refine (caseChain_keeps hτ₆ entry (h acts rfl)).next hτ₆ fun built τ₇ h₇ hτ₇ hbuilt => ?_
    have hall : ∀ item ∈ built.map Item.node, item.Within τ₇ := by
      simpa [within_node] using hbuilt
    refine (setRole_keeps (f := fun _ => .selection _) hτ₇.sound g fun _ => hall).next hτ₇
      fun _ τ₈ h₈ hτ₈ _ => ?_
    have hg₈ := Nat.lt_of_lt_of_le hg
      (((((h₃.trans h₄).trans h₅).trans h₆).trans h₇).trans h₈).size
    split
    · rename_i first last hfirst hlast
      have hfirst₈ := Nat.lt_of_lt_of_le (hbuilt first (List.mem_of_mem_head? hfirst)) h₈.size
      refine (groupEnds_keeps hτ₈ last).bind fun ends τ₉ h₉ hends => ?_
      refine (appendTails_keeps h₉.sound g hends.2).bind fun _ υ hυ _ => ?_
      have hhead := within_node.2 (Nat.lt_of_lt_of_le hfirst₈ (h₉.trans hυ).size)
      refine (setHead_keeps hυ.sound g hhead).bind fun _ ρ hρ _ => ?_
      exact .ret hρ.sound (Nat.lt_of_lt_of_le hg₈ ((h₉.trans hυ).trans hρ).size)
    · exact .fail hτ₈.sound _

theorem codeBox_builder (shape : Shape) (code : Piece) (text : Except Fault String) :
    Builder (newCodeBox shape code text) :=
  fun hσ => newCodeBox_keeps hσ.sound shape code text

theorem test_builder (role : DecisionRole) (code : Piece) : Builder (test role code) :=
  fun hσ => newCodeDecision_keeps hσ.sound role code _

theorem value_builder (code : Piece) (e : Expr) : Builder (ofValue code e) := by
  cases e with
  | lacking part e => exact value_builder code e
  | _ => exact codeBox_builder _ code _

theorem unlessMissing_builder (missing : List String) (code : Piece) (part : String)
    {act : Action Nat} (h : Builder act) : Builder (unlessMissing missing code part act) := by
  intro σ hσ
  unfold unlessMissing
  split
  · exact .fail hσ.sound _
  · exact h hσ

mutual

theorem stmt_builder (options : Options) (code : Piece) (missing : List String) (s : Stmt) :
    Builder (ofStmt options code missing s) := by
  cases s with
  | function isAsync a b c body d e =>
    cases isAsync with
    | true => exact codeBox_builder _ code _
    | false =>
      exact function_builder code (unlessMissing_builder missing code "body"
        (suite_builder options (stmts_builder options body)))
  | forEach isAsync a b body c =>
    cases isAsync with
    | true => exact codeBox_builder _ code _
    | false => exact loop_builder options code (suite_builder options (stmts_builder options body))
  | whileTrue a body b =>
    exact loop_builder options code (suite_builder options (stmts_builder options body))
  | branch a body orelse =>
    exact branch_builder options code (suite_builder options (stmts_builder options body))
      (suite_builder options (stmts_builder options orelse))
  | giveBack value => exact returning_builder code _
  | select subject cases =>
    refine selection_builder code ?_
    intro acts hacts
    split at hacts
    · cases hacts
    · cases hacts
      exact cases_builder (.expr subject) cases
  | expr value =>
    rw [ofStmt]
    split
    · exact codeBox_builder _ code _
    · exact value_builder code value
  | lacking part s => exact stmt_builder options code (part :: missing) s
  | _ => exact codeBox_builder _ code _

theorem stmts_builder (options : Options) (ss : List Stmt) :
    ∀ act ∈ ofStmts options ss, Builder act := by
  cases ss with
  | nil => exact List.forall_mem_nil _
  | cons s rest =>
    exact List.forall_mem_cons.2 ⟨stmt_builder options (.stmt s) [] s, stmts_builder options rest⟩

theorem oneCase_builder (subject code : Piece) (missing : List String) (c : Case) :
    Builder (ofCase subject code missing c) := by
  cases c with
  | mk pattern guard body =>
    exact case_builder subject code (unlessMissing_builder missing code "body"
      (suite_builder {} (stmts_builder {} body)))
  | lacking part c => exact oneCase_builder subject code (part :: missing) c

theorem cases_builder (subject : Piece) (cs : List Case) :
    ∀ act ∈ ofCases subject cs, Builder act := by
  cases cs with
  | nil => exact List.forall_mem_nil _
  | cons c rest =>
    exact List.forall_mem_cons.2 ⟨oneCase_builder subject (.case c) [] c,
      cases_builder subject rest⟩

end

theorem piece_builder (options : Options) (piece : Piece) : Builder (ofPiece options piece) := by
  cases piece with
  | stmt s => exact stmt_builder options (.stmt s) [] s
  | expr e => exact value_builder (.expr e) e
  | _ => exact codeBox_builder _ _ _

theorem pieces_builder (options : Options) (pieces : List Piece) :
    Builder (ofPieces options pieces) := by
  exact suite_builder options (List.forall_mem_map.2 fun piece _ => piece_builder options piece)

theorem notIterable_builder (kind : String) : Builder (do
    let _ ← newGroup .suite .nothing []
    throw (.notIterable kind)) := by
  intro σ hσ
  refine (newOpenGroup_keeps hσ.sound .suite (by simp [GroupRole.items]) (within_nothing σ)
    none).bind fun _ τ hτ _ => ?_
  exact .fail hτ.sound _

theorem suiteOf_builder (options : Options) (own : List String) (part : String) (code : Piece) :
    Builder (suiteOf options own part code) := by
  unfold suiteOf
  split
  · exact pieces_builder options _
  · exact notIterable_builder _
  · exact notIterable_builder _
  · exact fun hσ => .fail hσ.sound _

theorem casesOf_builder (code : Piece) :
    ∀ acts, casesOf code = .ok acts → ∀ act ∈ acts, Builder act := by
  intro acts hacts
  unfold casesOf at hacts
  split at hacts
  · cases hacts
    exact List.forall_mem_map.2 fun c _ => case_builder _ c (suiteOf_builder {} _ _ c)
  · cases hacts

theorem construct_builder (options : Options) (subject code : Piece) (as : Construct) :
    Builder (as.build options subject code) := by
  cases as with
  | fragment => exact fun hσ => newBox_keeps hσ.sound .fragment "" (some code)
  | test => exact test_builder .test code
  | loopTest => exact test_builder .loop code
  | branchTest => exact test_builder .branch code
  | function => exact function_builder code (suiteOf_builder options _ _ code)
  | loop => exact loop_builder options code (suiteOf_builder options _ _ code)
  | branch =>
    exact branch_builder options code (suiteOf_builder options _ _ code)
      (suiteOf_builder options _ _ code)
  | returning => exact returning_builder code _
  | caseTest => exact caseTest_builder subject code
  | case => exact case_builder subject code (suiteOf_builder {} _ _ code)
  | selection => exact selection_builder code (casesOf_builder code)
  | _ => exact codeBox_builder _ code _

theorem chartOf_builder (options : Options) (pieces : List Piece) :
    Builder (chartOf options pieces) := by
  intro σ hσ
  refine (pieces_builder options pieces hσ).next hσ fun g τ _ hτ _ => ?_
  refine (groupEnds_keeps hτ g).bind fun ends υ hυ hends => ?_
  exact newOpenGroup_keeps hυ.sound .chart (by simp [GroupRole.items]) hends.1 none

theorem source_builder (source : Source) : Builder source.chart := by
  intro σ hσ
  refine (Keeps.given hσ.sound source.pieces).next hσ fun pieces τ _ hτ _ => ?_
  exact chartOf_builder source.options pieces hτ

/-- The text of the chart of some pieces, if so many steps are enough for its walk. -/
def chartedText (options : Options) (pieces : List Piece) (fuel : Nat) : Option String :=
  (outcome (do let g ← chartOf options pieces; return (← get).chartWithin fuel g) {}).join

theorem draw_of_chartedText {source : Source} {pieces : List Piece} {fuel : Nat} {text : String}
    (hpieces : source.pieces = .ok pieces)
    (h : chartedText source.options pieces fuel = some text) :
    ∃ τ, source.draw {} = .ok text τ := by
  obtain ⟨g, σ, hchart, htext⟩ := exists_of_checked (Option.join_eq_some_iff.1 h)
  have hσ := (chartOf_builder source.options pieces ⟨sound_empty, .empty⟩).ok hchart
  obtain ⟨τ, hrun⟩ := Redrawn.chartText_of_chartWithin hσ.1.sound htext
  have hsource : source.chart {} = .ok g σ := by
    rw [Source.chart, hpieces]
    exact hchart
  exact ⟨τ, (bind_ok hsource).trans hrun⟩

end CodeChart.Chart
