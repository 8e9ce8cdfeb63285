import CodeChart.Chart.Source
import CodeChart.Proofs.Mirror

/-! Construction does the same in a copy. Connecting and simplifying nodes, and with them every
construct, do to the copy of a store what they do to the store, so the chart of a list of pieces is
built alike wherever the building begins. What alignment adds is not seen in a copy without marks,
so there the chart may be built without it. -/
namespace CodeChart.Graph

variable {o : Offset}

section

variable {s s' : Store} (h : s.Mirrors o s') (i : Nat) (target : Item)
include h

theorem Store.Mirrors.withLink (labels : List Label) : Store.Mirrors o (s.withLink i target labels)
    (s'.withLink (o.nodes + i) (target.shift o) labels) := by
  refine (h.pushLink (.same o target labels)).mapNode i ?_ (h.drawable.withLink i target labels)
  intro n n' hn
  refine ⟨hn.form, hn.name, hn.text, ?_, hn.params, hn.direction, hn.absent, hn.mark⟩
  simp only [hn.links, h.linkCount, List.map_append, List.map_cons, List.map_nil, Item.shift]

theorem Store.Mirrors.moveBridge (labels : List Label) :
    Store.Mirrors o (s.moveBridge i target labels)
    (s'.moveBridge (o.nodes + i) (target.shift o) labels) := by
  have hd := h.drawable.moveBridge i target labels
  revert hd
  unfold Store.moveBridge
  rw [(h.node i).form]
  cases (s.node i).form with
  | bridge answer parent child old link =>
    intro hd
    refine (h.pushLink (.same o target _)).mapNode i (fun n n' hn => hn.withForm ?_) hd
    simp only [Form.shift, Item.shift, h.linkCount]
  | _ => exact fun _ => h

theorem Store.Mirrors.withAnswerLink (answer : Answer) (direction : Label) :
    Store.Mirrors o (s.withAnswerLink i answer target direction)
      (s'.withAnswerLink (o.nodes + i) answer (target.shift o) direction) := by
  unfold Store.withAnswerLink
  rw [h.size]
  exact (h.withBridge true i target _).pushLink (.same o (.node s.nodes.size) _)

theorem Store.Mirrors.withAnswer (answer : Answer) (direction : Label) :
    Store.Mirrors o (s.withAnswer i answer target direction)
      (s'.withAnswer (o.nodes + i) answer (target.shift o) direction) := by
  unfold Store.withAnswer
  rw [h.linkCount, Nat.add_assoc]
  exact (h.withAnswerLink i target answer direction).mapNode i (fun _ _ hn => hn.addAnswer answer _)
    (h.drawable.withAnswer i answer target direction)

end

theorem connectAnswer_mirrored (i : Nat) (answer : Answer) (target : Item) (direction : Label) :
    Mirrored o o.Copies (connectAnswer i answer target direction)
      (connectAnswer (o.nodes + i) answer (target.shift o) direction) := by
  intro s s' hs
  have hset := (hs.withAnswerLink i target answer direction).mapNode i
    (fun _ _ hn => hn.setAnswer answer (.link (s.links.size + 1)))
    ((hs.withAnswerLink i target answer direction).drawable.change i fun n => .setAnswer n answer _)
  have hwhole := hset.drawable.whole i
  rw [← (hset.node i).absent] at hwhole
  refine .inl ⟨_, _, _, _, hs.drawable.connectAnswer_run i answer target direction,
    connectAnswer_of_present _ answer _ direction ?_, hs.size,
      hs.withAnswer i target answer direction⟩
  rw [hs.linkCount, Nat.add_assoc]
  exact hwhole

theorem connectBridge_mirrored (i : Nat) (target : Item) (labels : List Label) :
    Mirrored o Eq (connectBridge i target labels)
      (connectBridge (o.nodes + i) (target.shift o) labels) :=
  .of_ok (fun s => connectBridge_run s i target labels) (fun s => connectBridge_run s _ _ labels)
    fun _ _ hs => ⟨rfl, hs.moveBridge i target labels⟩

theorem newLink_mirrored (i : Nat) (target : Item) (labels : List Label) :
    Mirrored o Eq (do let l ← addLink target labels; appendLink i (.link l))
      (do let l ← addLink (target.shift o) labels; appendLink (o.nodes + i) (.link l)) := by
  intro s s' hs
  have hlink := hs.pushLink (.same o target labels)
  have hwhole := hlink.drawable.whole i
  rw [← (hlink.node i).absent] at hwhole
  exact .inl ⟨_, _, _, _, hs.drawable.newLink_run i target labels,
    appendLink_of_not_absent _ _ _ hwhole, rfl, hs.withLink i target labels⟩

theorem connectWithin_followed {fuel fuel' : Nat} (hle : fuel ≤ fuel') (i : Nat) (target : Item)
    (labels : List Label) :
    Followed o Eq (connectWithin fuel i target labels)
      (connectWithin fuel' (o.nodes + i) (target.shift o) labels) := by
  induction fuel generalizing fuel' i labels with
  | zero => exact fun s _ _ => .inr ⟨.endless, s, rfl, fun _ hf => absurd rfl hf⟩
  | succ fuel ih =>
    obtain ⟨fuel', rfl⟩ : ∃ n, fuel' = n + 1 := ⟨fuel' - 1, by omega⟩
    refine (getNode_mirrored i).followed.bind fun n n' hn => ?_
    rw [hn.form]
    cases n.form with
    | box shape =>
      cases shape with
      | jump => exact .pure rfl
      | _ => exact (newLink_mirrored i target _).followed
    | group role head tails d c =>
      cases role with
      | returning output finish => exact .pure rfl
      | _ =>
        -- The tails are followed with less fuel on both sides.
        refine .forM (Item.shift o) tails fun t _ => ?_
        cases t with
        | node j => exact ih (by omega) j _
        | nothing => exact .pure rfl
        | link l => exact .pure rfl
    | bridge answer parent child old link => exact (connectBridge_mirrored i target labels).followed
    | decision role yes no =>
      cases role with
      | loop =>
        have hanswer : Mirrored o Eq (do let _ ← connectAnswer i .no target; pure ())
            (do let _ ← connectAnswer (o.nodes + i) .no (target.shift o); pure ()) :=
          (connectAnswer_mirrored i .no target (some "")).step fun _ => .pure rfl
        cases isGiven (labels.headD (some "")) with
        | true => exact ((setDirection_mirrored i _).same fun _ => hanswer).followed
        | false => exact hanswer.followed
      | _ => exact (newLink_mirrored i target _).followed

theorem connect_followed (i : Nat) (target : Item) (labels : List Label) :
    Followed o Eq (connect i target labels) (connect (o.nodes + i) (target.shift o) labels) := by
  intro s s' hs
  have hsize := hs.size
  exact connectWithin_followed (by omega) i target labels s s' hs

theorem connectItem_followed (source target : Item) :
    Followed o Eq (connectItem source target) (connectItem (source.shift o) (target.shift o)) := by
  cases source with
  | node i => exact connect_followed i target []
  | nothing => exact .pure rfl
  | link l => exact .pure rfl

theorem plainBody_mirrored (link : Item) :
    Mirrored o (fun a b => b = a.map (o.nodes + ·)) (plainBody link)
      (plainBody (link.shift o)) := by
  cases link with
  | nothing => exact .pure rfl
  | node i => exact .pure rfl
  | link l =>
    refine (getLink_mirrored l).bind fun k k' hk => ?_
    rw [hk.target]
    cases k.target with
    | nothing => exact .pure rfl
    | link l => exact .pure rfl
    | node b =>
      refine (getNode_mirrored b).bind fun n n' hn => ?_
      rw [hn.form]
      cases n.form with
      | bridge answer parent child labels link =>
        cases answer with
        | false => exact .pure rfl
        | true =>
          cases child with
          | nothing => exact .pure rfl
          | link l => exact .pure rfl
          | node j =>
            refine (getNode_mirrored j).bind fun m m' hm => .pure ?_
            rw [hm.form, isGroup_shift, isDecision_shift]
            split <;> rfl
      | _ => exact .pure rfl

theorem nextOf_mirrored (item : Item) :
    Mirrored o (fun a b => b = a.shift o) (nextOf item) (nextOf (item.shift o)) := by
  cases item with
  | link l =>
    refine (getLink_mirrored l).bind fun k k' hk => ?_
    exact .pure hk.target
  | nothing => exact .lacks .nothing "next_node"
  | node i => exact .lacks (.node i) "next_node"

theorem orPrinted_mirrored {test test' : Action Bool} (h : Mirrored o Eq test test') :
    Mirrored o Eq (orPrinted test) (orPrinted test') :=
  h.tryCatch fun _ => (print_mirrored _).same fun _ => .pure rfl

theorem loopIsOneLine_mirrored (i : Nat) :
    Mirrored o Eq (loopIsOneLine i) (loopIsOneLine (o.nodes + i)) := by
  refine orPrinted_mirrored ((yesOf_mirrored (.node i)).step fun yes => ?_)
  refine (plainBody_mirrored yes).step fun body => ?_
  cases body with
  | none => exact .pure rfl
  | some j =>
    refine (linksOf_mirrored j).step fun links => ?_
    match links with
    | [] => exact .pure rfl
    | [back] =>
      refine (nextOf_mirrored back).step fun next => ?_
      refine .pure ?_
      have hinjective := (shift_injective o).eq_iff (a := next) (b := .node i)
      rw [Bool.eq_iff_iff, beq_iff_eq, beq_iff_eq]
      exact hinjective.symm
    | _ :: _ :: _ => exact .pure rfl

theorem bodyIsOneLine_mirrored (yes : Item) :
    Mirrored o Eq (bodyIsOneLine yes) (bodyIsOneLine (yes.shift o)) := by
  refine (plainBody_mirrored yes).step fun body => ?_
  cases body with
  | none => exact .pure rfl
  | some j =>
    refine (linksOf_mirrored j).step fun links => ?_
    exact .pure List.isEmpty_map.symm

theorem branchIsOneLine_mirrored (i : Nat) :
    Mirrored o Eq (branchIsOneLine i) (branchIsOneLine (o.nodes + i)) := by
  refine orPrinted_mirrored ((yesOf_mirrored (.node i)).step fun yes => ?_)
  exact bodyIsOneLine_mirrored yes

theorem hasNoAlternative_mirrored (i : Nat) :
    Mirrored o Eq (hasNoAlternative i) (hasNoAlternative (o.nodes + i)) := by
  refine orPrinted_mirrored ((noOf_mirrored (.node i)).step fun no => ?_)
  cases no with
  | nothing => exact .pure rfl
  | node j => exact .pure rfl
  | link l =>
    refine (getLink_mirrored l).bind fun k k' hk => ?_
    rw [hk.target]
    cases k.target with
    | nothing => exact .pure rfl
    | link l => exact .pure rfl
    | node b =>
      refine (getNode_mirrored b).bind fun n n' hn => ?_
      rw [hn.form]
      cases n.form with
      | bridge answer parent child labels link =>
        cases answer with
        | false => exact .pure rfl
        | true => cases child <;> exact .pure rfl
      | _ => exact .pure rfl

theorem isOneLine_mirrored (test : Item) :
    Mirrored o Eq (isOneLine test) (isOneLine (test.shift o)) := by
  cases test with
  | nothing => exact .lacks .nothing "is_one_line_body"
  | link l => exact .lacks (.link l) "is_one_line_body"
  | node i =>
    refine (getNode_mirrored i).bind fun n n' hn => ?_
    rw [hn.form]
    cases n.form with
    | decision role yes no =>
      cases role with
      | loop => exact loopIsOneLine_mirrored i
      | branch => exact branchIsOneLine_mirrored i
      | _ => exact .lacks (.node i) "is_one_line_body"
    | _ => exact .lacks (.node i) "is_one_line_body"

theorem isWithoutElse_mirrored (test : Item) :
    Mirrored o Eq (isWithoutElse test) (isWithoutElse (test.shift o)) := by
  cases test with
  | nothing => exact .lacks .nothing "is_no_else"
  | link l => exact .lacks (.link l) "is_no_else"
  | node i =>
    refine (getNode_mirrored i).bind fun n n' hn => ?_
    rw [hn.form]
    cases n.form with
    | decision role yes no =>
      cases role with
      | branch => exact hasNoAlternative_mirrored i
      | _ => exact .lacks (.node i) "is_no_else"
    | _ => exact .lacks (.node i) "is_no_else"

theorem bodyAndTest_mirrored (test : Item) :
    Mirrored o Eq (bodyAndTest test) (bodyAndTest (test.shift o)) := by
  cases test with
  | nothing => exact .throw .unmet
  | link l => exact .throw .unmet
  | node i =>
    refine (yesOf_mirrored (.node i)).step fun yes => ?_
    refine (plainBody_mirrored yes).step fun body => ?_
    cases body with
    | none => exact .throw .unmet
    | some j =>
      refine (getNode_mirrored j).bind fun n n' hn => (getNode_mirrored i).bind fun m m' hm => ?_
      exact .pure (by rw [hn.text, hm.text])

theorem replaceBy_mirrored (g : Nat) (text : String) {ending : String}
    (hending : hasDigit ending = false) :
    Mirrored o Eq (replaceBy g text ending) (replaceBy (o.nodes + g) text ending) := by
  refine (newBox_mirrored .operation text none).step fun op => ?_
  refine (groupEnds_mirrored g).step ?_
  rintro ⟨head, tails⟩
  refine (itemName_mirrored head).step fun name => ?_
  refine (modifyNode_mirrored op ?_ fun n n' hn => ?_).same fun _ => ?_
  · exact fun _ => .of_eq rfl rfl rfl rfl
  · exact ⟨hn.form, (renumber_append o.ids name hending).symm, hn.text, hn.links, hn.params,
      hn.direction, hn.absent, hn.mark⟩
  · exact (setHead_mirrored g (.node op)).same fun _ => setTails_mirrored g fun _ => rfl

theorem printMissing_mirrored {act act' : Action Unit} (h : Mirrored o Eq act act') :
    Mirrored o Eq (printMissing act) (printMissing act') := by
  refine h.tryCatch fun f => ?_
  cases f with
  | noAttribute owner part => exact print_mirrored _
  | _ => exact .throw _

theorem contract_mirrored (g : Nat) (test : Item) (say : String → String → String) {ending : String}
    (hending : hasDigit ending = false) :
    Mirrored o Eq
      (do
        let (body, condition) ← bodyAndTest test
        replaceBy g (say body condition) ending)
      (do
        let (body, condition) ← bodyAndTest (test.shift o)
        replaceBy (o.nodes + g) (say body condition) ending) := by
  refine (bodyAndTest_mirrored test).same ?_
  rintro ⟨body, condition⟩
  exact replaceBy_mirrored g (say body condition) hending

theorem simplifyLoop_mirrored (g : Nat) (test : Item) :
    Mirrored o Eq (simplifyLoop g test) (simplifyLoop (o.nodes + g) (test.shift o)) := by
  refine printMissing_mirrored
    ((present_mirrored g "cond_node" (Item.shift o) test).step fun test => ?_)
  refine (isOneLine_mirrored test).same fun one => ?_
  cases one with
  | false => exact .pure rfl
  | true => exact contract_mirrored g test loopText rfl

theorem simplifyBranch_mirrored (g : Nat) (test : Item) :
    Mirrored o Eq (simplifyBranch g test) (simplifyBranch (o.nodes + g) (test.shift o)) := by
  refine printMissing_mirrored
    ((present_mirrored g "cond_node" (Item.shift o) test).step fun test => ?_)
  refine (isWithoutElse_mirrored test).same fun alone => ?_
  cases alone with
  | false => exact .pure rfl
  | true =>
    refine (isOneLine_mirrored test).same fun one => ?_
    cases one with
    | false => exact .pure rfl
    | true => exact contract_mirrored g test branchText rfl

theorem caseIsOneLine_mirrored (g : Nat) (test : Item) :
    Mirrored o Eq (caseIsOneLine g test) (caseIsOneLine (o.nodes + g) (test.shift o)) := by
  refine (present_mirrored g "cond_node" (Item.shift o) test).step fun test => ?_
  refine (yesOf_mirrored test).step fun yes => ?_
  exact (bodyIsOneLine_mirrored yes).tryCatch fun _ => .pure rfl

theorem simplifyCase_mirrored (g : Nat) (test : Item) :
    Mirrored o Eq (simplifyCase g test) (simplifyCase (o.nodes + g) (test.shift o)) := by
  refine (warn_mirrored _).same fun _ => (caseIsOneLine_mirrored g test).same fun one => ?_
  cases one with
  | false => exact .pure rfl
  | true =>
    refine .tryCatch ?_ fun f => warn_mirrored _
    exact contract_mirrored g test (fun body condition => body ++ " " ++ condition) rfl

theorem simplifyCases_mirrored (cases : List Item) :
    Mirrored o Eq (simplifyCases cases) (simplifyCases (cases.map (Item.shift o))) := by
  refine .forM (Item.shift o) cases fun case _ => ?_
  cases case with
  | nothing => exact .lacks .nothing "inlineable"
  | link l => exact .lacks (.link l) "inlineable"
  | node g =>
    refine (getNode_mirrored g).bind fun n n' hn => ?_
    rw [hn.form]
    cases n.form with
    | group role head tails d c =>
      cases role with
      | case test =>
        refine (caseIsOneLine_mirrored g test).same fun one => ?_
        cases one with
        | false => exact .pure rfl
        | true => exact simplifyCase_mirrored g test
      | _ => exact .lacks (.node g) "inlineable"
    | _ => exact .lacks (.node g) "inlineable"

theorem simplifySelection_mirrored (g : Nat) (cases : List Item) :
    Mirrored o Eq (simplifySelection g cases)
      (simplifySelection (o.nodes + g) (cases.map (Item.shift o))) := by
  refine (warn_mirrored _).same fun _ => .tryCatch ?_ fun f => warn_mirrored _
  refine (present_mirrored g "cases" (List.map (Item.shift o)) cases).step fun cases => ?_
  exact simplifyCases_mirrored cases

theorem simplify_mirrored (g : Nat) : Mirrored o Eq (simplify g) (simplify (o.nodes + g)) := by
  refine (getNode_mirrored g).bind fun n n' hn => ?_
  rw [hn.form]
  cases n.form with
  | group role head tails d c =>
    cases role with
    | loop test => exact simplifyLoop_mirrored g test
    | branch test => exact simplifyBranch_mirrored g test
    | case test => exact simplifyCase_mirrored g test
    | selection cases => exact simplifySelection_mirrored g cases
    | _ => exact .pure rfl
  | _ => exact .lacks (.node g) "simplify"

theorem alignBranch_mirrored (g : Nat) :
    Mirrored o Eq (alignBranch g) (alignBranch (o.nodes + g)) := by
  refine (getNode_mirrored g).bind fun n n' hn => ?_
  rw [hn.form]
  cases n.form with
  | group role head tails d c =>
    cases role with
    | branch test =>
      refine (present_mirrored g "cond_node" (Item.shift o) test).step fun test => ?_
      exact breakAlignment_mirrored test
    | _ => exact .lacks (.node g) "align"
  | _ => exact .lacks (.node g) "align"

theorem yesOf_unseen (item : Item) : Unseen o (yesOf item) := by
  cases item with
  | node i =>
    refine (getNode_unseen i).bind fun n => ?_
    cases n.form with
    | decision role yes no => exact present_unseen i "connection_yes" yes
    | _ => exact .lacks (.node i) "connection_yes"
  | nothing => exact .lacks .nothing "connection_yes"
  | link l => exact .lacks (.link l) "connection_yes"

theorem noOf_unseen (item : Item) : Unseen o (noOf item) := by
  cases item with
  | node i =>
    refine (getNode_unseen i).bind fun n => ?_
    cases n.form with
    | decision role yes no => exact present_unseen i "connection_no" no
    | _ => exact .lacks (.node i) "connection_no"
  | nothing => exact .lacks .nothing "connection_no"
  | link l => exact .lacks (.link l) "connection_no"

theorem hasNoAlternative_unseen (i : Nat) : Unseen o (hasNoAlternative i) := by
  refine .tryCatch ((noOf_unseen (.node i)).bind fun no => ?_) fun f =>
    (print_unseen _).bind fun _ => .pure _
  cases no with
  | nothing => exact .pure _
  | node j => exact .pure _
  | link l =>
    refine (getLink_unseen l).bind fun k => ?_
    obtain ⟨target, labels⟩ := k
    cases target with
    | nothing => exact .pure _
    | link l => exact .pure _
    | node b =>
      refine (getNode_unseen b).bind fun n => ?_
      cases n.form with
      | bridge answer parent child labels link =>
        cases answer with
        | false => exact .pure _
        | true => cases child <;> exact .pure _
      | _ => exact .pure _

theorem isWithoutElse_unseen (test : Item) : Unseen o (isWithoutElse test) := by
  cases test with
  | nothing => exact .lacks .nothing "is_no_else"
  | link l => exact .lacks (.link l) "is_no_else"
  | node i =>
    refine (getNode_unseen i).bind fun n => ?_
    cases n.form with
    | decision role yes no =>
      cases role with
      | branch => exact hasNoAlternative_unseen i
      | _ => exact .lacks (.node i) "is_no_else"
    | _ => exact .lacks (.node i) "is_no_else"

theorem breakAlignment_unseen (hmarked : o.marked = false) (item : Item) :
    Unseen o (breakAlignment item) := by
  cases item with
  | node i =>
    refine (getNode_unseen i).bind fun n => ?_
    split
    · exact modifyNode_unseen i (fun n => .setParam n _ _) fun n n' hn =>
        hn.withParam hmarked "align-next" "no"
    · exact .lacks (.node i) "no_align_next"
  | nothing => exact .lacks .nothing "no_align_next"
  | link l => exact .lacks (.link l) "no_align_next"

theorem alignBranch_unseen (hmarked : o.marked = false) (g : Nat) : Unseen o (alignBranch g) := by
  refine (getNode_unseen g).bind fun n => ?_
  cases n.form with
  | group role head tails d c =>
    cases role with
    | branch test =>
      exact (present_unseen g "cond_node" test).bind fun test => breakAlignment_unseen hmarked test
    | _ => exact .lacks (.node g) "align"
  | _ => exact .lacks (.node g) "align"

end CodeChart.Graph

namespace CodeChart.Chart

open CodeChart.Graph Code

variable {o : Offset}

theorem isBranch_unseen (i : Nat) : Unseen o (isBranch i) := by
  refine (getNode_unseen i).bind fun n => ?_
  cases n.form with
  | group role head tails d c => cases role <;> exact .pure _
  | _ => exact .pure _

theorem isBranch_mirrored (i : Nat) : Mirrored o Eq (isBranch i) (isBranch (o.nodes + i)) := by
  refine (getNode_mirrored i).bind fun n n' hn => ?_
  rw [hn.form]
  cases n.form with
  | group role head tails d c => cases role <;> exact .pure rfl
  | _ => exact .pure rfl

/-- The options under which a copy is built: a copy without marks may be built without alignment. -/
structure Allows (o : Offset) (options options' : Options) : Prop where
  simplify : options'.simplify = options.simplify
  align : options'.align = options.align ∨ o.marked = false ∧ options'.align = false

theorem Allows.same (o : Offset) (options : Options) : Allows o options options :=
  ⟨rfl, .inl rfl⟩

theorem Allows.ifAligned {options options' : Options} (h : Allows o options options')
    {act act' : Action Unit} (hact : Mirrored o Eq act act')
    (hunseen : o.marked = false → Unseen o act) :
    Followed o Eq (if options.align then act else pure ())
      (if options'.align then act' else pure ()) := by
  rcases h.align with halign | ⟨hmarked, hplain⟩
  · rw [halign]
    cases options.align with
    | false => exact .pure rfl
    | true => exact hact.followed
  · rw [hplain]
    cases options.align with
    | false => exact .pure rfl
    | true => exact (hunseen hmarked).followed hmarked

theorem join_followed {options options' : Options} (h : Allows o options options')
    (last next : Nat) :
    Followed o Eq (join options last next) (join options' (o.nodes + last) (o.nodes + next)) := by
  refine (connect_followed last (.node next) []).same fun _ => h.ifAligned ?_ fun hmarked => ?_
  · refine (isBranch_mirrored last).same fun before => ?_
    cases before with
    | false => exact .pure rfl
    | true =>
      refine (isBranch_mirrored next).same fun after => ?_
      cases after with
      | false => exact .pure rfl
      | true => exact alignBranch_mirrored last
  · refine (isBranch_unseen last).bind fun before => ?_
    cases before with
    | false => exact .pure ()
    | true =>
      refine (isBranch_unseen next).bind fun after => ?_
      cases after with
      | false => exact .pure ()
      | true => exact alignBranch_unseen hmarked last

/-- Every one of the second actions builds in the copy what the first one in its place builds. -/
def FollowedAll (o : Offset) (acts acts' : List (Action Nat)) : Prop :=
  List.Forall₂ (Followed o o.Copies) acts acts'

theorem chain_followed {options options' : Options} (h : Allows o options options') (last : Nat)
    {items items' : List (Action Nat)} (hitems : FollowedAll o items items') :
    Followed o o.Copies (chain options last items) (chain options' (o.nodes + last) items') := by
  induction hitems generalizing last with
  | nil => exact .pure rfl
  | cons hitem _ ih =>
    refine hitem.step fun next => ?_
    exact (join_followed h last next).same fun _ => ih next

theorem suite_followed {options options' : Options} (h : Allows o options options')
    {items items' : List (Action Nat)} (hitems : FollowedAll o items items') :
    Followed o o.Copies (suite options items) (suite options' items') := by
  refine (newGroup_mirrored .suite .nothing [] none).followed.step fun g => ?_
  cases hitems with
  | nil =>
    refine Mirrored.followed ((extendTails_mirrored g [.nothing]).same fun _ => ?_)
    exact .pure rfl
  | cons hitem hrest =>
    refine hitem.step fun first => ?_
    refine (chain_followed h first hrest).step fun last => ?_
    refine Mirrored.followed ((moveHead_mirrored g first).same fun _ => ?_)
    exact (extendTails_mirrored g [.node last]).same fun _ => .pure rfl

theorem codeBox_followed (shape : Shape) (code : Piece) :
    Followed o o.Copies (codeBox shape code) (codeBox shape code) :=
  (newCodeBox_mirrored shape code code.text).followed

theorem function_followed (code : Piece) {body body' : Action Nat}
    (h : Followed o o.Copies body body') :
    Followed o o.Copies (function code body) (function code body') := by
  refine takeId_mirrored.followed.step fun _ => ?_
  refine (newCodeBox_mirrored .functionStart code _).followed.step fun start => ?_
  refine (newCodeBox_mirrored .functionInput code _).followed.step fun input => ?_
  refine h.step fun g => ?_
  refine (groupEnds_mirrored g).followed.step ?_
  rintro ⟨head, tails⟩
  refine (newCodeBox_mirrored .functionEnd code _).followed.step fun finish => ?_
  refine (connect_followed start (.node input) []).same fun _ => ?_
  refine (connect_followed input head []).same fun _ => ?_
  refine (Followed.forM (Item.shift o) tails fun t _ => ?_).same fun _ => ?_
  · exact connectItem_followed t (.node finish)
  · exact (newGroup_mirrored (.function (.node start) (.node input) head tails (.node finish))
      (.node start) [.node finish] (some code)).followed

theorem returning_followed (code : Piece) (hasValue : Except Fault Bool) :
    Followed o o.Copies (returning code hasValue) (returning code hasValue) := by
  refine takeId_mirrored.followed.step fun _ => ?_
  refine (newCodeBox_mirrored .returnEnd code _).followed.step fun finish => ?_
  refine (Mirrored.ofExcept hasValue).followed.same fun given => ?_
  cases given with
  | false =>
    exact (newGroup_mirrored (.returning .nothing (.node finish)) (.node finish) [.node finish]
      (some code)).followed
  | true =>
    refine (newCodeBox_mirrored .returned code _).followed.step fun output => ?_
    refine (connect_followed output (.node finish) []).same fun _ => ?_
    exact (newGroup_mirrored (.returning (.node output) (.node finish)) (.node output)
      [.node finish] (some code)).followed

theorem loopBack_followed (test : Nat) (tail : Item) :
    Followed o Eq (loopBack test tail) (loopBack (o.nodes + test) (tail.shift o)) := by
  cases tail with
  | nothing => exact .pure rfl
  | link l => exact .pure rfl
  | node i =>
    exact (setDirection_mirrored i _).followed.same fun _ => connect_followed i (.node test) []

theorem loopBody_followed (test : Nat) {body body' : Action Nat}
    (h : Followed o o.Copies body body') :
    Followed o Eq (loopBody test body) (loopBody (o.nodes + test) body') := by
  refine h.step fun g => ?_
  refine (groupEnds_mirrored g).followed.step ?_
  rintro ⟨head, tails⟩
  by_cases hhead : head = .nothing
  · subst hhead
    refine (newBox_mirrored .subroutine "no-op" none).followed.step fun idle => ?_
    refine (loopBack_followed test (.node idle)).same fun _ => Mirrored.followed ?_
    exact (connectAnswer_mirrored test .yes (.node idle) _).step fun _ => .pure rfl
  · simp only [ne_eq, shift_eq_nothing, hhead, not_false_eq_true, if_true]
    -- The body is built once more, and the second result is the one that counts.
    refine h.step fun g => ?_
    refine (groupEnds_mirrored g).followed.step ?_
    rintro ⟨head, tails⟩
    refine (connectAnswer_mirrored test .yes head _).followed.step fun _ => ?_
    exact .forM (Item.shift o) tails fun t _ => loopBack_followed test t

theorem loop_followed {options options' : Options} (hoptions : Allows o options options')
    (code : Piece) {body body' : Action Nat} (h : Followed o o.Copies body body') :
    Followed o o.Copies (loop options code body) (loop options' code body') := by
  refine takeId_mirrored.followed.step fun _ => ?_
  refine (newCodeDecision_mirrored .loop code _).followed.step fun t => ?_
  refine (newGroup_mirrored (.loop (.node t)) (.node t) [] (some code)).followed.step fun g => ?_
  refine (loopBody_followed t h).same fun _ => Mirrored.followed ?_
  refine (connectAnswer_mirrored t .no .nothing _).step fun out => ?_
  refine (extendTails_mirrored g [.node out]).same fun _ => ?_
  rw [hoptions.simplify]
  cases options.simplify with
  | false => exact .pure rfl
  | true => exact (simplify_mirrored g).same fun _ => .pure rfl

theorem branchArm_followed (g t : Nat) (answer : Answer) {suite suite' : Action Nat}
    (h : Followed o o.Copies suite suite') :
    Followed o Eq (branchArm g t answer suite)
      (branchArm (o.nodes + g) (o.nodes + t) answer suite') := by
  refine h.step fun s => ?_
  refine Mirrored.followed ((groupEnds_mirrored s).step ?_)
  rintro ⟨head, tails⟩
  by_cases hhead : head = .nothing
  · subst hhead
    refine (connectAnswer_mirrored t answer .nothing _).step fun out => ?_
    exact extendTails_mirrored g [.node out]
  · simp only [ne_eq, shift_eq_nothing, hhead, not_false_eq_true, if_true]
    refine (connectAnswer_mirrored t answer head _).step fun _ => ?_
    exact extendTails_mirrored g tails

theorem turnRight_mirrored (t : Nat) :
    Mirrored o Eq (turnRight t) (turnRight (o.nodes + t)) := by
  refine (isWithoutElse_mirrored (.node t)).same fun alone => ?_
  cases alone with
  | false => exact .pure rfl
  | true =>
    refine (yesOf_mirrored (.node t)).step fun yes => ?_
    cases yes with
    | link l => exact modifyLink_mirrored l fun _ _ hk => hk.addLabel (some "right")
    | nothing => exact .lacks .nothing "set_param"
    | node i => exact .lacks (.node i) "set_param"

theorem turnRight_unseen (hmarked : o.marked = false) (t : Nat) : Unseen o (turnRight t) := by
  refine (isWithoutElse_unseen (.node t)).bind fun alone => ?_
  cases alone with
  | false => exact .pure ()
  | true =>
    refine (yesOf_unseen (.node t)).bind fun yes => ?_
    cases yes with
    | link l => exact modifyLink_unseen l fun k k' hk => hk.addRight hmarked
    | nothing => exact .lacks .nothing "set_param"
    | node i => exact .lacks (.node i) "set_param"

theorem branch_followed {options options' : Options} (h : Allows o options options') (code : Piece)
    {body body' orelse orelse' : Action Nat} (hbody : Followed o o.Copies body body')
    (horelse : Followed o o.Copies orelse orelse') :
    Followed o o.Copies (branch options code body orelse) (branch options' code body' orelse') := by
  refine takeId_mirrored.followed.step fun _ => ?_
  refine (newCodeDecision_mirrored .branch code _).followed.step fun t => ?_
  refine (newGroup_mirrored (.branch (.node t)) (.node t) [] (some code)).followed.step fun g => ?_
  refine (branchArm_followed g t .yes hbody).same fun _ => ?_
  refine (branchArm_followed g t .no horelse).same fun _ => ?_
  have hturn : Followed o o.Copies
      (do
        if options.align then turnRight t
        return g)
      (do
        if options'.align then turnRight (o.nodes + t)
        return o.nodes + g) := by
    have hthen : ∀ (aligned : Bool) (act : Action Unit) (i : Nat),
        (if aligned then act >>= fun _ => pure i else pure i)
          = (if aligned then act else pure ()) >>= fun _ => pure i := by
      intro aligned act i
      cases aligned <;> rfl
    rw [hthen, hthen]
    exact (h.ifAligned (turnRight_mirrored t) (turnRight_unseen · t)).same fun _ => .pure rfl
  rw [h.simplify]
  cases options.simplify with
  | false => exact hturn
  | true => exact (simplify_mirrored g).followed.same fun _ => hturn

theorem caseTest_mirrored (subject code : Piece) :
    Mirrored o o.Copies (caseTest subject code) (caseTest subject code) := by
  refine (Mirrored.ofExcept (caseText subject code)).same fun text => ?_
  exact newDecision_mirrored .case text none

theorem case_followed (subject code : Piece) {body body' : Action Nat}
    (h : Followed o o.Copies body body') :
    Followed o o.Copies (case subject code body) (case subject code body') := by
  refine takeId_mirrored.followed.step fun _ =>
    (caseTest_mirrored subject code).followed.step fun t => ?_
  refine (newGroup_mirrored (.case (.node t)) (.node t) [] (some code)).followed.step fun g => ?_
  refine h.step fun s => ?_
  refine Mirrored.followed ((groupEnds_mirrored s).step ?_)
  rintro ⟨head, tails⟩
  have hout : Mirrored o o.Copies
      (do
        let out ← newBridge false (.node t) .nothing [some "no"]
        let _ ← connectAnswer t .no (.node out)
        setTails g (· ++ [.node out])
        return g)
      (do
        let out ← newBridge false (.node (o.nodes + t)) .nothing [some "no"]
        let _ ← connectAnswer (o.nodes + t) .no (.node out)
        setTails (o.nodes + g) (· ++ [.node out])
        return o.nodes + g) := by
    refine (newBridge_mirrored false t .nothing _).step fun out => ?_
    refine (connectAnswer_mirrored t .no (.node out) _).step fun _ => ?_
    exact (extendTails_mirrored g [.node out]).same fun _ => .pure rfl
  by_cases hhead : head = .nothing
  · subst hhead
    exact hout
  · simp only [ne_eq, shift_eq_nothing, hhead, not_false_eq_true, if_true]
    refine (connectAnswer_mirrored t .yes head _).step fun _ => ?_
    exact (extendTails_mirrored g tails).same fun _ => hout

theorem caseChain_followed (last : Nat) {items items' : List (Action Nat)}
    (h : FollowedAll o items items') :
    Followed o (fun a b => b = a.map (o.nodes + ·)) (caseChain last items)
      (caseChain (o.nodes + last) items') := by
  induction h generalizing last with
  | nil => exact .pure rfl
  | cons hitem _ ih =>
    refine hitem.step fun next => ?_
    refine (connect_followed last (.node next) []).same fun _ => (ih next).step fun built => ?_
    exact .pure rfl

theorem selection_followed (code : Piece) {cases : Except Fault (List (Action Nat))}
    (h : ∀ acts, cases = .ok acts → FollowedAll o acts acts) :
    Followed o o.Copies (selection code cases) (selection code cases) := by
  refine takeId_mirrored.followed.step fun _ => ?_
  cases (code.part? "subject").isNone with
  | true => exact (Mirrored.throw _).followed
  | false =>
    refine (addNode_mirrored ?_ ?_).followed.bind ?_
    · exact ⟨rfl, rfl, rfl, rfl, fun _ => rfl, rfl, rfl, rfl⟩
    · exact ⟨rfl, rfl, rfl, fun _ _ _ _ _ hf => by cases hf⟩
    rintro g _ rfl
    refine (newBridge_mirrored false g .nothing []).followed.step fun entry => ?_
    refine takeId_mirrored.followed.step fun _ => ?_
    refine (modifyNode_mirrored g ?_ fun n n' hn => ?_).followed.same fun _ => ?_
    · exact fun _ => .of_eq rfl rfl rfl rfl
    · exact ⟨hn.form, hn.name, hn.text, hn.links, hn.params, hn.direction, hn.absent, hn.mark⟩
    refine (setHead_mirrored g (.node entry)).followed.same fun _ => ?_
    cases cases with
    | error f => exact (Mirrored.throw f).followed
    | ok acts =>
      refine (caseChain_followed entry (h acts rfl)).step fun built => ?_
      have hcases : (built.map (o.nodes + ·)).map Item.node
          = (built.map Item.node).map (Item.shift o) := by
        rw [List.map_map, List.map_map]
        rfl
      rw [hcases, List.head?_map, List.getLast?_map]
      refine (setRole_mirrored g (.selection (built.map .node))).followed.same fun _ => ?_
      cases built.head? with
      | none => exact (Mirrored.throw _).followed
      | some first =>
        cases built.getLast? with
        | none => exact (Mirrored.throw _).followed
        | some last =>
          refine Mirrored.followed ((groupEnds_mirrored last).step ?_)
          rintro ⟨head, tails⟩
          refine (extendTails_mirrored g tails).same fun _ => ?_
          exact (setHead_mirrored g (.node first)).same fun _ => .pure rfl

theorem statement_followed (code : Piece) :
    Followed o o.Copies (statement code) (statement code) :=
  codeBox_followed .statement code

theorem ofValue_followed (code : Piece) (e : Expr) :
    Followed o o.Copies (ofValue code e) (ofValue code e) := by
  cases e with
  | yield value => exact (newCodeBox_mirrored .yielded code _).followed
  | call callee positional keywords => exact codeBox_followed .call code
  | lacking part e => exact ofValue_followed code e
  | _ => exact statement_followed code

theorem unlessMissing_followed (missing : List String) (code : Piece) (part : String)
    {act act' : Action Nat} (h : Followed o o.Copies act act') :
    Followed o o.Copies (unlessMissing missing code part act)
      (unlessMissing missing code part act') := by
  unfold unlessMissing
  split
  · exact (Mirrored.throw _).followed
  · exact h

mutual

theorem ofStmt_followed {options options' : Options} (h : Allows o options options') (code : Piece)
    (missing : List String) (s : Stmt) :
    Followed o o.Copies (ofStmt options code missing s) (ofStmt options' code missing s) := by
  cases s with
  | function isAsync line name params body decorators result =>
    cases isAsync with
    | true => exact statement_followed code
    | false =>
      rw [ofStmt, ofStmt]
      exact function_followed code (unlessMissing_followed missing code "body"
        (suite_followed h (ofStmts_followed h body)))
  | forEach isAsync target source body orelse =>
    cases isAsync with
    | true => exact statement_followed code
    | false =>
      rw [ofStmt, ofStmt]
      exact loop_followed h code (suite_followed h (ofStmts_followed h body))
  | whileTrue test body orelse =>
    rw [ofStmt, ofStmt]
    exact loop_followed h code (suite_followed h (ofStmts_followed h body))
  | branch test body orelse =>
    rw [ofStmt, ofStmt]
    exact branch_followed h code (suite_followed h (ofStmts_followed h body))
      (suite_followed h (ofStmts_followed h orelse))
  | giveBack value =>
    rw [ofStmt, ofStmt]
    exact returning_followed code _
  | select subject cases =>
    rw [ofStmt, ofStmt]
    refine selection_followed code fun acts hacts => ?_
    split at hacts
    · cases hacts
    · cases hacts
      exact ofCases_followed (.expr subject) cases
  | stop => exact codeBox_followed .jump code
  | next => exact codeBox_followed .jump code
  | expr value =>
    rw [ofStmt, ofStmt]
    split
    · exact statement_followed code
    · exact ofValue_followed code value
  | lacking part s => exact ofStmt_followed h code (part :: missing) s
  | _ => exact statement_followed code

theorem ofStmts_followed {options options' : Options} (h : Allows o options options')
    (ss : List Stmt) :
    FollowedAll o (ofStmts options ss) (ofStmts options' ss) := by
  cases ss with
  | nil => exact .nil
  | cons s rest =>
    rw [ofStmts, ofStmts]
    exact .cons (ofStmt_followed h (.stmt s) [] s) (ofStmts_followed h rest)

theorem ofCase_followed (subject code : Piece) (missing : List String) (c : Case) :
    Followed o o.Copies (ofCase subject code missing c) (ofCase subject code missing c) := by
  cases c with
  | mk pattern guard body =>
    rw [ofCase]
    exact case_followed subject code (unlessMissing_followed missing code "body"
      (suite_followed (.same o {}) (ofStmts_followed (.same o {}) body)))
  | lacking part c => exact ofCase_followed subject code (part :: missing) c

theorem ofCases_followed (subject : Piece) (cs : List Case) :
    FollowedAll o (ofCases subject cs) (ofCases subject cs) := by
  cases cs with
  | nil => exact .nil
  | cons c rest =>
    rw [ofCases]
    exact .cons (ofCase_followed subject (.case c) [] c) (ofCases_followed subject rest)

end

theorem ofPiece_followed {options options' : Options} (h : Allows o options options')
    (piece : Piece) :
    Followed o o.Copies (ofPiece options piece) (ofPiece options' piece) := by
  cases piece with
  | stmt s => exact ofStmt_followed h (.stmt s) [] s
  | expr e => exact ofValue_followed (.expr e) e
  | _ => exact statement_followed _

theorem ofPieces_followed {options options' : Options} (h : Allows o options options')
    (pieces : List Piece) :
    Followed o o.Copies (ofPieces options pieces) (ofPieces options' pieces) := by
  refine suite_followed h ?_
  exact List.forall₂_map_left_iff.2 (List.forall₂_map_right_iff.2
    (List.forall₂_same.2 fun piece _ => ofPiece_followed h piece))

theorem chartAround_mirrored (g : Nat) :
    Mirrored o o.Copies (do let (head, _) ← groupEnds g; newChart head)
      (do let (head, _) ← groupEnds (o.nodes + g); newChart head) := by
  refine (groupEnds_mirrored g).step ?_
  rintro ⟨head, tails⟩
  exact newGroup_mirrored .chart head [] none

theorem chartOf_followed {options options' : Options} (h : Allows o options options')
    (pieces : List Piece) :
    Followed o o.Copies (chartOf options pieces) (chartOf options' pieces) :=
  (ofPieces_followed h pieces).step fun g => (chartAround_mirrored g).followed

end CodeChart.Chart
