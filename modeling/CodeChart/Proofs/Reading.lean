import Mathlib.Data.Option.Basic
import CodeChart.Code.Parser.Statement
import CodeChart.Proofs.Writing

/-! What the grammar reads. A property of the values that a reader gives follows from the readers it
is made of; all expressions and patterns of the grammar are writable. -/
namespace CodeChart.Code

variable {α β : Type} {P : α → Prop} {Q : β → Prop}

/-- Every value that the reader gives has the property. -/
def Gives (P : α → Prop) (r : Reader α) : Prop := ∀ ts a rest, r ts = some (a, rest) → P a

theorem forall_mem_some {a : α} (h : P a) : ∀ b ∈ some a, P b := by
  rintro _ ⟨⟩
  exact h

theorem forall_mem_snoc {as : List α} (has : ∀ a ∈ as, P a) {a : α} (ha : P a) :
    ∀ b ∈ as ++ [a], P b :=
  List.forall_mem_append.2 ⟨has, List.forall_mem_singleton.2 ha⟩

namespace Gives

theorem mono {P' : α → Prop} {r : Reader α} (h : Gives P r) (hp : ∀ a, P a → P' a) : Gives P' r :=
  fun ts a rest hrun => hp a (h ts a rest hrun)

theorem and {P' : α → Prop} {r : Reader α} (h : Gives P r) (h' : Gives P' r) :
    Gives (fun a => P a ∧ P' a) r :=
  fun ts a rest hrun => ⟨h ts a rest hrun, h' ts a rest hrun⟩

theorem pure {a : α} (h : P a) : Gives P (Pure.pure a : Reader α) := by
  rintro ts _ _ ⟨⟩
  exact h

theorem failure : Gives P (Alternative.failure : Reader α) := by
  rintro ts a rest ⟨⟩

theorem bind {r : Reader β} {k : β → Reader α} (h : Gives Q r) (hk : ∀ b, Q b → Gives P (k b)) :
    Gives P (r >>= k) := by
  intro ts a rest hrun
  obtain ⟨⟨b, mid⟩, hb, ha⟩ := Option.bind_eq_some_iff.1 hrun
  exact hk b (h ts b mid hb) mid a rest ha

/-- A step whose value does not matter. -/
theorem after {r : Reader β} {k : β → Reader α} (hk : ∀ b, Gives P (k b)) : Gives P (r >>= k) :=
  bind (Q := fun _ => True) (fun _ _ _ _ => trivial) fun b _ => hk b

theorem map {r : Reader β} {f : β → α} (h : Gives Q r) (hf : ∀ b, Q b → P (f b)) :
    Gives P (f <$> r) := by
  rw [← bind_pure_comp]
  exact h.bind fun b hb => pure (hf b hb)

theorem ite {c : Prop} [Decidable c] {r s : Reader α} (hr : Gives P r) (hs : Gives P s) :
    Gives P (if c then r else s) := by
  split
  · exact hr
  · exact hs

theorem orElse {r s : Reader α} (hr : Gives P r) (hs : Gives P s) : Gives P (r <|> s) := by
  intro ts a rest hrun
  change (r ts <|> s ts) = some (a, rest) at hrun
  cases hr' : r ts with
  | none =>
    rw [hr'] at hrun
    exact hs ts a rest hrun
  | some p =>
    rw [hr'] at hrun
    cases hrun
    exact hr ts a rest hr'

theorem atMost (ts : List Token) {r : Reader α} (h : Gives P r) :
    Gives (fun as => ∀ a ∈ as, P a) (Reader.atMost ts r) := by
  induction ts with
  | nil => exact pure (by simp)
  | cons t ts ih =>
    refine orElse (h.bind fun a ha => ih.bind fun as has => pure ?_) (pure (by simp))
    exact List.forall_mem_cons.2 ⟨ha, has⟩

theorem many {r : Reader α} (h : Gives P r) : Gives (fun as => ∀ a ∈ as, P a) (Reader.many r) :=
  after fun ts => atMost ts h

theorem many1 {r : Reader α} (h : Gives P r) :
    Gives (fun as => as ≠ [] ∧ ∀ a ∈ as, P a) (Reader.many1 r) :=
  h.bind fun a ha => h.many.bind fun as has =>
    pure ⟨List.cons_ne_nil a as, List.forall_mem_cons.2 ⟨ha, has⟩⟩

theorem maybe {r : Reader α} (h : Gives P r) :
    Gives (fun a? => ∀ a ∈ a?, P a) (Reader.maybe r) := by
  exact orElse (h.map fun a ha => forall_mem_some ha) (pure (by simp))

theorem commaList {r : Reader α} (h : Gives P r) :
    Gives (fun as => ∀ a ∈ as, P a) (Reader.commaList r) := by
  have hmore : Gives P (do Reader.op ","; r) := after fun _ => h
  exact h.bind fun a ha => hmore.many.bind fun as has => pure (List.forall_mem_cons.2 ⟨ha, has⟩)

theorem commaListWithTail {r : Reader α} (h : Gives P r) :
    Gives (fun p => ∀ a ∈ p.1, P a) (Reader.commaListWithTail r) :=
  h.commaList.bind fun _ has => after fun _ => pure has

theorem chain (ts : List Token) {step : α → Reader α} (hs : ∀ a, P a → Gives P (step a)) {a : α}
    (ha : P a) : Gives P (Reader.chain ts step a) := by
  induction ts generalizing a with
  | nil => exact pure ha
  | cons t ts ih => exact orElse ((hs a ha).bind fun b hb => ih hb) (pure ha)

theorem extend {step : α → Reader α} (hs : ∀ a, P a → Gives P (step a)) {a : α} (ha : P a) :
    Gives P (Reader.extend step a) :=
  after fun ts => chain ts hs ha

end Gives

/-- The property holds of the value, if there is one. -/
def Finds (P : α → Prop) (x : Option α) : Prop := ∀ a, x = some a → P a

namespace Finds

theorem some {a : α} (h : P a) : Finds P (Option.some a) := by
  rintro _ ⟨⟩
  exact h

theorem none : Finds P Option.none := by
  rintro _ ⟨⟩

theorem bind {x : Option β} {k : β → Option α} (h : Finds Q x) (hk : ∀ b, Q b → Finds P (k b)) :
    Finds P (x >>= k) := by
  intro a ha
  obtain ⟨b, hb, ha⟩ := Option.bind_eq_some_iff.1 ha
  exact hk b (h b hb) a ha

theorem after {x : Option β} {k : β → Option α} (hk : ∀ b, Finds P (k b)) : Finds P (x >>= k) :=
  bind (Q := fun _ => True) (fun _ _ => trivial) fun b _ => hk b

theorem map {x : Option β} {f : β → α} (h : Finds Q x) (hf : ∀ b, Q b → P (f b)) :
    Finds P (x.map f) := by
  intro a ha
  obtain ⟨b, hb, rfl⟩ := Option.map_eq_some_iff.1 ha
  exact hf b (h b hb)

theorem ite {c : Prop} [Decidable c] {x y : Option α} (hx : Finds P x) (hy : Finds P y) :
    Finds P (if c then x else y) := by
  split
  · exact hx
  · exact hy

theorem mapM {f : β → Option α} {bs : List β} (h : ∀ b ∈ bs, Finds P (f b)) :
    Finds (fun as => ∀ a ∈ as, P a) (bs.mapM f) := by
  induction bs with
  | nil => exact some (by simp)
  | cons b bs ih =>
    obtain ⟨hb, hbs⟩ := List.forall_mem_cons.1 h
    rw [List.mapM_cons]
    exact hb.bind fun a ha => (ih hbs).bind fun as has => some (List.forall_mem_cons.2 ⟨ha, has⟩)

end Finds

namespace Grammar

open Reader

variable {g : Grammar} (hg : ∀ goal, Gives Expr.Writable (g goal))

theorem starOr_gives {p star : Reader Expr} (hp : Gives Expr.Writable p)
    (hs : Gives Expr.Writable star) :
    Gives Expr.Writable (starOr p star) := by
  refine .after fun b => ?_
  split
  · exact .after fun _ => hs.map fun _ => .starred
  · exact hp

include hg

theorem target_gives : Gives Expr.Writable (target g) := by
  refine (starOr_gives (hg .bitOr) (hg .bitOr)).bind fun e he => ?_
  split
  · exact .pure he
  · exact .failure

theorem targets_gives : Gives Expr.Writable (targets g) := by
  refine (target_gives hg).commaListWithTail.bind fun p hp => ?_
  split
  · exact .pure (hp _ List.mem_cons_self)
  · exact .pure (.tuple hp)

omit hg in
theorem hint_gives (hinted : Bool) {r : Reader Expr} (h : Gives Expr.Writable r) :
    Gives (fun e? => ∀ e ∈ e?, e.Writable) (hint hinted r) := by
  refine .after fun b => ?_
  split
  · exact .after fun _ => h.map fun e he => forall_mem_some he
  · exact .pure (by simp)

theorem paramEntry_gives (hinted : Bool) {p : ParamsSoFar} (hp : p.result.Writable) :
    Gives (fun p => p.result.Writable) (paramEntry g hinted p) := by
  obtain ⟨hpositional, hordinary, hrest, hkeyword, hkeywordRest⟩ := hp
  unfold paramEntry
  dsimp only
  split
  · exact .failure
  · refine .after fun t => ?_
    split
    · split
      · exact .failure
      · exact .pure ⟨hordinary, by simp, hrest, hkeyword, hkeywordRest⟩
    · split
      · exact .failure
      · refine .after fun b => ?_
        split
        · refine .after fun t => ?_
          split
          · exact .pure ⟨hpositional, hordinary, hrest, hkeyword, hkeywordRest⟩
          · exact .failure
        · refine .after fun id => (hint_gives hinted (starOr_gives (hg _) (hg _))).bind fun h hh =>
            .pure ?_
          exact ⟨hpositional, hordinary, forall_mem_some ⟨hh, by simp⟩, hkeyword, hkeywordRest⟩
    · refine .after fun id => (hint_gives hinted (hg _)).bind fun h hh => .pure ?_
      exact ⟨hpositional, hordinary, hrest, hkeyword, forall_mem_some ⟨hh, by simp⟩⟩
    · refine (hint_gives hinted (hg _)).bind fun h hh => ?_
      have hdefault : Gives Expr.Writable (do op "="; g .expression) := .after fun _ => hg _
      refine hdefault.maybe.bind fun default hdefault => ?_
      split
      · exact .pure ⟨hpositional, hordinary, hrest, forall_mem_snoc hkeyword ⟨hh, hdefault⟩,
          hkeywordRest⟩
      · split
        · exact .failure
        · exact .pure ⟨hpositional, forall_mem_snoc hordinary ⟨hh, hdefault⟩, hrest,
            hkeyword, hkeywordRest⟩
    · exact .failure

theorem params_gives (hinted : Bool) (closing : String) :
    Gives Params.Writable (params g hinted closing) := by
  have hempty : (ParamsSoFar.result {}).Writable := by simp [ParamsSoFar.result, Params.Writable]
  refine .after fun b => ?_
  split
  · exact .pure hempty
  · refine (paramEntry_gives hg hinted hempty).bind fun p hp => ?_
    refine (Gives.extend (fun q hq => .after fun _ => paramEntry_gives hg hinted hq) hp).bind
      fun q hq => ?_
    exact .after fun _ => .pure hq

theorem clause_gives : Gives Clause.Writable (clause g) := by
  have hcondition : Gives Expr.Writable (do let _ ← word "if"; g .disjunction) :=
    .after fun _ => hg _
  refine .after fun _ => .after fun _ => (targets_gives hg).bind fun t ht => .after fun _ => ?_
  refine (hg _).bind fun source hsource => hcondition.many.bind fun cs hcs => ?_
  exact .pure ⟨ht, hsource, hcs⟩

theorem clauses_gives : Gives (fun cs => ∀ c ∈ cs, c.Writable) (clauses g) :=
  (clause_gives hg).many1.mono fun _ h => h.2

theorem starNamed_gives : Gives Expr.Writable (starNamed g) := starOr_gives (hg _) (hg _)

theorem moreItems_gives {first : Expr} (hfirst : first.Writable) :
    Gives (fun es => ∀ e ∈ es, e.Writable) (moreItems g first) := by
  have hmore : Gives Expr.Writable (do op ","; starNamed g) := .after fun _ => starNamed_gives hg
  refine hmore.many.bind fun es hes => .after fun _ => .pure ?_
  exact List.forall_mem_cons.2 ⟨hfirst, hes⟩

theorem parenthesis_gives : Gives Expr.Writable (parenthesis g) := by
  refine .after fun b => ?_
  split
  · exact .after fun _ => .pure (.tuple (by simp))
  · refine .after fun b => ?_
    split
    · exact (hg .yield).bind fun e he => .after fun _ => .pure he
    · refine (starNamed_gives hg).bind fun e he => .after fun b => ?_
      split
      · exact (moreItems_gives hg he).bind fun es hes => .after fun _ => .pure (.tuple hes)
      · split
        · exact .failure
        · refine .after fun b => ?_
          split
          · exact (clauses_gives hg).bind fun cs hcs => .after fun _ => .pure (.generator hcs he)
          · exact .after fun _ => .pure he

theorem bracket_gives : Gives Expr.Writable (bracket g) := by
  refine .after fun b => ?_
  split
  · exact .after fun _ => .pure (.list (by simp))
  · refine (starNamed_gives hg).bind fun e he => .after fun b => ?_
    split
    · exact (clauses_gives hg).bind fun cs hcs => .after fun _ => .pure (.listOf hcs he)
    · exact (moreItems_gives hg he).bind fun es hes => .after fun _ => .pure (.list hes)

theorem dictItem_gives : Gives DictItem.Writable (dictItem g) := by
  refine .after fun b => ?_
  split
  · exact .after fun _ => (hg _).map fun v hv => ⟨by simp, hv⟩
  · refine (hg _).bind fun k hk => .after fun _ => (hg _).map fun v hv => ?_
    exact ⟨forall_mem_some hk, hv⟩

theorem brace_gives : Gives Expr.Writable (brace g) := by
  refine .after fun b => ?_
  split
  · exact .after fun _ => .pure (.dict (by simp))
  · refine .after fun b => ?_
    split
    · exact (dictItem_gives hg).commaListWithTail.bind fun is his =>
        .after fun _ => .pure (.dict his)
    · refine .after fun _ => .after fun _ => (starNamed_gives hg).bind fun e he =>
        .after fun b => ?_
      refine .ite ?_ ?_
      · refine .after fun _ => (hg _).bind fun v hv => .after fun b => ?_
        split
        · exact (clauses_gives hg).bind fun cs hcs => .after fun _ => .pure (.dictOf hcs he hv)
        · have hmore : Gives DictItem.Writable (do op ","; dictItem g) :=
            .after fun _ => dictItem_gives hg
          refine hmore.many.bind fun is his => .after fun _ => .after fun _ => .pure (.dict ?_)
          exact List.forall_mem_cons.2 ⟨⟨forall_mem_some he, hv⟩, his⟩
      · refine .after fun b => ?_
        split
        · exact (clauses_gives hg).bind fun cs hcs => .after fun _ => .pure (.setOf hcs he)
        · exact (moreItems_gives hg he).bind fun es hes => .after fun _ => .pure (.set hes)

/-- What a segment holds can be written, in a formatted string and by itself. -/
def SegmentWritable : Segment → Prop
  | .literal _ => True
  | .field e => e.Writable ∧ e.PartWritable

omit hg in
/-- What holds of all texts and of the fields of some segments holds of the segments joined. -/
theorem mergeSegments_induction {P : Expr → Prop} (marked : Bool)
    (htext : ∀ points, P (.constant (.text marked points))) {ss : List Segment}
    (hfield : ∀ e, .field e ∈ ss → P e) : ∀ e ∈ mergeSegments marked ss, P e := by
  have hflush : ∀ (points : Text.CodePoints) (es : List Expr), (∀ e ∈ es, P e) →
      ∀ e ∈ if points.isEmpty then es else .constant (.text marked points) :: es, P e := by
    intro points es hes
    split
    · exact hes
    · exact List.forall_mem_cons.2 ⟨htext points, hes⟩
  refine hflush _ _ (List.foldrRecOn
    (motive := fun p : Text.CodePoints × List Expr => ∀ e ∈ p.2, P e) ss _ (by simp)
      fun p hp s hs => ?_)
  cases s with
  | literal more => exact hp
  | field e => exact List.forall_mem_cons.2 ⟨hfield e hs, hflush _ _ hp⟩

omit hg in
theorem mergeSegments_writable (marked : Bool) {ss : List Segment}
    (h : ∀ s ∈ ss, SegmentWritable s) :
    ∀ e ∈ mergeSegments marked ss, e.Writable ∧ e.PartWritable :=
  mergeSegments_induction marked (fun points => ⟨.constant _, .text marked points⟩) fun _ he =>
    h _ he

omit hg in
theorem segments_finds {expression : List Char → Option Expr}
    (he : ∀ cs, Finds Expr.Writable (expression cs)) (l : Literal) (n depth : Nat)
    (cs : List Char) :
    Finds (fun p => ∀ s ∈ p.1, SegmentWritable s) (segments expression l n depth cs) := by
  induction n generalizing depth cs with
  | zero => exact .none
  | succ n ih =>
    rw [segments]
    refine .after fun s => .after fun points => .ite ?_ ?_
    · exact (ih _ _).bind fun p hp => .some (List.forall_mem_cons.2 ⟨trivial, hp⟩)
    · split
      · refine .after fun _ => .after fun p => .after fun _ => (he _).bind fun value hvalue => ?_
        have hfield : ∀ {repeated more : List Segment} {conversion : Option Char}
            {format : Option Expr},
            (∀ s ∈ repeated, SegmentWritable s) → (∀ e ∈ format, e.PartWritable) →
            (∀ s ∈ more, SegmentWritable s) →
            ∀ s ∈ [.literal points] ++ repeated ++ [.field (.field value conversion format)]
              ++ more,
              SegmentWritable s := by
          intro repeated more conversion format hrepeated hformat hmore
          have hof : SegmentWritable (.field (.field value conversion format)) :=
            ⟨.field hvalue hformat, .field hvalue hformat⟩
          simp only [List.forall_mem_append, List.forall_mem_singleton]
          exact ⟨⟨⟨trivial, hrepeated⟩, hof⟩, hmore⟩
        split
        next repeated rest _ =>
        dsimp only
        have hformat : ∀ (inner : List Segment × List Char), (∀ s ∈ inner.1, SegmentWritable s) →
            ∀ e ∈ some (Expr.joined (mergeSegments l.marked inner.1)), e.PartWritable :=
          fun inner hinner =>
            forall_mem_some (.joined fun e he => (mergeSegments_writable _ hinner e he).2)
        split
        on_goal 1 => refine .ite (.after fun conversion => ?_) (.after fun conversion => ?_)
        on_goal 3 => refine .after fun conversion => ?_
        on_goal 4 => refine .after fun conversion => ?_
        all_goals
          split
          · refine (ih _ _).bind fun inner hinner =>
              Finds.bind (.some (hformat inner hinner) : Finds (fun f => ∀ e ∈ f.1, e.PartWritable)
                _) fun format hformat => ?_
            split
            · exact (ih _ _).bind fun more hmore =>
                .some (hfield (by cases repeated <;> simp [SegmentWritable]) hformat hmore)
            · exact .none
          · refine Finds.bind (.some (by simp) : Finds (fun f => ∀ e ∈ f.1, e.PartWritable) _)
              fun format hformat => ?_
            split
            · exact (ih _ _).bind fun more hmore =>
                .some (hfield (by cases repeated <;> simp [SegmentWritable]) hformat hmore)
            · exact .none
      · exact .ite .none (.some (by simp [SegmentWritable]))

omit hg in
theorem segments?_finds {expression : List Char → Option Expr}
    (he : ∀ cs, Finds Expr.Writable (expression cs)) (l : Literal) :
    Finds (fun ss => ∀ s ∈ ss, SegmentWritable s) (l.segments? expression) := by
  refine .ite ((segments_finds he l _ _ _).map fun p hp => hp) ?_
  exact Finds.map (Q := fun _ => True) (fun _ _ => trivial) fun points _ => by
    simp [SegmentWritable]

omit hg in
theorem joinLiterals_finds {expression : List Char → Option Expr}
    (he : ∀ cs, Finds Expr.Writable (expression cs)) (first : Literal) (rest : List Literal) :
    Finds Expr.Writable (joinLiterals expression first rest) := by
  refine .after fun _ => .ite (.after fun parts => .some (.constant _)) ?_
  refine (Finds.mapM fun l _ => segments?_finds he l).bind fun parts hparts => ?_
  have hmerged := mergeSegments_writable first.marked fun s hs => by
    obtain ⟨part, hpart, hs⟩ := List.mem_flatten.1 hs
    exact hparts part hpart s hs
  refine .ite (.some (.joined fun e he => (hmerged e he).2)) ?_
  split
  next e heq => exact .some (hmerged e (by simp [heq])).1
  next => exact .some (.constant _)

theorem fieldValue_finds (code : List Char) : Finds Expr.Writable (fieldValue g code) := by
  refine .after fun ts => ?_
  refine Finds.bind (Q := fun p => p.1.Writable) (fun p hp => hg _ ts p.1 p.2 hp) fun p hp => ?_
  exact .some hp

theorem literals_gives : Gives Expr.Writable (literals g) := by
  refine .after fun first => .after fun rest => ?_
  split
  next e he => exact .pure (joinLiterals_finds (fieldValue_finds hg) first rest e he)
  next => exact .failure

theorem atom_gives : Gives Expr.Writable (atom g) := by
  refine .after fun t => ?_
  split
  · exact literals_gives hg
  · refine .after fun t => ?_
    split
    · exact .pure (.name _)
    · exact .pure (.constant _)
    · exact .pure (.constant _)
    · exact .pure (.constant _)
    · exact .pure (.constant _)
    · exact .pure (.constant _)
    · exact parenthesis_gives hg
    · exact bracket_gives hg
    · exact brace_gives hg
    · exact .failure

def ArgsSoFar.Writable (a : ArgsSoFar) : Prop :=
  (∀ e ∈ a.args, e.Writable) ∧ ∀ k ∈ a.keywords, k.Writable

omit hg in
theorem argsSoFar_writable : ArgsSoFar.Writable {} := ⟨by simp, by simp⟩

theorem argEntry_gives {a : ArgsSoFar} (ha : a.Writable) :
    Gives ArgsSoFar.Writable (argEntry g a) := by
  refine .after fun b => ?_
  split
  · refine .after fun _ => .ite .failure ((hg _).bind fun e he => .pure ?_)
    exact ⟨forall_mem_snoc ha.1 (.starred he), ha.2⟩
  · refine .after fun b => ?_
    split
    · exact .after fun _ => (hg _).bind fun e he => .pure ⟨ha.1, forall_mem_snoc ha.2 he⟩
    · refine .after fun t => .after fun u => ?_
      split
      · exact .after fun _ => .after fun _ => (hg _).bind fun e he =>
          .pure ⟨ha.1, forall_mem_snoc ha.2 he⟩
      · exact .ite .failure ((hg _).bind fun e he => .pure ⟨forall_mem_snoc ha.1 he, ha.2⟩)

theorem moreArgs_gives {a : ArgsSoFar} (ha : a.Writable) :
    Gives (fun p => (∀ e ∈ p.1, e.Writable) ∧ ∀ k ∈ p.2, k.Writable) (moreArgs g a) := by
  refine (Gives.extend (fun a ha => .after fun _ => argEntry_gives hg ha) ha).bind fun all hall =>
    ?_
  exact .after fun _ => .pure hall

theorem arguments_gives :
    Gives (fun p => (∀ e ∈ p.1, e.Writable) ∧ ∀ k ∈ p.2, k.Writable) (arguments g) := by
  refine .after fun b => .ite (.pure ⟨by simp, by simp⟩) ?_
  exact (argEntry_gives hg argsSoFar_writable).bind fun a ha => moreArgs_gives hg ha

theorem callTail_gives {callee : Expr} (h : callee.Writable) :
    Gives Expr.Writable (callTail g callee) := by
  refine .after fun b => .ite (.after fun _ => .pure (.call h (by simp) (by simp))) ?_
  refine (argEntry_gives hg argsSoFar_writable).bind fun a ha => ?_
  split
  next e he =>
    refine .after fun b => .ite ?_ ?_
    · refine (clauses_gives hg).bind fun cs hcs => .after fun _ => .pure (.call h ?_ (by simp))
      exact List.forall_mem_singleton.2 (.generator hcs (ha.1 e (by simp [he])))
    · exact (moreArgs_gives hg ha).bind fun p hp => .after fun _ => .pure (.call h hp.1 hp.2)
  next => exact (moreArgs_gives hg ha).bind fun p hp => .after fun _ => .pure (.call h hp.1 hp.2)

theorem sliceTail_gives {lower : Option Expr} (h : ∀ e ∈ lower, e.Writable) :
    Gives Expr.Writable (sliceTail g lower) := by
  refine .after fun _ => (hg _).maybe.bind fun upper hupper => .after fun b => .ite ?_ ?_
  · exact .after fun _ => (hg _).maybe.bind fun step hstep => .pure (.slice h hupper hstep)
  · exact .pure (.slice h hupper (by simp))

theorem sliceItem_gives : Gives Expr.Writable (sliceItem g) := by
  refine .after fun b => .ite (.after fun _ => (hg _).map fun _ => .starred) ?_
  refine .after fun b => .ite (sliceTail_gives hg (by simp)) ?_
  refine .after fun t => .after fun u => ?_
  split
  · exact hg _
  · refine (hg _).bind fun e he => .after fun b =>
      .ite (sliceTail_gives hg (forall_mem_some he)) (.pure he)

theorem slices_gives : Gives Expr.Writable (slices g) := by
  refine (sliceItem_gives hg).commaListWithTail.bind fun p hp => ?_
  split
  next e =>
    refine .pure ?_
    split
    · exact .tuple hp
    · exact hp e List.mem_cons_self
  next => exact .pure (.tuple hp)

theorem trailer_gives {e : Expr} (h : e.Writable) : Gives Expr.Writable (trailer g e) := by
  refine .after fun t => ?_
  split
  · exact Gives.map (Q := fun _ => True) (fun _ _ _ _ => trivial) fun field _ => .member h field
  · exact callTail_gives hg h
  · exact (slices_gives hg).bind fun k hk => .after fun _ => .pure (.index h hk)
  · exact .failure

theorem primary_gives : Gives Expr.Writable (primary g) :=
  (atom_gives hg).bind fun _ he => .extend (fun _ => trailer_gives hg) he

theorem awaited_gives : Gives Expr.Writable (awaited g) :=
  .after fun _ => .ite (.after fun _ => (primary_gives hg).map fun _ => .await) (primary_gives hg)

theorem power_gives : Gives Expr.Writable (power g) := by
  refine (awaited_gives hg).bind fun e he => .after fun b => .ite ?_ (.pure he)
  exact .after fun _ => (hg _).map fun _ => .binary he _

theorem factor_gives : Gives Expr.Writable (factor g) := by
  refine .after fun t => ?_
  split
  · exact .after fun _ => (hg _).map fun _ => .unary _
  · exact .after fun _ => (hg _).map fun _ => .unary _
  · exact .after fun _ => (hg _).map fun _ => .unary _
  · exact power_gives hg

omit hg in
theorem leftGrouped_gives (operators : List (String × BinOp)) {p : Reader Expr}
    (hp : Gives Expr.Writable p) :
    Gives Expr.Writable (leftGrouped operators p) := by
  refine hp.bind fun e he => .extend (fun left hleft => .after fun t => ?_) he
  split
  · split
    · exact hp.map fun _ => .binary hleft _
    · exact .failure
  · exact .failure

theorem bitOr_gives : Gives Expr.Writable (bitOr g) := by
  repeat' apply leftGrouped_gives
  exact factor_gives hg

theorem comparison_gives : Gives Expr.Writable (comparison g) := by
  have hcomparison : Gives Comparison.Writable (do
      let o ← compareOp
      Comparison.mk o <$> bitOr g) := .after fun o => (bitOr_gives hg).map fun _ he => he
  refine (bitOr_gives hg).bind fun left hleft => hcomparison.many.bind fun rest hrest => .pure ?_
  split
  · exact hleft
  · exact .compare hleft hrest

theorem inversion_gives : Gives Expr.Writable (inversion g) := by
  refine .after fun b => .ite ?_ (comparison_gives hg)
  exact .after fun _ => (hg _).map fun _ => .unary _

omit hg in
theorem truthChain_gives (id : String) (o : BoolOp) {p : Reader Expr} (hp : Gives Expr.Writable p) :
    Gives Expr.Writable (truthChain id o p) := by
  have hmore : Gives Expr.Writable (do let _ ← word id; p) := .after fun _ => hp
  refine hp.bind fun first hfirst => hmore.many.bind fun rest hrest => .pure ?_
  split
  · exact hfirst
  · exact .boolean o (List.forall_mem_cons.2 ⟨hfirst, hrest⟩)

theorem disjunction_gives : Gives Expr.Writable (disjunction g) :=
  truthChain_gives _ _ (truthChain_gives _ _ (inversion_gives hg))

theorem expression_gives : Gives Expr.Writable (expression g) := by
  refine .after fun b => .ite ?_ ?_
  · refine .after fun _ => (params_gives hg _ _).bind fun ps hps => .after fun _ => ?_
    exact (hg _).map fun _ => .function hps
  · refine (disjunction_gives hg).bind fun e he => .after fun b => .ite ?_ (.pure he)
    refine .after fun _ => (disjunction_gives hg).bind fun test htest => .after fun _ => ?_
    exact (hg _).map fun _ => .choice htest he

theorem named_gives : Gives Expr.Writable (named g) := by
  refine .after fun t => .after fun u => ?_
  split
  · exact .after fun _ => .after fun _ => (hg _).map fun _ => .assign (.name _)
  · exact expression_gives hg

theorem starExpressions_gives : Gives Expr.Writable (starExpressions g) := by
  refine (starOr_gives (expression_gives hg) (bitOr_gives hg)).commaListWithTail.bind fun p hp => ?_
  split
  · exact .pure (hp _ List.mem_cons_self)
  · exact .pure (.tuple hp)

theorem yieldExpr_gives : Gives Expr.Writable (yieldExpr g) := by
  refine .after fun _ => .after fun b => .ite ?_ ?_
  · exact .after fun _ => (hg _).map fun _ => .yieldFrom
  · exact (starExpressions_gives hg).maybe.map fun _ => .yield

theorem rules_gives (goal : Goal) : Gives Expr.Writable (rules g goal) := by
  cases goal with
  | expression => exact expression_gives hg
  | named => exact named_gives hg
  | disjunction => exact disjunction_gives hg
  | inversion => exact inversion_gives hg
  | bitOr => exact bitOr_gives hg
  | factor => exact factor_gives hg
  | starExpressions => exact starExpressions_gives hg
  | yield => exact yieldExpr_gives hg

end Grammar

theorem readExpr_gives (depth : Nat) (goal : Goal) :
    Gives Expr.Writable (fun ts => readExpr depth goal ts) := by
  induction depth generalizing goal with
  | zero => exact .failure
  | succ depth ih => exact Grammar.rules_gives ih goal

namespace Grammar

open Reader

theorem dottedValue_gives : Gives Expr.Writable dottedValue := by
  refine .after fun id => .extend (fun e he => .after fun _ => ?_) (.name id)
  exact Gives.map (Q := fun _ => True) (fun _ _ _ _ => trivial) fun field _ => .member he field

theorem signedNumber_gives : Gives (fun p => p.2.Writable) signedNumber := by
  refine .after fun b => .ite ?_ ?_
  · exact .after fun _ => .after fun c => .pure (.unary _ (.constant c))
  · exact .after fun c => .pure (.constant c)

theorem numberValue_gives : Gives Expr.Writable numberValue := by
  refine signedNumber_gives.bind fun p hp => ?_
  have hjoin : ∀ o : BinOp, Gives Expr.Writable (do
      if isImaginary p.1 then failure
      let im ← numberConstant
      if isImaginary im then pure (.binary p.2 o (.constant im)) else failure) :=
    fun o => .ite .failure (.after fun im => .ite (.pure (.binary hp o (.constant im))) .failure)
  refine .after fun b => .ite (.after fun _ => hjoin .add) ?_
  exact .after fun b => .ite (.after fun _ => hjoin .sub) (.pure hp)

variable {g : Grammar} (hg : ∀ goal, Gives Expr.Writable (g goal)) {p : PatternReader}
  (hp : Gives Pattern.Writable p)

section
include hg

theorem literalValue_gives : Gives Expr.Writable (literalValue g) := by
  refine .after fun t => ?_
  split
  · exact numberValue_gives
  · exact numberValue_gives
  · exact literals_gives hg
  · exact .failure

theorem mappingKey_gives : Gives Expr.Writable (mappingKey g) := by
  refine .after fun t => ?_
  split
  · refine dottedValue_gives.bind fun e he => ?_
    split
    · exact .pure he
    · exact .failure
  · exact Gives.map (Q := fun _ => True) (fun _ _ _ _ => trivial) fun c _ => .constant c
  · exact literalValue_gives hg

end

section
include hp

theorem maybeStarPattern_gives : Gives Pattern.Writable (maybeStarPattern p) :=
  .after fun _ => .ite (.after fun _ => .after fun _ => .pure (.star _)) hp

def ClassArgs.Writable (a : ClassArgs) : Prop :=
  (∀ p ∈ a.positional, p.Writable) ∧ ∀ p ∈ a.named, p.Writable

theorem classArg_gives {a : ClassArgs} (ha : a.Writable) :
    Gives ClassArgs.Writable (classArg p a) := by
  refine .after fun t => .after fun u => ?_
  split
  · exact .after fun _ => .after fun _ => hp.bind fun v hv => .pure ⟨ha.1, forall_mem_snoc ha.2 hv⟩
  · exact .ite .failure (hp.bind fun v hv => .pure ⟨forall_mem_snoc ha.1 hv, ha.2⟩)

theorem classTail_gives {callee : Expr} (h : callee.Writable) :
    Gives Pattern.Writable (classTail p callee) := by
  refine .after fun b => .ite (.after fun _ => .pure (.ofClass h (by simp) _ (by simp))) ?_
  refine (classArg_gives hp ⟨by simp, by simp⟩).bind fun a ha => ?_
  refine (Gives.extend (fun a ha => .after fun _ => classArg_gives hp ha) ha).bind fun all hall =>
    ?_
  exact .after fun _ => .after fun _ => .pure (.ofClass h hall.1 _ hall.2)

omit hp in
theorem row_gives {row : List Pattern × Bool} (h : ∀ p ∈ row.1, p.Writable) :
    Gives Pattern.Writable (match row.1, row.2 with
      | [.star _], false => failure
      | [item], false => pure item
      | items, _ => pure (.sequence items)) := by
  split
  next => exact .failure
  next item _ heq _ => exact .pure (h item (by simp [heq]))
  next => exact .pure (.sequence h)

theorem patterns_gives : Gives Pattern.Writable (patterns p) :=
  (maybeStarPattern_gives hp).commaListWithTail.bind fun _ => row_gives

theorem groupTail_gives : Gives Pattern.Writable (groupTail p) := by
  refine .after fun b => .ite (.after fun _ => .pure (.sequence (by simp))) ?_
  exact (maybeStarPattern_gives hp).commaListWithTail.bind fun _ hrow =>
    .after fun _ => row_gives hrow

theorem sequenceTail_gives : Gives Pattern.Writable (sequenceTail p) := by
  refine .after fun b => .ite (.after fun _ => .pure (.sequence (by simp))) ?_
  exact (maybeStarPattern_gives hp).commaListWithTail.bind fun _ hrow => .after fun _ =>
    .pure (.sequence hrow)

end

include hg hp

theorem mappingTail_gives : Gives Pattern.Writable (mappingTail g p) := by
  have hitem : Gives (fun i => i.1.Writable ∧ i.2.Writable) (mappingItem g p) :=
    (mappingKey_gives hg).bind fun k hk => .after fun _ => hp.bind fun v hv => .pure ⟨hk, hv⟩
  refine (Gives.orElse hitem.commaList (.pure (by simp))).bind fun items hitems => ?_
  have hmapping :
      ∀ rest, (Pattern.mapping (items.map Prod.fst) (items.map Prod.snd) rest).Writable := by
    refine .mapping ?_ ?_
    · simpa using fun k v hkv => (hitems (k, v) hkv).1
    · simpa using fun v k hkv => (hitems (k, v) hkv).2
  have hclose : ∀ rest : Option String, Gives Pattern.Writable (do
      if !items.isEmpty || rest.isSome then
        let _ ← maybe (op ",")
      op "\x7d"
      pure (.mapping (items.map Prod.fst) (items.map Prod.snd) rest)) := fun rest =>
    .ite (.after fun _ => .after fun _ => .pure (hmapping rest)) (.after fun _ =>
      .pure (hmapping rest))
  refine .ite (.after fun b => .ite ?_ ?_) (.after fun t => .after fun u => ?_)
  · exact .after fun _ => .after hclose
  · exact .after hclose
  · split
    · exact .after fun _ => .after fun _ => .after hclose
    · exact .after hclose

theorem closedPattern_gives : Gives Pattern.Writable (closedPattern g p) := by
  refine .after fun t => ?_
  split
  · exact Gives.map (Q := fun _ => True) (fun _ _ _ _ => trivial) fun c _ => .singleton c
  · exact .after fun _ => groupTail_gives hp
  · exact .after fun _ => sequenceTail_gives hp
  · exact .after fun _ => mappingTail_gives hg hp
  · exact .after fun _ => .pure (.bare none)
  · refine dottedValue_gives.bind fun e he => .after fun b =>
      .ite (.after fun _ => classTail_gives hp he) ?_
    refine .after fun b => .ite .failure ?_
    split
    · exact .pure (.bare _)
    · exact .pure (.value he)
  · exact (literalValue_gives hg).map fun _ => .value

theorem pattern_gives : Gives Pattern.Writable (pattern g p) := by
  have hmore : Gives Pattern.Writable (do op "|"; closedPattern g p) :=
    .after fun _ => closedPattern_gives hg hp
  refine (closedPattern_gives hg hp).bind fun first hfirst => hmore.many.bind fun more hmore => ?_
  have halternatives :
      (if more.isEmpty then first else .alternatives (first :: more)).Writable := by
    split
    · exact hfirst
    · exact .alternatives (List.forall_mem_cons.2 ⟨hfirst, hmore⟩)
  exact .after fun b => .ite (.after fun _ => .after fun id => .pure (.capture halternatives id))
    (.pure halternatives)

end Grammar

theorem readPattern_gives {g : Grammar} (hg : ∀ goal, Gives Expr.Writable (g goal)) (depth : Nat) :
    Gives Pattern.Writable (fun ts => readPattern g depth ts) := by
  induction depth with
  | zero => exact .failure
  | succ depth ih => exact Grammar.pattern_gives hg ih

end CodeChart.Code
