import CodeChart.Proofs.Reading

/-! How expressions end. A text is firm if its last character is neither blank nor a colon, so that
nothing is lost where blanks or colons are cut off its end. Every expression that the grammar reads
is written as a firm text: it ends in a name, a number, a quote or a closing bracket. -/
namespace CodeChart.Text

def isFirm (c : Char) : Bool := !isBlank c && c != ':'

/-- The last character is neither blank nor a colon. -/
def Firm (s : String) : Prop := s.toList.getLast?.any isFirm = true

instance (s : String) : Decidable (Firm s) := inferInstanceAs (Decidable (_ = true))

theorem firm_iff {s : String} : Firm s ↔ ∃ init c, s.toList = init ++ [c] ∧ isFirm c = true := by
  unfold Firm
  rcases List.eq_nil_or_concat s.toList with hnil | ⟨init, c, hs⟩
  · simp [hnil]
  · rw [hs, List.concat_eq_append, List.getLast?_concat, Option.any_some]
    constructor
    · exact fun hc => ⟨init, c, rfl, hc⟩
    · rintro ⟨init', c', heq, hc'⟩
      obtain ⟨-, hlast⟩ := List.append_inj' heq rfl
      cases hlast
      exact hc'

theorem Firm.append (s : String) {t : String} (h : Firm t) : Firm (s ++ t) := by
  obtain ⟨init, c, ht, hc⟩ := firm_iff.1 h
  exact firm_iff.2 ⟨s.toList ++ init, c, by simp [ht], hc⟩

theorem firm_of_all {s : String} (hne : s.toList ≠ []) (h : ∀ c ∈ s.toList, isFirm c = true) :
    Firm s := by
  refine firm_iff.2 ⟨s.toList.dropLast, s.toList.getLast hne, ?_, h _ (List.getLast_mem hne)⟩
  exact (List.dropLast_concat_getLast hne).symm

theorem firm_intercalate (separator : String) {ts : List String} (hne : ts ≠ [])
    (h : ∀ t ∈ ts, Firm t) :
    Firm (separator.intercalate ts) := by
  induction ts with
  | nil => exact absurd rfl hne
  | cons t rest ih =>
    obtain ⟨ht, hrest⟩ := List.forall_mem_cons.1 h
    cases rest with
    | nil =>
      rw [String.intercalate_singleton]
      exact ht
    | cons u rest =>
      rw [String.intercalate_cons_cons]
      exact (ih (by simp) hrest).append _

theorem firm_join {s : String} (hs : Firm s) {ts : List String} (h : ∀ t ∈ ts, Firm t) :
    Firm (s ++ String.join ts) := by
  induction ts generalizing s with
  | nil =>
    rw [String.join_nil, String.append_empty]
    exact hs
  | cons t rest ih =>
    obtain ⟨ht, hrest⟩ := List.forall_mem_cons.1 h
    rw [String.join_cons]
    exact (ih ht hrest).append s

def loosePoints : List Nat :=
  [9, 10, 11, 12, 13, 28, 29, 30, 31, 32, 58, 0x85, 0xA0, 0x1680, 0x2000, 0x2001,
    0x2002, 0x2003, 0x2004,
   0x2005, 0x2006, 0x2007, 0x2008, 0x2009, 0x200A, 0x2028, 0x2029, 0x202F, 0x205F, 0x3000]

theorem isFirm_of_not_mem {c : Char} (h : c.toNat ∉ loosePoints) : isFirm c = true := by
  have hcolon : c ≠ ':' := by
    rintro rfl
    exact h (by decide)
  simp only [loosePoints, List.mem_cons, List.not_mem_nil, or_false, not_or] at h
  simp only [isFirm, isBlank, Bool.and_eq_true, Bool.not_eq_true', Bool.or_eq_false_iff,
    Bool.and_eq_false_iff,
    decide_eq_false_iff_not, beq_eq_false_iff_ne, bne_iff_ne]
  refine ⟨?_, hcolon⟩
  omega

theorem isFirm_of_isNamePart {c : Char} (h : isNamePart c.toNat = true) : isFirm c = true := by
  have hloose : ∀ n ∈ loosePoints, isNamePart n = false := by decide +kernel
  refine isFirm_of_not_mem fun hmem => ?_
  rw [hloose _ hmem] at h
  cases h

theorem IsName.firm {s : String} (h : IsName s) : Firm s :=
  firm_of_all h.1 fun c hc => isFirm_of_isNamePart (h.2 c hc)

theorem isFirm_of_isDigit {c : Char} (h : c.isDigit = true) : isFirm c = true := by
  have hrange : 48 ≤ c.toNat ∧ c.toNat ≤ 57 := by
    simpa [Char.isDigit, UInt32.le_iff_toNat_le] using h
  refine isFirm_of_not_mem fun hmem => ?_
  simp only [loosePoints, List.mem_cons, List.not_mem_nil, or_false] at hmem
  omega

theorem isFirm_of_mem_toDigits {n : Nat} {c : Char} (h : c ∈ Nat.toDigits 10 n) : isFirm c = true :=
  isFirm_of_isDigit (Nat.isDigit_of_mem_toDigits (by decide) (by decide) h)

theorem firm_toString (n : Nat) : Firm (toString n) := by
  rw [Nat.toString_eq_repr]
  refine firm_of_all ?_ fun c hc => ?_
  · rw [Nat.toList_repr]
    exact Nat.toDigits_ne_nil
  · rw [Nat.toList_repr] at hc
    exact isFirm_of_mem_toDigits hc

end CodeChart.Text

namespace CodeChart.Decimal

open Text

theorem firm_written {digits : List Char} (h : ∀ c ∈ digits, isFirm c = true) (point : Int) :
    Firm (written digits point ".0") := by
  unfold written
  dsimp only
  split
  · refine Firm.append _ ?_
    split
    · exact (firm_toString _).append _
    · exact firm_toString _
  · split
    · rw [← String.ofList_toList (s := "0."), ← String.ofList_append]
      refine firm_of_all (by simp) fun c hc => ?_
      rw [String.toList_ofList] at hc
      have hzero : "0.".toList.all isFirm = true := by decide
      rcases List.mem_append.1 hc with hc | hc
      · exact List.all_eq_true.1 hzero c hc
      · rcases List.mem_append.1 hc with hc | hc
        · rw [List.eq_of_mem_replicate hc]
          decide
        · exact h c hc
    · split
      · exact Firm.append _ (by decide)
      · refine firm_of_all (by simp) fun c hc => ?_
        rw [String.toList_ofList] at hc
        rcases List.mem_append.1 hc with hc | hc
        · exact h c (List.mem_of_mem_take hc)
        · rcases List.mem_cons.1 hc with rfl | hc
          · decide
          · exact h c (List.mem_of_mem_drop hc)

theorem isFirm_of_mem_shortest {m : Nat} {e : Int} {c : Char} (h : c ∈ (shortest m e).1) :
    isFirm c = true := by
  unfold shortest at h
  split at h
  · rw [List.mem_singleton.1 h]
    decide
  · have hdigits := (List.dropWhile_sublist _).subset (List.mem_reverse.1 h)
    exact isFirm_of_mem_toDigits (List.mem_reverse.1 hdigits)

theorem firm_text (value : Binary64) : Firm (value.text ".0") := by
  cases value with
  | infinite => decide
  | finite m e => exact firm_written (fun c hc => isFirm_of_mem_shortest hc) (shortest m e).2

end CodeChart.Decimal

namespace CodeChart.Text

theorem firm_headD {qs : List String} (h : ∀ q ∈ qs, Firm q) : Firm (qs.headD "'") := by
  cases qs with
  | nil => decide
  | cons q rest => exact h q List.mem_cons_self

theorem firm_literalQuote (cs : CodePoints) : Firm (String.singleton (literalQuote cs)) := by
  unfold literalQuote
  split <;> decide

theorem mem_of_mem_demote {α : Type} {p : α → Bool} {xs : List α} {x : α} (h : x ∈ demote p xs) :
    x ∈ xs := by
  rcases List.mem_append.1 h with h | h
  · exact (List.mem_filter.1 h).1
  · exact (List.mem_filter.1 h).1

theorem firm_sparingBody (cs : CodePoints) {quotes : List String} (h : ∀ q ∈ quotes, Firm q)
    (rawBreaks : Bool) :
    ∀ q ∈ (sparingBody cs quotes rawBreaks).2, Firm q := by
  have hfitting : ∀ p : String → Bool, ∀ q ∈ quotes.filter p, Firm q :=
    fun p q hq => h q (List.mem_filter.1 hq).1
  unfold sparingBody
  dsimp only
  split
  · refine List.forall_mem_singleton.2 ?_
    cases hfind : quotes.find? fun x => x.toList.contains (literalQuote cs) with
    | none => exact firm_literalQuote cs
    | some q => exact h q (List.mem_of_find?_eq_some hfind)
  · split
    · exact hfitting _
    · split
      · exact fun q hq => hfitting _ q (mem_of_mem_demote hq)
      · exact fun q hq => hfitting _ q (mem_of_mem_demote hq)

theorem firm_allQuotes : ∀ q ∈ allQuotes, Firm q := by decide

theorem firm_sparing (cs : CodePoints) : Firm (sparing cs allQuotes) :=
  (firm_headD (firm_sparingBody cs firm_allQuotes true)).append _

end CodeChart.Text

namespace CodeChart.Code

open Text

theorem firm_narrowQuotes {quotes last bodies : List String} {parts : List (CodePoints × Bool)}
    (hquotes : ∀ q ∈ quotes, Firm q) (h : narrowQuotes quotes parts = some (bodies, last)) :
    ∀ q ∈ last, Firm q := by
  induction parts generalizing quotes bodies with
  | nil =>
    cases h
    exact hquotes
  | cons part rest ih =>
    obtain ⟨points, literal⟩ := part
    rw [narrowQuotes] at h
    dsimp only at h
    split at h
    · obtain ⟨⟨bodies', last'⟩, hrest, heq⟩ := Option.map_eq_some_iff.1 h
      cases heq
      exact ih (firm_sparingBody points hquotes _) hrest
    · cases h

theorem firm_quoteParts (parts : List (CodePoints × Bool)) : Firm (quoteParts parts) := by
  unfold quoteParts
  split
  next bodies quotes hnarrow =>
    exact (firm_headD (firm_narrowQuotes firm_allQuotes hnarrow)).append _
  next => exact Firm.append _ (by decide)

section

variable {α β : Type} {P : α → Prop} {Q : β → Prop}

/-- The property holds of the outcome, if there is no fault. -/
def Yields (P : α → Prop) (x : Except Fault α) : Prop := ∀ a, x = .ok a → P a

namespace Yields

theorem pure {a : α} (h : P a) : Yields P (Pure.pure a) := by
  rintro _ ⟨⟩
  exact h

theorem throw (fault : Fault) : Yields P (throw fault) := by
  rintro _ ⟨⟩

theorem bind {x : Except Fault β} {k : β → Except Fault α} (h : Yields Q x)
    (hk : ∀ b, Q b → Yields P (k b)) :
    Yields P (x >>= k) := by
  cases x with
  | error fault => exact throw fault
  | ok b => exact hk b (h b rfl)

/-- A step whose outcome does not matter. -/
theorem after {x : Except Fault β} {k : β → Except Fault α} (hk : ∀ b, Yields P (k b)) :
    Yields P (x >>= k) :=
  bind (Q := fun _ => True) (fun _ _ => trivial) fun b _ => hk b

end Yields

end

/-- The text of the expression is firm, at every place that puts tuples in parentheses. -/
def Expr.Firm (e : Expr) : Prop :=
  ∀ sparing need, Level.test ≤ need → Yields Text.Firm (e.print sparing need)

theorem firm_parenthesize (condition : Bool) {s : String} (h : Text.Firm s) :
    Text.Firm (parenthesize condition s) := by
  cases condition with
  | true => exact Firm.append _ (by decide)
  | false => exact h

theorem firm_parenthesized {condition : Bool} (h : condition = true) (s : String) :
    Text.Firm (parenthesize condition s) := by
  rw [h]
  exact Firm.append _ (by decide)

theorem test_le_next {need : Nat} (h : Level.test ≤ need) : Level.test ≤ Level.next need := by
  simp only [Level.next, Level.test, Level.atom] at h ⊢
  omega

theorem yields_constant (sparing : Bool) (c : Constant) : Yields Text.Firm (c.print sparing) := by
  cases c with
  | none => exact .pure (by decide)
  | bool value => cases value <;> exact .pure (by decide)
  | ellipsis => exact .pure (by decide)
  | int value =>
    change Yields Text.Firm (printWhole value)
    unfold printWhole
    dsimp only
    split
    · exact .throw _
    · exact .pure (firm_toString value)
  | float value => exact .pure (Decimal.firm_text value)
  | imaginary value => exact .pure (Firm.append _ (by decide))
  | text marked value =>
    refine .pure (Firm.append _ ?_)
    split
    · exact firm_sparing value
    · exact (firm_literalQuote value).append _
  | bytes value => exact .pure ((firm_literalQuote value).append _)

theorem yields_rising {sparing : Bool} {need : Nat} (hneed : Level.test ≤ need) {es : List Expr}
    (h : ∀ e ∈ es, e.Firm) :
    Yields (fun ts => (es ≠ [] → ts ≠ []) ∧ ∀ t ∈ ts, Text.Firm t)
      (printRising sparing need es) := by
  induction es generalizing need with
  | nil => exact .pure (by simp)
  | cons e es ih =>
    obtain ⟨he, hes⟩ := List.forall_mem_cons.1 h
    refine (he sparing need hneed).bind fun t ht =>
      (ih (test_le_next hneed) hes).bind fun ts hts => ?_
    exact .pure ⟨fun _ => List.cons_ne_nil t ts, List.forall_mem_cons.2 ⟨ht, hts.2⟩⟩

theorem yields_comparisons {sparing : Bool} {cs : List Comparison}
    (h : ∀ op e, .mk op e ∈ cs → e.Firm) :
    Yields (fun ts => ∀ t ∈ ts, Text.Firm t) (printComparisons sparing cs) := by
  induction cs with
  | nil => exact .pure (by simp)
  | cons c cs ih =>
    obtain ⟨op, right⟩ := c
    have hright : right.Firm := h op right List.mem_cons_self
    have hrest := ih fun op e he => h op e (List.mem_cons_of_mem _ he)
    refine (hright sparing _ (by decide)).bind fun r hr => hrest.bind fun rs hrs => .pure ?_
    exact List.forall_mem_cons.2 ⟨hr.append _, hrs⟩

/-- Expressions that end in a mark of their own: a literal, a closing bracket, or a parenthesis
where they stand in another expression. -/
def Expr.isEnclosed : Expr → Bool
  | .constant _ | .index .. | .call .. | .dict _ | .set _ | .list _ | .tuple _ |
    .listOf .. | .setOf ..
  | .generator .. | .dictOf .. | .yield _ | .yieldFrom _ | .assign .. | .joined _ => true
  | _ => false

namespace Expr.Firm

variable {e value left right test body orelse : Expr} {es : List Expr}

theorem enclosed (h : e.isEnclosed = true) : e.Firm := by
  intro sparing need hneed
  have hbound : ∀ {level : Nat}, level < Level.test → decide (level < need) = true :=
    fun hlevel => decide_eq_true (Nat.lt_of_lt_of_le hlevel hneed)
  cases e with
  | constant c => exact yields_constant sparing c
  | index value key =>
    rw [Expr.print]
    refine .after fun _ => ?_
    split
    · exact .after fun _ => .after fun _ => .pure (Firm.append _ (by decide))
    · exact .after fun _ => .pure (Firm.append _ (by decide))
  | call callee args keywords =>
    exact .after fun _ => .after fun _ => .after fun _ => .pure (Firm.append _ (by decide))
  | dict items => exact .after fun _ => .pure (Firm.append _ (by decide))
  | set items =>
    refine .after fun _ => .pure ?_
    split
    · decide
    · exact Firm.append _ (by decide)
  | list items => exact .after fun _ => .pure (Firm.append _ (by decide))
  | tuple items =>
    refine .after fun _ => .pure (firm_parenthesized ?_ _)
    rw [hbound (by decide), Bool.or_true]
  | listOf item clauses => exact .after fun _ => .after fun _ => .pure (Firm.append _ (by decide))
  | setOf item clauses => exact .after fun _ => .after fun _ => .pure (Firm.append _ (by decide))
  | generator item clauses =>
    exact .after fun _ => .after fun _ => .pure (Firm.append _ (by decide))
  | dictOf key value clauses =>
    exact .after fun _ => .after fun _ => .after fun _ => .pure (Firm.append _ (by decide))
  | yield value => exact .after fun _ => .pure (firm_parenthesized (hbound (by decide)) _)
  | yieldFrom value => exact .after fun _ => .pure (firm_parenthesized (hbound (by decide)) _)
  | assign target value =>
    exact .after fun _ => .after fun _ => .pure (firm_parenthesized (hbound (by decide)) _)
  | joined parts =>
    refine .after fun _ => .pure (Firm.append _ ?_)
    split
    · exact firm_sparing _
    · exact firm_quoteParts _
  | _ => cases h

theorem name {id : String} (h : Text.IsName id) : (Expr.name id).Firm := fun _ _ _ => .pure h.firm

theorem member {field : String} (h : Text.IsName field) : (Expr.member value field).Firm :=
  fun _ _ _ => .after fun _ => .pure (h.firm.append _)

theorem starred (h : value.Firm) : (Expr.starred value).Firm :=
  fun sparing _ _ => (h sparing _ (by decide)).bind fun _ hv => .pure (hv.append _)

theorem boolean (op : BoolOp) (hne : es ≠ []) (h : ∀ e ∈ es, e.Firm) :
    (Expr.boolean op es).Firm := by
  intro sparing need _
  have hlevel : Level.test ≤ Level.next op.level := by cases op <;> decide
  exact (yields_rising hlevel h).bind fun ts hts =>
    .pure (firm_parenthesize _ (firm_intercalate _ (hts.1 hne) hts.2))

theorem binary (op : BinOp) (h : right.Firm) : (Expr.binary left op right).Firm := by
  intro sparing need _
  have hlevel : Level.test ≤ op.operandLevels.2 := by cases op <;> decide
  exact .after fun _ => (h sparing _ hlevel).bind fun _ hr =>
    .pure (firm_parenthesize _ (hr.append _))

theorem unary (op : UnaryOp) (h : value.Firm) : (Expr.unary op value).Firm := by
  intro sparing need _
  have hlevel : Level.test ≤ op.level := by cases op <;> decide
  exact (h sparing _ hlevel).bind fun _ hv => .pure (firm_parenthesize _ (hv.append _))

theorem compare {cs : List Comparison} (h : left.Firm) (hc : ∀ op e, .mk op e ∈ cs → e.Firm) :
    (Expr.compare left cs).Firm := by
  intro sparing need _
  refine (h sparing _ (by decide)).bind fun _ hl => (yields_comparisons hc).bind fun _ hrs => ?_
  exact .pure (firm_parenthesize _ (firm_join hl hrs))

theorem function (ps : Params) (h : body.Firm) : (Expr.function ps body).Firm :=
  fun sparing _ _ => .after fun _ => (h sparing _ (by decide)).bind fun _ hb =>
    .pure (firm_parenthesize _ (hb.append _))

theorem choice (test body : Expr) (h : orelse.Firm) : (Expr.choice test body orelse).Firm :=
  fun sparing _ _ => .after fun _ => .after fun _ => (h sparing _ (by decide)).bind fun _ ho =>
    .pure (firm_parenthesize _ (ho.append _))

theorem await (h : value.Firm) : (Expr.await value).Firm :=
  fun sparing _ _ => (h sparing _ (by decide)).bind fun _ hv =>
    .pure (firm_parenthesize _ (hv.append _))

end Expr.Firm

namespace Grammar

open Reader

theorem name_isName : Gives Text.IsName Reader.name := by
  refine .after fun t => ?_
  split
  next id spelled => exact .pure spelled
  next => exact .failure

theorem starOr_firm {p star : Reader Expr} (hp : Gives Expr.Firm p) (hs : Gives Expr.Firm star) :
    Gives Expr.Firm (starOr p star) :=
  .after fun _ => .ite (.after fun _ => hs.map fun _ => .starred) hp

variable {g : Grammar} (hg : ∀ goal, Gives Expr.Firm (g goal))

theorem joinLiterals_isEnclosed (expression : List Char → Option Expr) (first : Literal)
    (rest : List Literal) :
    Finds (fun e => e.isEnclosed = true) (joinLiterals expression first rest) := by
  refine .after fun _ => .ite (.after fun parts => .some rfl) ?_
  by_cases hformatted : (first :: rest).any (·.formatted) = true
  · refine .after fun parts => ?_
    dsimp only
    rw [if_pos hformatted]
    exact .some rfl
  · -- plain literals have no fields
    have hplain : ∀ l ∈ first :: rest, Finds (fun ss => ∀ s ∈ ss, ∃ points, s = .literal points)
        (l.segments? expression) := by
      intro l hl
      have hl' : l.formatted = false := by
        simpa using fun h => hformatted (List.any_eq_true.2 ⟨l, hl, h⟩)
      rw [Literal.segments?, hl']
      exact Finds.map (Q := fun _ => True) (fun _ _ => trivial) fun points _ => by simp
    refine (Finds.mapM hplain).bind fun parts hparts => ?_
    have hfields : ∀ e, .field e ∈ parts.flatten → e.isEnclosed = true := by
      intro e he
      obtain ⟨part, hpart, he⟩ := List.mem_flatten.1 he
      obtain ⟨points, hs⟩ := hparts part hpart _ he
      cases hs
    have hmerged :=
      mergeSegments_induction (P := fun e => e.isEnclosed = true) first.marked
        (fun _ => rfl) hfields
    dsimp only
    rw [if_neg hformatted]
    split
    next e heq => exact .some (hmerged e (by simp [heq]))
    next => exact .some rfl

theorem literals_firm : Gives Expr.Firm (literals g) := by
  refine .after fun first => .after fun rest => ?_
  split
  next e he => exact .pure (.enclosed (joinLiterals_isEnclosed _ first rest e he))
  next => exact .failure

theorem bracket_firm : Gives Expr.Firm (bracket g) := by
  refine .after fun b => .ite (.after fun _ => .pure (.enclosed rfl)) ?_
  refine .after fun first => .after fun b => .ite ?_ ?_
  · exact .after fun cs => .after fun _ => .pure (.enclosed rfl)
  · exact .after fun items => .after fun _ => .pure (.enclosed rfl)

theorem brace_firm : Gives Expr.Firm (brace g) := by
  refine .after fun b => .ite (.after fun _ => .pure (.enclosed rfl)) (.after fun b => .ite ?_ ?_)
  · exact .after fun items => .after fun _ => .pure (.enclosed rfl)
  · refine .after fun _ => .after fun _ => .after fun first => .after fun b =>
      .ite ?_ (.after fun b => .ite ?_ ?_)
    · refine .after fun _ => .after fun value => .after fun b => .ite ?_ ?_
      · exact .after fun cs => .after fun _ => .pure (.enclosed rfl)
      · exact .after fun more => .after fun _ => .after fun _ => .pure (.enclosed rfl)
    · exact .after fun cs => .after fun _ => .pure (.enclosed rfl)
    · exact .after fun items => .after fun _ => .pure (.enclosed rfl)

theorem callTail_firm (callee : Expr) : Gives Expr.Firm (callTail g callee) := by
  refine .after fun b => .ite (.after fun _ => .pure (.enclosed rfl)) (.after fun first => ?_)
  split
  · refine .after fun b => .ite ?_ ?_
    · exact .after fun cs => .after fun _ => .pure (.enclosed rfl)
    · exact .after fun args => .after fun _ => .pure (.enclosed rfl)
  · exact .after fun args => .after fun _ => .pure (.enclosed rfl)

theorem trailer_firm (e : Expr) : Gives Expr.Firm (trailer g e) := by
  refine .after fun t => ?_
  split
  · exact name_isName.map fun _ => .member
  · exact callTail_firm e
  · exact .after fun k => .after fun _ => .pure (.enclosed rfl)
  · exact .failure

include hg

theorem parenthesis_firm : Gives Expr.Firm (parenthesis g) := by
  refine .after fun b => .ite (.after fun _ => .pure (.enclosed rfl)) (.after fun b => .ite ?_ ?_)
  · exact (hg .yield).bind fun e he => .after fun _ => .pure he
  · refine (starOr_firm (hg _) (hg _)).bind fun first hfirst => .after fun b =>
      .ite ?_ (.ite .failure ?_)
    · exact .after fun items => .after fun _ => .pure (.enclosed rfl)
    · refine .after fun b => .ite ?_ (.after fun _ => .pure hfirst)
      exact .after fun cs => .after fun _ => .pure (.enclosed rfl)

theorem atom_firm : Gives Expr.Firm (atom g) := by
  refine .after fun t => ?_
  split
  · exact literals_firm
  · refine .after fun t => ?_
    split
    next id spelled => exact .pure (.name spelled)
    next => exact .pure (.enclosed rfl)
    next => exact .pure (.enclosed rfl)
    next => exact .pure (.enclosed rfl)
    next => exact .pure (.enclosed rfl)
    next => exact .pure (.enclosed rfl)
    next => exact parenthesis_firm hg
    next => exact bracket_firm
    next => exact brace_firm
    next => exact .failure

theorem primary_firm : Gives Expr.Firm (primary g) :=
  (atom_firm hg).bind fun _ he => .extend (fun e _ => trailer_firm e) he

theorem power_firm : Gives Expr.Firm (power g) := by
  have hawaited : Gives Expr.Firm (awaited g) :=
    .after fun _ => .ite (.after fun _ => (primary_firm hg).map fun _ => .await) (primary_firm hg)
  refine hawaited.bind fun e he => .after fun b => .ite ?_ (.pure he)
  exact .after fun _ => (hg _).map fun _ => .binary _

theorem factor_firm : Gives Expr.Firm (factor g) := by
  refine .after fun t => ?_
  split
  · exact .after fun _ => (hg _).map fun _ => .unary _
  · exact .after fun _ => (hg _).map fun _ => .unary _
  · exact .after fun _ => (hg _).map fun _ => .unary _
  · exact power_firm hg

omit hg in
theorem leftGrouped_firm (operators : List (String × BinOp)) {p : Reader Expr}
    (hp : Gives Expr.Firm p) :
    Gives Expr.Firm (leftGrouped operators p) := by
  refine hp.bind fun e he => .extend (fun left _ => .after fun t => ?_) he
  split
  · split
    · exact hp.map fun _ => .binary _
    · exact .failure
  · exact .failure

theorem bitOr_firm : Gives Expr.Firm (bitOr g) := by
  repeat' apply leftGrouped_firm
  exact factor_firm hg

theorem inversion_firm : Gives Expr.Firm (inversion g) := by
  refine .after fun b => .ite (.after fun _ => (hg _).map fun _ => .unary _) ?_
  have hcomparison : Gives (fun c => ∀ op e, c = Comparison.mk op e → e.Firm) (do
      let o ← compareOp
      Comparison.mk o <$> bitOr g) :=
    .after fun o => (bitOr_firm hg).map fun e he => by
      rintro _ _ ⟨⟩
      exact he
  refine (bitOr_firm hg).bind fun left hleft => hcomparison.many.bind fun rest hrest => .pure ?_
  split
  · exact hleft
  · exact .compare hleft fun op e he => hrest _ he op e rfl

omit hg in
theorem truthChain_firm (id : String) (o : BoolOp) {p : Reader Expr} (hp : Gives Expr.Firm p) :
    Gives Expr.Firm (truthChain id o p) := by
  have hmore : Gives Expr.Firm (do let _ ← word id; p) := .after fun _ => hp
  refine hp.bind fun first hfirst => hmore.many.bind fun rest hrest => .pure ?_
  split
  · exact hfirst
  · exact .boolean o (List.cons_ne_nil first rest) (List.forall_mem_cons.2 ⟨hfirst, hrest⟩)

theorem disjunction_firm : Gives Expr.Firm (disjunction g) :=
  truthChain_firm _ _ (truthChain_firm _ _ (inversion_firm hg))

theorem expression_firm : Gives Expr.Firm (expression g) := by
  refine .after fun b => .ite ?_ ?_
  · exact .after fun _ => .after fun ps => .after fun _ => (hg _).map fun _ => .function ps
  · refine (disjunction_firm hg).bind fun e he => .after fun b => .ite ?_ (.pure he)
    exact .after fun _ => .after fun test => .after fun _ => (hg _).map fun _ => .choice test e

theorem named_firm : Gives Expr.Firm (named g) := by
  refine .after fun t => .after fun u => ?_
  split
  · exact .after fun _ => .after fun _ => (hg _).map fun _ _ => .enclosed rfl
  · exact expression_firm hg

theorem starExpressions_firm : Gives Expr.Firm (starExpressions g) := by
  refine (starOr_firm (expression_firm hg) (bitOr_firm hg)).commaListWithTail.bind fun p hp => ?_
  split
  · exact .pure (hp _ List.mem_cons_self)
  · exact .pure (.enclosed rfl)

theorem yieldExpr_firm : Gives Expr.Firm (yieldExpr g) := by
  refine .after fun _ => .after fun b => .ite ?_ ?_
  · exact .after fun _ => (hg _).map fun _ _ => .enclosed rfl
  · exact (starExpressions_firm hg).maybe.map fun _ _ => .enclosed rfl

theorem rules_firm (goal : Goal) : Gives Expr.Firm (rules g goal) := by
  cases goal with
  | expression => exact expression_firm hg
  | named => exact named_firm hg
  | disjunction => exact disjunction_firm hg
  | inversion => exact inversion_firm hg
  | bitOr => exact bitOr_firm hg
  | factor => exact factor_firm hg
  | starExpressions => exact starExpressions_firm hg
  | yield => exact yieldExpr_firm hg

end Grammar

theorem readExpr_firm (depth : Nat) (goal : Goal) :
    Gives Expr.Firm (fun ts => readExpr depth goal ts) := by
  induction depth generalizing goal with
  | zero => exact .failure
  | succ depth ih => exact Grammar.rules_firm ih goal

mutual

/-- The tests of branches, the conditions and sources of loops and the values given back are firm,
in the statement and in those of its suites that can be drawn or named by a field. -/
def Stmt.Firm : Stmt → Prop
  | .function _ _ _ _ body _ _ => FirmAll body
  | .classDef _ _ _ _ body _ => FirmAll body
  | .giveBack value => ∀ e ∈ value, e.Firm
  | .forEach _ _ source body _ => source.Firm ∧ FirmAll body
  | .whileTrue test body _ => test.Firm ∧ FirmAll body
  | .branch test body orelse => test.Firm ∧ FirmAll body ∧ FirmAll orelse
  | .select _ cases => FirmCases cases
  | .lacking _ s => s.Firm
  | _ => True

def FirmAll : List Stmt → Prop
  | [] => True
  | s :: rest => s.Firm ∧ FirmAll rest

def Case.Firm : Case → Prop
  | .mk _ _ body => FirmAll body
  | .lacking _ c => c.Firm

def FirmCases : List Case → Prop
  | [] => True
  | c :: rest => c.Firm ∧ FirmCases rest

end

theorem firmAll_iff {ss : List Stmt} : FirmAll ss ↔ ∀ s ∈ ss, s.Firm := by
  induction ss with
  | nil => simp [FirmAll]
  | cons s rest ih => simp [FirmAll, ih]

theorem firmCases_iff {cs : List Case} : FirmCases cs ↔ ∀ c ∈ cs, c.Firm := by
  induction cs with
  | nil => simp [FirmCases]
  | cons c rest ih => simp [FirmCases, ih]

theorem firmAll_flatten {sss : List (List Stmt)} (h : ∀ ss ∈ sss, FirmAll ss) :
    FirmAll sss.flatten := by
  refine firmAll_iff.2 fun s hs => ?_
  obtain ⟨ss, hss, hs⟩ := List.mem_flatten.1 hs
  exact firmAll_iff.1 (h ss hss) s hs

end CodeChart.Code
