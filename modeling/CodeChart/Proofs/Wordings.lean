import CodeChart.Proofs.Endings
import CodeChart.Proofs.Options

/-! The wording of conditions, joint boxes and outputs. The texts are cut out of the code: the first
line without the colons at its end, and what is left of it when the letters of a keyword are
dropped. Nothing of an expression is lost on the way, since expressions are firm and a blank stands
before them. -/
namespace CodeChart.Text

variable {p : Char → Bool} {s t : String}

theorem dropWhile_of_head {cs : List Char} (h : ∀ c ∈ cs.head?, p c = false) :
    cs.dropWhile p = cs := by
  cases cs with
  | nil => rfl
  | cons c cs => exact List.dropWhile_cons_of_neg (by simp [h c rfl])

theorem dropLeading_of_head (h : ∀ c ∈ s.toList.head?, p c = false) : dropLeading p s = s := by
  rw [dropLeading, dropWhile_of_head h, String.ofList_toList]

theorem dropLeading_append (hs : s.toList.all p = true) (ht : ∀ c ∈ t.toList.head?, p c = false) :
    dropLeading p (s ++ t) = t := by
  rw [dropLeading, String.toList_append, List.dropWhile_append_of_pos (List.all_eq_true.1 hs)]
  exact dropLeading_of_head ht

theorem dropTrailing_append (hs : ∀ c ∈ s.toList.getLast?, p c = false) (t : String) :
    dropTrailing p (s ++ t) = s ++ dropTrailing p t := by
  rw [List.getLast?_eq_head?_reverse] at hs
  rw [dropTrailing, dropTrailing, String.toList_append, List.reverse_append, List.dropWhile_append,
    dropWhile_of_head hs]
  split
  next hempty =>
    rw [List.isEmpty_iff.1 hempty, List.reverse_reverse, String.ofList_toList]
    simp
  next => rw [List.reverse_append, List.reverse_reverse, String.ofList_append, String.ofList_toList]

theorem dropTrailing_begins (p : Char → Bool) (s : String) :
    (dropTrailing p s).toList <+: s.toList := by
  rw [dropTrailing, String.toList_ofList, ← List.reverse_suffix, List.reverse_reverse]
  exact List.dropWhile_suffix p

/-- A text of one line. -/
def isOneLine (s : String) : Bool := s.toList.all fun c => !isLineEnd c

/-- A text that is empty or begins with the end of a line. -/
def Breaks (s : String) : Prop := ∀ c ∈ s.toList.head?, isLineEnd c = true

theorem breaks_append (h : Breaks s) (ht : Breaks t) : Breaks (s ++ t) := by
  intro c hc
  rw [String.toList_append, List.head?_append] at hc
  cases hs : s.toList.head? with
  | none =>
    rw [hs] at hc
    exact ht c hc
  | some d =>
    rw [hs] at hc
    exact h c (hs.trans hc)

def BeginsLine (s : String) : Prop := s.toList.head? = some '\n'

theorem BeginsLine.append (h : BeginsLine s) (t : String) : BeginsLine (s ++ t) := by
  rw [BeginsLine, String.toList_append, List.head?_append, h]
  rfl

theorem BeginsLine.breaks (h : BeginsLine s) : Breaks s := by
  intro c hc
  obtain rfl := Option.some.inj (h.symm.trans hc)
  decide

theorem firstLine?_append (h : isOneLine s = true) (hne : s ≠ "") (ht : Breaks t) :
    firstLine? (s ++ t) = some s := by
  have hempty : (s ++ t).isEmpty = false := by simp [hne]
  have hrest : t.toList.takeWhile (fun c => !isLineEnd c) = [] := by
    cases hlist : t.toList with
    | nil => rfl
    | cons c cs =>
      have hc := ht c (by rw [hlist]; rfl)
      rw [List.takeWhile_cons_of_neg (by simp [hc])]
  rw [firstLine?, hempty, if_neg (by simp), String.toList_append,
    List.takeWhile_append_of_pos (List.all_eq_true.1 h), hrest, List.append_nil,
      String.ofList_toList]

end CodeChart.Text

namespace CodeChart.Code

open Text Chart

theorem beginsLine_fill (indent : Nat) (text : String) : BeginsLine (fill indent text) :=
  (BeginsLine.append (s := "\n") rfl _).append _

theorem yields_stmt (indent : Nat) (s : Stmt) : Yields BeginsLine (s.print indent) := by
  have hfill := beginsLine_fill indent
  have hline : BeginsLine "\n" := rfl
  cases s with
  | function isAsync line name params body decorators result =>
    refine .after fun _ => .after fun _ => .after fun _ => .after fun _ => .pure ?_
    exact ((hline.append _).append _).append _
  | classDef line name bases keywords body decorators =>
    refine .after fun _ => .after fun _ => .after fun _ => .after fun _ => .pure ?_
    exact ((hline.append _).append _).append _
  | giveBack value => exact .after fun _ => .pure (hfill _)
  | delete targets => exact .after fun _ => .pure (hfill _)
  | assign targets value => exact .after fun _ => .after fun _ => .pure (hfill _)
  | update target op value => exact .after fun _ => .after fun _ => .pure (hfill _)
  | declare target hint value simple =>
    exact .after fun _ => .after fun _ => .after fun _ => .pure (hfill _)
  | forEach isAsync target source body orelse =>
    refine .after fun _ => .after fun _ => .after fun _ => .after fun _ => .pure ?_
    exact ((hfill _).append _).append _
  | whileTrue test body orelse =>
    exact .after fun _ => .after fun _ => .after fun _ => .pure (((hfill _).append _).append _)
  | branch test body orelse =>
    exact .after fun _ => .after fun _ => .after fun _ => .pure (((hfill _).append _).append _)
  | within isAsync items body => exact .after fun _ => .after fun _ => .pure ((hfill _).append _)
  | select subject cases => exact .after fun _ => .after fun _ => .pure ((hfill _).append _)
  | raise error cause => exact .after fun _ => .after fun _ => .pure (hfill _)
  | attempt grouped body handlers orelse final =>
    refine .after fun _ => .after fun _ => .after fun _ => .after fun _ => .pure ?_
    exact ((((hfill _).append _).append _).append _).append _
  | require test message => exact .after fun _ => .after fun _ => .pure (hfill _)
  | expr value => exact .after fun _ => .pure (hfill _)
  | lacking part s => exact .throw _
  | _ => exact .pure (hfill _)

theorem yields_block (indent : Nat) (ss : List Stmt) : Yields Breaks (printBlock indent ss) := by
  cases ss with
  | nil => exact .pure (by simp [Breaks])
  | cons s rest =>
    exact (yields_stmt indent s).bind fun _ hs => .after fun _ => .pure (hs.append _).breaks

theorem yields_else (indent : Nat) (ss : List Stmt) : Yields Breaks (printElse indent ss) := by
  cases ss with
  | nil => exact .pure (by simp [Breaks])
  | cons s rest =>
    exact .after fun _ => .after fun _ => .pure (((beginsLine_fill _ _).append _).append _).breaks

theorem yields_otherwise (indent : Nat) (ss : List Stmt) :
    Yields Breaks (printOtherwise indent ss) := by
  unfold printOtherwise
  split
  · exact .pure (by simp [Breaks])
  · exact .after fun _ => .after fun _ => .after fun _ =>
      .pure (((beginsLine_fill _ _).append _).append _).breaks
  · exact .after fun _ => .after fun _ => .pure (((beginsLine_fill _ _).append _).append _).breaks

def Stmt.keyword : Stmt → String
  | .branch .. => "if"
  | .whileTrue .. => "while"
  | .forEach .. => "for"
  | _ => ""

/-- What stands between the keyword and the colon of a branch or a loop. Several targets stand there
without parentheses. -/
def Stmt.condition : Stmt → Except Fault String
  | .branch test _ _ => (Piece.expr test).print
  | .whileTrue test _ _ => (Piece.expr test).print
  | .forEach _ target source _ _ => do
    let t ← target.print false Level.tuple
    let s ← (Piece.expr source).print
    pure (t ++ " in " ++ s)
  | _ => pure ""

def Stmt.given? : Stmt → Option Expr
  | .giveBack value => value
  | _ => none

theorem last_of_firm {s : String} (h : Firm s) :
    ∀ c ∈ s.toList.getLast?, isBlank c = false ∧ (c == ':') = false := by
  intro c hc
  have hfirm : isFirm c = true := by rwa [Firm, hc, Option.any_some] at h
  simpa [isFirm] using hfirm

theorem strip_fill {s : String} (hfirst : ∃ c ∈ s.toList.head?, isBlank c = false)
    (hlast : ∀ c ∈ s.toList.getLast?, isBlank c = false) (rest : String) :
    strip (fill 0 s ++ rest) = s ++ dropTrailing isBlank rest := by
  obtain ⟨c, hc, hblank⟩ := hfirst
  have hbreak : "\n".toList.all isBlank = true := by decide
  have hhead : ∀ d ∈ (s ++ rest).toList.head?, isBlank d = false := by
    intro d hd
    rw [String.toList_append, List.head?_append, hc] at hd
    cases hd
    exact hblank
  have hfill : fill 0 s ++ rest = "\n" ++ (s ++ rest) := by
    rw [fill, Nat.mul_zero, List.replicate_zero, String.ofList_nil, String.append_empty,
      String.append_assoc]
  rw [strip, hfill, dropLeading_append hbreak hhead, dropTrailing_append hlast]

theorem headerOf_strip {line rest : String} (hfirst : ∃ c ∈ line.toList.head?, isBlank c = false)
    (hline : isOneLine line = true) (hfirm : Firm line) (hrest : Breaks rest) :
    Piece.headerOf (strip (fill 0 (line ++ ":") ++ rest)) = line := by
  have hhead : ∃ c ∈ (line ++ ":").toList.head?, isBlank c = false := by
    obtain ⟨c, hc, hblank⟩ := hfirst
    refine ⟨c, ?_, hblank⟩
    rw [String.toList_append, List.head?_append, hc]
    rfl
  have hlast : ∀ c ∈ (line ++ ":").toList.getLast?, isBlank c = false := by
    rw [String.toList_append, List.getLast?_append]
    rintro _ ⟨⟩
    decide
  have hone : isOneLine (line ++ ":") = true := by
    rw [isOneLine, String.toList_append, List.all_append, Bool.and_eq_true]
    exact ⟨hline, by decide⟩
  have hcut : Breaks (dropTrailing isBlank rest) := by
    obtain ⟨more, hmore⟩ := dropTrailing_begins isBlank rest
    intro c hc
    refine hrest c ?_
    rw [← hmore, List.head?_append, hc]
    rfl
  rw [strip_fill hhead hlast, Piece.headerOf, firstLine?_append hone (by simp) hcut]
  change dropTrailing _ _ = _
  rw [dropTrailing_append (fun c hc => (last_of_firm hfirm c hc).2)]
  exact String.append_empty

theorem header_of_print {s : Stmt} {keyword words body more header : String}
    (hkeyword : keyword ∈ ["if", "while", "for"]) (hfirm : Firm words) (hbody : Breaks body)
    (hmore : Breaks more)
    (hprint : (Piece.stmt s).print = .ok (fill 0 (keyword ++ " " ++ words ++ ":") ++ body ++ more))
    (hheader : (Piece.stmt s).header = .ok header) (hline : isOneLine words = true) :
    header = keyword ++ " " ++ words := by
  have hfirst : ∃ c ∈ (keyword ++ " " ++ words).toList.head?, isBlank c = false := by
    simp only [List.mem_cons, List.not_mem_nil, or_false] at hkeyword
    rcases hkeyword with rfl | rfl | rfl
    · exact ⟨'i', by simp, by decide⟩
    · exact ⟨'w', by simp, by decide⟩
    · exact ⟨'f', by simp, by decide⟩
  have hone : isOneLine (keyword ++ " " ++ words) = true := by
    have hbefore : ∀ keyword ∈ ["if", "while", "for"], isOneLine (keyword ++ " ")
        = true := by decide
    have hbefore := hbefore keyword hkeyword
    rw [isOneLine] at hline hbefore ⊢
    rw [String.toList_append, List.all_append, hbefore, hline]
    rfl
  obtain ⟨text, htext, rfl⟩ := map_eq_ok.1 hheader
  obtain ⟨printed, hprinted, rfl⟩ := map_eq_ok.1 htext
  obtain rfl := Except.ok.inj (hprinted.symm.trans hprint)
  rw [String.append_assoc]
  exact headerOf_strip hfirst hone (hfirm.append _) (breaks_append hbody hmore)

/-- The header of a branch or a loop of one line is its keyword and its condition. -/
theorem header_eq {s : Stmt} (hs : s.isBranch = true ∨ s.isLoop = true) (hwhole : s.Whole)
    (hfirm : s.Firm) {header : String} (h : (Piece.stmt s).header = .ok header) :
    ∃ words, s.condition = .ok words ∧
      (isOneLine words = true → header = s.keyword ++ " " ++ words) := by
  obtain ⟨text, htext, -⟩ := map_eq_ok.1 h
  obtain ⟨printed, hprinted, -⟩ := map_eq_ok.1 htext
  cases s with
  | branch test body orelse =>
    obtain ⟨words, hwords, hprint⟩ := bind_eq_ok.1 hprinted
    obtain ⟨b, hb, hprint⟩ := bind_eq_ok.1 hprint
    obtain ⟨o, ho, hprint⟩ := bind_eq_ok.1 hprint
    cases hprint
    have hkeyword : "if" ∈ ["if", "while", "for"] := by decide
    have hwordsfirm := hfirm.1 false _ (Nat.le_refl _) words hwords
    exact ⟨words, hwords, header_of_print hkeyword hwordsfirm (yields_block _ _ b hb)
      (yields_otherwise _ _ o ho)
      hprinted h⟩
  | whileTrue test body orelse =>
    obtain ⟨words, hwords, hprint⟩ := bind_eq_ok.1 hprinted
    obtain ⟨b, hb, hprint⟩ := bind_eq_ok.1 hprint
    obtain ⟨o, ho, hprint⟩ := bind_eq_ok.1 hprint
    cases hprint
    have hkeyword : "while" ∈ ["if", "while", "for"] := by decide
    have hwordsfirm := hfirm.1 false _ (Nat.le_refl _) words hwords
    exact ⟨words, hwords, header_of_print hkeyword hwordsfirm (yields_block _ _ b hb)
      (yields_else _ _ o ho)
      hprinted h⟩
  | forEach isAsync target source body orelse =>
    cases isAsync with
    | true => simp [Stmt.isBranch, Stmt.isLoop] at hs
    | false =>
      obtain ⟨t, ht, hprint⟩ := bind_eq_ok.1 hprinted
      obtain ⟨words, hwords, hprint⟩ := bind_eq_ok.1 hprint
      obtain ⟨b, hb, hprint⟩ := bind_eq_ok.1 hprint
      obtain ⟨o, ho, hprint⟩ := bind_eq_ok.1 hprint
      cases hprint
      have hkeyword : "for" ∈ ["if", "while", "for"] := by decide
      have hwordsfirm : Firm (t ++ " in " ++ words) :=
        (hfirm.1 false _ (Nat.le_refl _) words hwords).append _
      have hsame : "for " ++ t ++ " in " ++ words ++ ":" = "for" ++ " "
          ++ (t ++ " in " ++ words) ++ ":" := by
        simp only [String.append_assoc]
        rfl
      have hprint : (Piece.stmt (.forEach false target source body orelse)).print
          = .ok (fill 0 ("for" ++ " " ++ (t ++ " in " ++ words) ++ ":") ++ b ++ o) := by
        rw [← hsame]
        exact hprinted
      refine ⟨t ++ " in " ++ words, bind_eq_ok.2 ⟨t, ht, bind_eq_ok.2 ⟨words, hwords, rfl⟩⟩, ?_⟩
      exact header_of_print hkeyword hwordsfirm (yields_block _ _ b hb)
        (yields_else _ _ o ho) hprint h
  | lacking part s => exact hwhole.elim
  | _ => simp [Stmt.isBranch, Stmt.isLoop] at hs

theorem dropLeadingOf_blank {set s : String}
    (hs : (s.toList.all fun c => set.toList.contains c) = true)
    (hblank : set.toList.contains ' ' = false) (words : String) :
    dropLeadingOf set (s ++ (" " ++ words)) = " " ++ words := by
  refine dropLeading_append hs fun c hc => ?_
  rw [String.toList_append] at hc
  cases hc
  exact hblank

theorem append_blank (body separator words : String) :
    body ++ separator ++ (" " ++ words) = body ++ (separator ++ " ") ++ words := by
  simp only [String.append_assoc]

theorem branchText_eq (body words : String) :
    Graph.branchText body ("if" ++ " " ++ words) = body ++ " if  " ++ words := by
  have hdrop : dropLeadingOf "if" ("if" ++ " " ++ words) = " " ++ words := by
    rw [String.append_assoc, dropLeadingOf_blank (by decide) (by decide)]
  rw [Graph.branchText, hdrop, append_blank]
  rfl

theorem loopText_eq {keyword : String} (h : keyword ∈ ["while", "for"]) (body words : String) :
    Graph.loopText body (keyword ++ " " ++ words) = body ++ " while  " ++ words := by
  have hdrop : dropLeadingOf "while" (dropLeadingOf "for" (keyword ++ " " ++ words))
      = " " ++ words := by
    rw [String.append_assoc]
    simp only [List.mem_cons, List.not_mem_nil, or_false] at h
    rcases h with rfl | rfl
    · have hkept : dropLeadingOf "for" ("while" ++ (" " ++ words)) = "while" ++ (" " ++ words) := by
        refine dropLeading_of_head fun c hc => ?_
        rw [String.toList_append] at hc
        cases hc
        decide
      rw [hkept, dropLeadingOf_blank (by decide) (by decide)]
    · rw [dropLeadingOf_blank (by decide) (by decide)]
      refine dropLeading_of_head fun c hc => ?_
      rw [String.toList_append] at hc
      cases hc
      decide
  rw [Graph.loopText, hdrop, append_blank]
  rfl

theorem outputText_eq {e : Expr} (hfirm : e.Firm) {text : String}
    (h : (Piece.stmt (.giveBack (some e))).text = .ok text) :
    ∃ words, (Piece.expr e).print = .ok words ∧
      outputText (dropLeadingOf "return" text) = "output:  " ++ words := by
  obtain ⟨printed, hprinted, rfl⟩ := map_eq_ok.1 h
  obtain ⟨value, hvalue, hprint⟩ := bind_eq_ok.1 hprinted
  obtain ⟨words, hwords, hvalue⟩ := bind_eq_ok.1 hvalue
  cases hvalue
  cases hprint
  refine ⟨words, hwords, ?_⟩
  have hlast : ∀ c ∈ ("return" ++ (" " ++ words)).toList.getLast?, isBlank c = false :=
    fun c hc =>
      (last_of_firm (((hfirm false _ (Nat.le_refl _) words hwords).append _).append _) c hc).1
  have hstrip : strip (fill 0 ("return" ++ (" " ++ words))) = "return" ++ (" " ++ words) := by
    have hcut := strip_fill ⟨'r', by simp, by decide⟩ hlast ""
    rw [String.append_empty] at hcut
    exact hcut.trans String.append_empty
  change "output: " ++ dropLeadingOf "return" (strip (fill 0 ("return" ++ (" " ++ words)))) = _
  rw [hstrip, dropLeadingOf_blank (by decide) (by decide), ← String.append_assoc]
  rfl

theorem Case.Firm.body {c : Case} (h : c.Firm) : FirmAll c.body := by
  induction c using Case.body.induct with
  | case1 pattern guard body => exact h
  | case2 part c ih => exact ih h

theorem Stmt.Firm.suite {s : Stmt} (h : s.Firm) {suite : List Stmt} (hsuite : suite ∈ s.suites) :
    FirmAll suite := by
  induction s using Stmt.suites.induct with
  | case1 line name params body decorators result =>
    rw [List.mem_singleton.1 hsuite]
    exact h
  | case2 target source body orelse =>
    rw [List.mem_singleton.1 hsuite]
    exact h.2
  | case3 test body orelse =>
    rw [List.mem_singleton.1 hsuite]
    exact h.2
  | case4 test body orelse =>
    simp only [Stmt.suites, List.mem_cons, List.not_mem_nil, or_false] at hsuite
    rcases hsuite with rfl | rfl
    · exact h.2.1
    · exact h.2.2
  | case5 subject cases =>
    obtain ⟨c, hc, rfl⟩ := List.mem_map.1 hsuite
    exact (firmCases_iff.1 h c hc).body
  | case6 part s ih => exact ih h hsuite
  | case7 s h1 h2 h3 h4 h5 h6 =>
    rw [Stmt.suites.eq_7 s h1 h2 h3 h4 h5 h6] at hsuite
    cases hsuite

theorem firm_of_stmtAt {pieces : List Piece} (h : ∀ p ∈ pieces, p.Firm) {path : List Nat} {s : Stmt}
    (hfound : stmtAt pieces path = some s) : s.Firm := by
  induction path using stmtAt.induct generalizing s with
  | case1 => cases hfound
  | case2 j =>
    obtain ⟨p, hp, hs⟩ := Option.bind_eq_some_iff.1 hfound
    have hfirm := h p (List.mem_of_getElem? hp)
    cases p with
    | stmt s' =>
      cases hs
      exact hfirm
    | _ => cases hs
  | case3 i k path ih =>
    obtain ⟨s', hs', hfound⟩ := Option.bind_eq_some_iff.1 hfound
    obtain ⟨suite, hsuite, hs⟩ := Option.bind_eq_some_iff.1 hfound
    exact firmAll_iff.1 ((ih hs').suite (List.mem_of_getElem? hsuite)) s (List.mem_of_getElem? hs)

end CodeChart.Code

namespace CodeChart.Chart

open CodeChart.Graph Code CodeChart.Chart.Flow

/-- Whether a flow is the one box of a test and its suite. -/
def Flow.isMerged {V : Type} : Flow V → Bool
  | .merged .. => true
  | _ => false

/-- The suite is drawn as one node: a plain statement alone, or a jump, behind which nothing is
reached. -/
def DrawnAsNode (options : Options) (suite : List Stmt) (b : Box) : Prop :=
  ∃ first rest, suite = first :: rest ∧
    (outline options (.stmt first) [] first = .ok (.step b) ∧ rest = [] ∨
      outline options (.stmt first) [] first = .ok (.jump b))

/-- What a branch or a loop with the given condition says. Drawn as a test it says its keyword and
the condition; drawn together with its suite it says the text of the suite's node and the
condition. -/
def Worded (options : Options) (path : List Nat) (s : Stmt) (words : String) (n : Definition) :
    Prop :=
  if (layout options.simplify path s).isMerged then
    n.word = "operation" ∧ ∃ suite b, s.suites.head? = some suite ∧ DrawnAsNode options suite b ∧
      n.text = b.text ++ (if s.isBranch then " if  " else " while  ") ++ words
  else n.word = "condition" ∧ n.text = s.keyword ++ " " ++ words

theorem align_eq_plain {t u : Flow Box} (hu : u.isPlain = true) (h : t.align = u) : t = u := by
  cases t with
  | branch test body orelse =>
    subst h
    cases hu
  | _ => exact h

/-- A suite whose first flow is drawn as a plain node begins with the statement of that node. -/
theorem outlines_of_arrange {options : Options} {ss : List Stmt} {us vs : List (Flow Box)}
    {v : Flow Box} (hus : outlines options ss = .ok us) (harrange : arrange options us = v :: vs)
    (hv : v.isPlain = true) :
    ∃ first rest, ss = first :: rest ∧ outline options (.stmt first) [] first = .ok v ∧
      (vs = [] → rest = []) := by
  cases ss with
  | nil =>
    cases hus
    unfold arrange at harrange
    split at harrange <;> cases harrange
  | cons first rest =>
    obtain ⟨u, us, hu, hrest, rfl⟩ := bind₂_eq_ok.1 hus
    have hhead := getElem?_arrange options (u :: us) 0
    rw [harrange] at hhead
    have huv : u = v := by
      injection hhead with hhead
      split at hhead
      · exact align_eq_plain hv hhead.symm
      · exact hhead.symm
    refine ⟨first, rest, rfl, huv ▸ hu, fun hvs => ?_⟩
    have hnext := getElem?_arrange options (u :: us) 1
    rw [harrange, hvs] at hnext
    by_contra hne
    obtain ⟨w, ws, rfl⟩ := List.exists_cons_of_ne_nil (outlines_ne_nil hne hrest)
    cases hnext

theorem loopFlow_cases (o : Options) (test : Box) (us : List (Flow Box)) :
    loopFlow o test us = .loop test us ∨
      ∃ b, us = [.step b] ∧
        loopFlow o test us = .merged false ⟨some .operation, loopText b.text test.text, []⟩ := by
  unfold loopFlow
  split
  · exact .inr ⟨_, rfl, rfl⟩
  · exact .inl rfl

section

variable {options : Options} {pieces : List Piece} {box : Spot → Box}
  {path : List Nat} {t : Flow Spot}

theorem Stands.jointBranch {test : Expr} {body orelse : List Stmt}
    (h : Stands options pieces box path (.branch test body orelse) t) (ht : t.isMerged = true) :
    ∃ header b, (Piece.stmt (.branch test body orelse)).header = .ok header ∧
      DrawnAsNode (optionsAt options pieces path) body b ∧
      box ⟨path, 0⟩ = ⟨some .operation, branchText b.text header, []⟩ := by
  obtain ⟨u, hu, hbox⟩ := h.shown
  obtain ⟨header, us, vs, hheader, hus, -, rfl⟩ := outline_branch_ok hu
  have hlaid := h.laid
  rw [layout] at hlaid
  rcases ofBranch_cases (optionsAt options pieces path).simplify ⟨path, 0⟩ _ _ with hof | ⟨-, hof⟩
  · rw [hlaid, hof] at ht
    cases ht
  · rw [hlaid, hof] at hbox
    rcases branchFlow_cases (optionsAt options pieces path) ⟨none, header, []⟩ _ _ with
      hflow | ⟨b, harrange, hflow⟩
    · rw [hflow, align_branch] at hbox
      cases hbox
    · have hsame : ∀ b, (Flow.merged true b : Flow Box).align = .merged true b := fun _ => rfl
      rw [hflow, hsame, ite_self] at hbox
      injection hbox with _ hbox
      refine ⟨header, b, hheader, ?_, hbox⟩
      rcases harrange with harrange | ⟨more, harrange⟩
      · obtain ⟨first, rest, hbody, hfirst, hrest⟩ := outlines_of_arrange hus harrange rfl
        exact ⟨first, rest, hbody, .inl ⟨hfirst, hrest rfl⟩⟩
      · obtain ⟨first, rest, hbody, hfirst, -⟩ := outlines_of_arrange hus harrange rfl
        exact ⟨first, rest, hbody, .inr hfirst⟩

theorem Stands.jointLoop {s : Stmt} (h : Stands options pieces box path s t) (hs : s.isLoop = true)
    (ht : t.isMerged = true) :
    ∃ header body b, (Piece.stmt s).header = .ok header ∧ s.suites = [body] ∧
      DrawnAsNode (optionsAt options pieces path) body b ∧
      box ⟨path, 0⟩ = ⟨some .operation, loopText b.text header, []⟩ := by
  obtain ⟨body, hsuites, hproper, -, hlayout, houtline⟩ := loop_drawn h.proper hs
  obtain ⟨u, hu, hbox⟩ := h.shown
  rw [houtline] at hu
  obtain ⟨header, us, hheader, hus, rfl⟩ := bind₂_eq_ok.1 hu
  rw [orIdle_arrange hproper.1 hus] at hbox
  have hlaid := h.laid
  rw [hlayout] at hlaid
  rcases ofLoop_cases (optionsAt options pieces path).simplify ⟨path, 0⟩ _ with hof | ⟨-, hof⟩
  · rw [hlaid, hof] at ht
    cases ht
  · rw [hlaid, hof] at hbox
    rcases loopFlow_cases (optionsAt options pieces path) ⟨none, header, []⟩ _ with hflow |
        ⟨b, harrange, hflow⟩
    · rw [hflow, align_of_not_branch rfl, ite_self] at hbox
      cases hbox
    · rw [hflow, align_of_not_branch rfl, ite_self] at hbox
      injection hbox with _ hbox
      obtain ⟨first, rest, hbody, hfirst, hrest⟩ := outlines_of_arrange hus harrange rfl
      exact ⟨header, body, b, hheader, hsuites,
        ⟨first, rest, hbody, .inl ⟨hfirst, hrest rfl⟩⟩, hbox⟩

theorem Stands.output {e : Expr} (h : Stands options pieces box path (.giveBack (some e)) t) :
    ∃ text, (Piece.stmt (.giveBack (some e))).text = .ok text ∧
      (box ⟨path, 0⟩).text = outputText (Text.dropLeadingOf "return" text) := by
  obtain ⟨u, hu, hbox⟩ := h.shown
  obtain rfl := h.laid
  obtain ⟨text, htext, rfl⟩ := map_eq_ok.1 hu
  rw [align_of_not_branch rfl, ite_self] at hbox
  injection hbox with houtput _
  injection houtput with houtput
  exact ⟨text, htext, congrArg Box.text houtput⟩

end

section

variable {options : Options} {pieces : List Piece} {f : Spot → Named}
  {path : List Nat} {t : Flow Spot}

theorem Stands.wordedBranch {test : Expr} {body orelse : List Stmt}
    (h : Stands options pieces (fun v => (f v).box) path (.branch test body orelse) t)
    (hfirm : (Stmt.branch test body orelse).Firm) :
    ∃ words, (Stmt.branch test body orelse).condition = .ok words ∧ (Text.isOneLine words = true →
      Worded (optionsAt options pieces path) path (.branch test body orelse) words
        (f ⟨path, 0⟩).definition) := by
  obtain ⟨header, hheader, hdrawn⟩ := h.branch
  obtain ⟨words, hwords, hwhole⟩ := header_eq (.inl rfl) h.proper.whole hfirm hheader
  refine ⟨words, hwords, fun hline => ?_⟩
  obtain rfl := hwhole hline
  rw [Worded, ← h.laid, Named.definition]
  rcases hdrawn with ⟨-, ht, -⟩ | ⟨ht, hbox, -⟩
  · have hmerged : t.isMerged = true := by
      rw [ht]
      rfl
    obtain ⟨header, b, hheader', hnode, hbox⟩ := h.jointBranch hmerged
    obtain rfl := Except.ok.inj (hheader.symm.trans hheader')
    rw [if_pos hmerged, hbox]
    exact ⟨rfl, body, b, rfl, hnode, branchText_eq b.text words⟩
  · have hmerged : ¬t.isMerged = true := by
      rw [ht]
      simp [Flow.isMerged]
    rw [if_neg hmerged, hbox]
    exact ⟨rfl, rfl⟩

theorem keyword_of_isLoop {s : Stmt} (hwhole : s.Whole) (hs : s.isLoop = true) :
    s.keyword ∈ ["while", "for"] ∧ s.isBranch = false := by
  cases s with
  | forEach isAsync target source body orelse =>
    have hkeyword : "for" ∈ ["while", "for"] := by decide
    exact ⟨hkeyword, rfl⟩
  | whileTrue test body orelse =>
    have hkeyword : "while" ∈ ["while", "for"] := by decide
    exact ⟨hkeyword, rfl⟩
  | lacking part s => exact hwhole.elim
  | _ => cases hs

theorem Stands.wordedLoop {s : Stmt} (h : Stands options pieces (fun v => (f v).box) path s t)
    (hs : s.isLoop = true) (hfirm : s.Firm) :
    ∃ words, s.condition = .ok words ∧ (Text.isOneLine words = true →
      Worded (optionsAt options pieces path) path s words (f ⟨path, 0⟩).definition) := by
  obtain ⟨_, header, -, -, hheader, hdrawn⟩ := h.loop hs
  obtain ⟨words, hwords, hwhole⟩ := header_eq (.inr hs) h.proper.whole hfirm hheader
  obtain ⟨hkeyword, hbranch⟩ := keyword_of_isLoop h.proper.whole hs
  refine ⟨words, hwords, fun hline => ?_⟩
  obtain rfl := hwhole hline
  rw [Worded, ← h.laid, Named.definition]
  rcases hdrawn with ⟨-, ht⟩ | ⟨ht, hbox, -⟩
  · have hmerged : t.isMerged = true := by
      rw [ht]
      rfl
    obtain ⟨header, body, b, hheader', hsuites, hnode, hbox⟩ := h.jointLoop hs hmerged
    obtain rfl := Except.ok.inj (hheader.symm.trans hheader')
    rw [if_pos hmerged, hbox, hbranch, hsuites]
    exact ⟨rfl, body, b, rfl, hnode, loopText_eq hkeyword b.text words⟩
  · have hmerged : ¬t.isMerged = true := by
      rw [ht]
      simp [Flow.isMerged]
    rw [if_neg hmerged, hbox]
    exact ⟨rfl, rfl⟩

end

/-- The texts of a chart keep expressions whole. Let a branch or a loop have a condition of one
line, which is written between its keyword and its colon. Drawn as a test, it says exactly the
keyword, a blank and the condition; drawn together with its suite, it says exactly the text of the
suite's node, the keyword `if` or `while` and the condition. The output of a value says exactly the
text of the value. -/
theorem expressions_whole (source : Source) {pieces : List Piece}
    (hpieces : source.pieces = .ok pieces) {σ : Store} (hσ : σ.Sound) :
    Realizes σ source.draw (outlinePieces source.options pieces) fun text _ flows => ∃ f d,
      text = d.text ∧
      Portrays (layoutPieces source.options.simplify 0 pieces) (arrange source.options flows) f d ∧
      (∀ path s, stmtAt pieces path = some s → s.isBranch = true ∨ s.isLoop = true →
        ⟨path, 0⟩ ∈ placesAll (layoutPieces source.options.simplify 0 pieces) →
        ∃ words, s.condition = .ok words ∧ (Text.isOneLine words = true →
          Worded (optionsAt source.options pieces path) path s words (f ⟨path, 0⟩).definition)) ∧
      ∀ path s e, stmtAt pieces path = some s → s.given? = some e →
        ⟨path, 0⟩ ∈ placesAll (layoutPieces source.options.simplify 0 pieces) →
        ∃ words, (Piece.expr e).print = .ok words ∧
          (f ⟨path, 0⟩).definition.text = "output:  " ++ words := by
  obtain ⟨-, hproper⟩ := pieces_proper hpieces
  have hfirm := pieces_firm hpieces
  refine (draw_realizes hpieces hσ).mono fun text τ flows hus hpost => ?_
  obtain ⟨f, d, htext, hportrays⟩ := hpost
  refine ⟨f, d, htext, hportrays, ?_, ?_⟩
  · intro path s hfound hs hplace
    have hselect : s.isSelection = false := hs.elim isSelection_of_isBranch isSelection_of_isLoop
    obtain ⟨t, -, hstands⟩ := stands_of_place hproper hus hportrays.boxes hfound hselect hplace
    have hs' := firm_of_stmtAt hfirm hfound
    rcases hs with hs | hs
    · cases s with
      | branch test body orelse => exact hstands.wordedBranch hs'
      | lacking part s => exact hstands.proper.whole.elim
      | _ => cases hs
    · exact hstands.wordedLoop hs hs'
  · intro path s e hfound hgiven hplace
    cases s with
    | giveBack value =>
      obtain rfl : value = some e := hgiven
      obtain ⟨t, -, hstands⟩ := stands_of_place hproper hus hportrays.boxes hfound rfl hplace
      obtain ⟨text, htext, hbox⟩ := hstands.output
      have he : e.Firm := firm_of_stmtAt hfirm hfound e rfl
      obtain ⟨words, hwords, houtput⟩ := outputText_eq he htext
      exact ⟨words, hwords, hbox.trans houtput⟩
    | _ => cases hgiven

/-- A loop, a branch and a value that begin with letters of their keywords, two of them with a
slice. -/
def slicedHeads : Source where
  code := "def f(x):\n    while whi[1:]:\n        x\n    if fi[:2]:\n        return return_\n"

/-- The loop is drawn together with its suite, the branch as a test. -/
theorem expressions_whole_sliced : ∃ pieces flows f d τ, slicedHeads.pieces = .ok pieces ∧
    slicedHeads.draw {} = .ok d.text τ ∧ Portrays (layoutPieces true 0 pieces) flows f d ∧
    (f ⟨[0, 0, 0], 0⟩).definition.text = "x while  whi[1:]" ∧
    (f ⟨[1, 0, 0], 0⟩).definition.text = "if fi[:2]" ∧
    (f ⟨[0, 0, 1, 0, 0], 0⟩).definition.text = "output:  return_" := by
  have hfound : slicedHeads.pieces.toOption.any (fun pieces =>
      (outlinePieces slicedHeads.options pieces).toOption.any (fun _ => true) &&
      decide (⟨[0, 0, 0], 0⟩ ∈ placesAll (layoutPieces slicedHeads.options.simplify 0 pieces)) &&
      decide (⟨[1, 0, 0], 0⟩ ∈ placesAll (layoutPieces slicedHeads.options.simplify 0 pieces)) &&
      decide (⟨[0, 0, 1, 0, 0], 0⟩ ∈ placesAll
        (layoutPieces slicedHeads.options.simplify 0 pieces)) &&
      ((stmtAt pieces [0, 0, 0]).any fun s => s.isLoop && !s.isBranch &&
        (s.condition.toOption.any fun words => decide (words = "whi[1:]")) &&
        (layout (optionsAt slicedHeads.options pieces [0, 0, 0]).simplify [0, 0, 0] s).isMerged &&
        s.suites.all fun suite => suite.all fun first =>
          (outline (optionsAt slicedHeads.options pieces [0, 0, 0]) (.stmt first) []
            first).toOption.any
            fun u => decide (u.entry.text = "x")) &&
      ((stmtAt pieces [1, 0, 0]).any fun s => s.isBranch && decide (s.keyword = "if") &&
        (s.condition.toOption.any fun words => decide (words = "fi[:2]")) &&
        !(layout (optionsAt slicedHeads.options pieces [1, 0, 0]).simplify [1, 0, 0] s).isMerged) &&
      ((stmtAt pieces [0, 0, 1, 0, 0]).any fun s => s.given?.any fun e =>
        (Piece.expr e).print.toOption.any fun words => decide (words = "return_"))) = true := by
    decide +kernel
  obtain ⟨pieces, hpieces, hfound⟩ := exists_ok_of_any hfound
  simp only [Bool.and_eq_true, decide_eq_true_eq] at hfound
  obtain ⟨⟨⟨⟨⟨⟨hspec, hplaceLoop⟩, hplaceBranch⟩, hplaceValue⟩, hloop⟩, hbranch⟩, hvalue⟩ := hfound
  obtain ⟨flows, hspec, -⟩ := exists_ok_of_any hspec
  have hdraw := expressions_whole slicedHeads hpieces sound_empty
  rw [hspec] at hdraw
  obtain ⟨_, τ, hdraw, f, d, rfl, hportrays, htests, hvalues⟩ := hdraw
  refine ⟨pieces, _, f, d, τ, hpieces, hdraw, hportrays, ?_, ?_, ?_⟩
  · obtain ⟨s, hs, hloop⟩ := (Option.any_eq_true _ _).1 hloop
    simp only [Bool.and_eq_true, Bool.not_eq_true', List.all_eq_true] at hloop
    obtain ⟨⟨⟨⟨hloop, hbranch⟩, hwords⟩, hmerged⟩, hsuites⟩ := hloop
    obtain ⟨words, hwords, hline⟩ := exists_ok_of_any hwords
    obtain rfl := of_decide_eq_true hline
    obtain ⟨_, hcondition, htext⟩ := htests _ s hs (.inr hloop) hplaceLoop
    obtain rfl := Except.ok.inj (hwords.symm.trans hcondition)
    have htext := htext (by decide)
    rw [Worded, if_pos hmerged, hbranch] at htext
    obtain ⟨-, suite, b, hsuite, ⟨first, rest, rfl, hfirst⟩, htext⟩ := htext
    obtain ⟨u, hu, hb⟩ := exists_ok_of_any (hsuites _ (List.mem_of_head? hsuite) first (by simp))
    have hb' : b.text = "x" := by
      rcases hfirst with ⟨hfirst, -⟩ | hfirst
      · obtain rfl := Except.ok.inj (hu.symm.trans hfirst)
        exact of_decide_eq_true hb
      · obtain rfl := Except.ok.inj (hu.symm.trans hfirst)
        exact of_decide_eq_true hb
    rw [htext, hb']
    decide
  · obtain ⟨s, hs, hbranch⟩ := (Option.any_eq_true _ _).1 hbranch
    simp only [Bool.and_eq_true, Bool.not_eq_true', decide_eq_true_eq] at hbranch
    obtain ⟨⟨⟨hbranch, hkeyword⟩, hwords⟩, hmerged⟩ := hbranch
    obtain ⟨words, hwords, hline⟩ := exists_ok_of_any hwords
    obtain rfl := of_decide_eq_true hline
    obtain ⟨_, hcondition, htext⟩ := htests _ s hs (.inl hbranch) hplaceBranch
    obtain rfl := Except.ok.inj (hwords.symm.trans hcondition)
    have htext := htext (by decide)
    rw [Worded, if_neg (by simp [hmerged]), hkeyword] at htext
    rw [htext.2]
    decide
  · obtain ⟨s, hs, hvalue⟩ := (Option.any_eq_true _ _).1 hvalue
    obtain ⟨e, he, hvalue⟩ := (Option.any_eq_true _ _).1 hvalue
    obtain ⟨words, hwords, hline⟩ := exists_ok_of_any hvalue
    obtain rfl := of_decide_eq_true hline
    obtain ⟨_, hprint, htext⟩ := hvalues _ s e hs he hplaceValue
    obtain rfl := Except.ok.inj (hwords.symm.trans hprint)
    rw [htext]
    decide

end CodeChart.Chart
