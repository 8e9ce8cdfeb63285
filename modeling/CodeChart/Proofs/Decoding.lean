import CodeChart.Proofs.Rendering
import CodeChart.Proofs.Splitting

/-! Reading the text of a chart back. A definition and a connection are each read from one line, and
a line is read exactly if it is the line of something plain: names, words and parameters without any
of the characters that stand between them. Two readers take a whole text apart: one expects every
definition in one line, the other lets the text of a node go on in further lines. Main statements:
each gives a plain drawing back exactly if the texts of its nodes allow it, and the connections are
read in any case. -/
namespace CodeChart.Graph

def isWord (p : Char → Bool) (cs : List Char) : Bool := !cs.isEmpty && cs.all p

theorem isWord_iff {p : Char → Bool} {cs : List Char} :
    isWord p cs = true ↔ cs ≠ [] ∧ ∀ c ∈ cs, p c = true := by
  simp [isWord]

theorem not_mem_of_isWord {p : Char → Bool} {cs : List Char} (h : isWord p cs = true) {c : Char}
    (hc : p c = false) : c ∉ cs := by
  intro hmem
  rw [(isWord_iff.1 h).2 c hmem] at hc
  cases hc

def word? (p : Char → Bool) (cs : List Char) : Option String :=
  if isWord p cs then some (String.ofList cs) else none

/-- The longest word at the front, and what follows it. -/
def takeWord? (p : Char → Bool) (cs : List Char) : Option (String × List Char) :=
  (word? p (cs.takeWhile p)).map fun w => (w, cs.dropWhile p)

theorem word?_eq_some_iff {p : Char → Bool} {cs : List Char} {w : String} :
    word? p cs = some w ↔ isWord p w.toList = true ∧ cs = w.toList := by
  unfold word?
  constructor
  · intro h
    split at h
    · cases h
      simpa using ‹isWord p cs = true›
    · cases h
  · rintro ⟨hw, rfl⟩
    rw [if_pos hw, String.ofList_toList]

theorem span_exact {α : Type} {p : α → Bool} {front : List α} (hall : ∀ a ∈ front, p a = true)
    (rest : List α) (hstop : ∀ a ∈ rest.head?, p a = false) :
    (front ++ rest).takeWhile p = front ∧ (front ++ rest).dropWhile p = rest := by
  rw [List.takeWhile_append_of_pos hall, List.dropWhile_append_of_pos hall]
  cases rest with
  | nil => simp
  | cons c rest => simp [hstop c rfl]

theorem takeWord?_eq_some_iff {p : Char → Bool} {cs : List Char} {r : String × List Char} :
    takeWord? p cs = some r ↔
      isWord p r.1.toList = true ∧ (∀ c ∈ r.2.head?, p c = false) ∧ cs = r.1.toList ++ r.2 := by
  unfold takeWord?
  constructor
  · intro h
    obtain ⟨w', hw, h⟩ := Option.map_eq_some_iff.1 h
    cases h
    obtain ⟨hword, hfront⟩ := word?_eq_some_iff.1 hw
    refine ⟨hword, fun c hc => ?_, by rw [← hfront, List.takeWhile_append_dropWhile]⟩
    have hstop := List.head?_dropWhile_not p cs
    rw [Option.mem_def.1 hc] at hstop
    exact hstop
  · rintro ⟨hword, hstop, rfl⟩
    obtain ⟨hfront, hrest⟩ := span_exact (isWord_iff.1 hword).2 _ hstop
    rw [hfront, hrest, word?_eq_some_iff.2 ⟨hword, rfl⟩]
    rfl

/-- Items in parentheses with commas between them; without items there are no parentheses. -/
def listed {α : Type} (chars : α → List Char) (items : List α) : List Char :=
  if items.isEmpty then [] else '(' :: ([','].intercalate (items.map chars) ++ [')'])

/-- The items in parentheses at the front, if there are parentheses, and what follows. -/
def takeListed? {α : Type} (item? : List Char → Option α) : List Char → Option (List α × List Char)
  | '(' :: rest =>
    match rest.dropWhile (· ≠ ')') with
    | [] => none
    | _ :: after => (((rest.takeWhile (· ≠ ')')).splitOn ',').mapM item?).map (·, after)
  | rest => some ([], rest)

theorem mem_intercalate {sep c : Char} {ls : List (List Char)} (h : c ∈ [sep].intercalate ls) :
    c = sep ∨ ∃ l ∈ ls, c ∈ l := by
  induction ls with
  | nil => simp at h
  | cons l rest ih =>
    cases rest with
    | nil => exact .inr ⟨l, List.mem_cons_self, by simpa using h⟩
    | cons l' rest =>
      rw [List.intercalate_cons_cons, List.mem_append, List.mem_append, List.mem_singleton] at h
      rcases h with (h | h) | h
      · exact .inr ⟨l, List.mem_cons_self, h⟩
      · exact .inl h
      · exact (ih h).imp_right fun ⟨m, hm, hc⟩ => ⟨m, List.mem_cons_of_mem l hm, hc⟩

section

variable {α : Type} {item? : List Char → Option α}

theorem takeListed?_of_head_ne {cs : List Char} (h : cs.head? ≠ some '(') :
    takeListed? item? cs = some ([], cs) := by
  unfold takeListed?
  split
  · exact absurd rfl h
  · rfl

theorem takeListed?_closed {inside after : List Char} (h : ')' ∉ inside) :
    takeListed? item? ('(' :: (inside ++ ')' :: after)) =
      ((inside.splitOn ',').mapM item?).map (·, after) := by
  have hinside : ∀ c ∈ inside, decide (c ≠ ')') = true := fun c hc =>
    decide_eq_true fun heq => h (heq ▸ hc)
  obtain ⟨htake, hdrop⟩ := span_exact hinside (')' :: after) (by simp)
  rw [takeListed?, htake, hdrop]

variable {good : α → Prop} {chars : α → List Char}
  (hitem : ∀ cs a, item? cs = some a ↔ good a ∧ cs = chars a)
include hitem

theorem mapM_eq_some_iff {ls : List (List Char)} {items : List α} :
    ls.mapM item? = some items ↔ (∀ a ∈ items, good a) ∧ ls = items.map chars := by
  induction ls generalizing items with
  | nil => cases items <;> simp
  | cons l rest ih =>
    rw [List.mapM_cons]
    constructor
    · intro h
      obtain ⟨a, ha, h⟩ := Option.bind_eq_some_iff.1 h
      obtain ⟨others, hothers, h⟩ := Option.bind_eq_some_iff.1 h
      cases h
      obtain ⟨hgood, rfl⟩ := (hitem l a).1 ha
      obtain ⟨hall, rfl⟩ := ih.1 hothers
      exact ⟨List.forall_mem_cons.2 ⟨hgood, hall⟩, rfl⟩
    · rintro ⟨hall, hls⟩
      cases items with
      | nil => cases hls
      | cons a others =>
        obtain ⟨rfl, hrest⟩ := List.cons.inj hls
        obtain ⟨hgood, hall⟩ := List.forall_mem_cons.1 hall
        rw [(hitem _ a).2 ⟨hgood, rfl⟩, ih.2 ⟨hall, hrest⟩]
        rfl

theorem takeListed?_eq_some_iff (hcomma : ∀ a, good a → ',' ∉ chars a)
    (hclose : ∀ a, good a → ')' ∉ chars a)
    {cs : List Char} {r : List α × List Char} :
    takeListed? item? cs = some r ↔
      (∀ a ∈ r.1, good a) ∧ (r.1 = [] → r.2.head? ≠ some '(') ∧ cs = listed chars r.1 ++ r.2 := by
  obtain ⟨items, rest⟩ := r
  constructor
  · intro h
    by_cases hhead : cs.head? = some '('
    · obtain ⟨tail, rfl⟩ := List.head?_eq_some_iff.1 hhead
      rw [takeListed?] at h
      split at h
      · cases h
      · rename_i c after hdrop
        obtain ⟨as, has, h⟩ := Option.map_eq_some_iff.1 h
        cases h
        obtain ⟨hgood, hsplit⟩ := (mapM_eq_some_iff hitem).1 has
        have hc : c = ')' := by
          have hstop := List.head?_dropWhile_not (fun x : Char => decide (x ≠ ')')) tail
          rw [hdrop] at hstop
          simpa using hstop
        have hne : items ≠ [] := by
          rintro rfl
          exact List.splitOn_ne_nil _ _ hsplit
        have hinside : tail.takeWhile (· ≠ ')') = [','].intercalate (items.map chars) := by
          rw [← hsplit, List.intercalate_splitOn]
        refine ⟨hgood, fun hempty => absurd hempty hne, ?_⟩
        subst hc
        rw [listed, if_neg (by simpa using hne), ← hinside, List.cons_append, List.append_assoc,
          List.singleton_append, ← hdrop, List.takeWhile_append_dropWhile]
    · rw [takeListed?_of_head_ne hhead] at h
      cases h
      exact ⟨by simp, fun _ => hhead, rfl⟩
  · rintro ⟨hgood, hhead, rfl⟩
    by_cases hempty : items = []
    · subst hempty
      exact takeListed?_of_head_ne (hhead rfl)
    · have hinside : ')' ∉ [','].intercalate (items.map chars) := by
        intro hmem
        rcases mem_intercalate hmem with heq | ⟨l, hl, hmem⟩
        · exact absurd heq (by decide)
        · obtain ⟨a, ha, rfl⟩ := List.mem_map.1 hl
          exact hclose a (hgood a ha) hmem
      have hsplit : ([','].intercalate (items.map chars)).splitOn ',' = items.map chars := by
        refine List.splitOn_intercalate ',' ?_ (by simpa using hempty)
        intro l hl
        obtain ⟨a, ha, rfl⟩ := List.mem_map.1 hl
        exact hcomma a (hgood a ha)
      rw [listed, if_neg (by simpa using hempty), List.cons_append, List.append_assoc,
        List.singleton_append,
        takeListed?_closed hinside, hsplit, (mapM_eq_some_iff hitem).2 ⟨hgood, rfl⟩]
      rfl

end

def isKeyChar (c : Char) : Bool := c.isAlphanum || c = '-'

def paramChars (p : String × String) : List Char := p.1.toList ++ '=' :: p.2.toList

/-- A key and a value with an equals sign between them. -/
def param? (cs : List Char) : Option (String × String) := do
  let key ← takeWord? isKeyChar cs
  let rest ← ['='].isPrefixOf? key.2
  let value ← word? Char.isAlphanum rest
  return (key.1, value)

structure Definition.Plain (d : Definition) : Prop where
  name : isWord Char.isAlphanum d.name.toList = true
  params : ∀ p ∈ d.params, isWord isKeyChar p.1.toList = true ∧
    isWord Char.isAlphanum p.2.toList = true
  word : isWord Char.isAlpha d.word.toList = true

/-- What stands before the text of a definition. -/
def Definition.head (d : Definition) : List Char :=
  d.name.toList ++ (listed paramChars d.params ++ ("=>".toList ++ (d.word.toList ++ ": ".toList)))

def Definition.ofLine? (line : List Char) : Option Definition := do
  let name ← takeWord? Char.isAlphanum line
  let params ← takeListed? param? name.2
  let rest ← "=>".toList.isPrefixOf? params.2
  let word ← takeWord? Char.isAlpha rest
  let text ← ": ".toList.isPrefixOf? word.2
  return ⟨name.1, params.1, word.1, String.ofList text⟩

structure Line.Plain (k : Line) : Prop where
  source : isWord Char.isAlphanum k.source.toList = true
  labels : ∀ l ∈ k.labels, isWord Char.isAlphanum l.toList = true
  target : isWord Char.isAlphanum k.target.toList = true

def Line.chars (k : Line) : List Char :=
  k.source.toList ++ (listed String.toList k.labels ++ ("->".toList ++ k.target.toList))

def Line.ofLine? (line : List Char) : Option Line := do
  let source ← takeWord? Char.isAlphanum line
  let labels ← takeListed? (word? Char.isAlphanum) source.2
  let rest ← "->".toList.isPrefixOf? labels.2
  let target ← word? Char.isAlphanum rest
  return ⟨source.1, labels.1, target⟩

theorem param?_eq_some_iff (cs : List Char) (p : String × String) : param? cs = some p ↔
    (isWord isKeyChar p.1.toList = true ∧ isWord Char.isAlphanum p.2.toList = true) ∧
      cs = paramChars p := by
  unfold param?
  constructor
  · intro h
    obtain ⟨key, htake, h⟩ := Option.bind_eq_some_iff.1 h
    obtain ⟨rest, hequals, h⟩ := Option.bind_eq_some_iff.1 h
    obtain ⟨value, hread, h⟩ := Option.bind_eq_some_iff.1 h
    cases h
    obtain ⟨hkey, -, hcs⟩ := takeWord?_eq_some_iff.1 htake
    obtain ⟨hvalue, hrest⟩ := word?_eq_some_iff.1 hread
    rw [← List.isPrefixOf?_eq_some_iff_append_eq.1 hequals, hrest] at hcs
    exact ⟨⟨hkey, hvalue⟩, hcs⟩
  · rintro ⟨⟨hkey, hvalue⟩, rfl⟩
    have hword : takeWord? isKeyChar (paramChars p) = some (p.1, '=' :: p.2.toList) :=
      takeWord?_eq_some_iff.2 ⟨hkey, by simp [isKeyChar], rfl⟩
    have hequals : ['='].isPrefixOf? ('=' :: p.2.toList) = some p.2.toList :=
      List.isPrefixOf?_eq_some_iff_append_eq.2 rfl
    simp only [hword, hequals, Option.bind_eq_bind, Option.bind_some,
      word?_eq_some_iff.2 ⟨hvalue, rfl⟩]
    rfl

theorem takeParams?_eq_some_iff {cs : List Char} {r : List (String × String) × List Char} :
    takeListed? param? cs = some r ↔
      (∀ p ∈ r.1, isWord isKeyChar p.1.toList = true ∧ isWord Char.isAlphanum p.2.toList = true) ∧
      (r.1 = [] → r.2.head? ≠ some '(') ∧ cs = listed paramChars r.1 ++ r.2 := by
  refine takeListed?_eq_some_iff param?_eq_some_iff (fun p hp => ?_) fun p hp => ?_
  · simp [paramChars, not_mem_of_isWord hp.1 (c := ',') (by decide), not_mem_of_isWord hp.2
      (c := ',') (by decide)]
  · simp [paramChars, not_mem_of_isWord hp.1 (c := ')') (by decide), not_mem_of_isWord hp.2
      (c := ')') (by decide)]

theorem takeLabels?_eq_some_iff {cs : List Char} {r : List String × List Char} :
    takeListed? (word? Char.isAlphanum) cs = some r ↔
      (∀ l ∈ r.1, isWord Char.isAlphanum l.toList = true) ∧
      (r.1 = [] → r.2.head? ≠ some '(') ∧ cs = listed String.toList r.1 ++ r.2 :=
  takeListed?_eq_some_iff (fun _ _ => word?_eq_some_iff) (fun l hl =>
    not_mem_of_isWord hl (by decide))
    fun l hl => not_mem_of_isWord hl (by decide)

theorem head?_after_name {α : Type} (chars : α → List Char) (items : List α) {rest : List Char}
    (h : ∀ c ∈ rest.head?, c.isAlphanum = false) :
    ∀ c ∈ (listed chars items ++ rest).head?, c.isAlphanum = false := by
  unfold listed
  split
  · exact h
  · intro c hc
    cases hc
    rfl

theorem Definition.ofLine?_eq_some_iff {line : List Char} {d : Definition} :
    Definition.ofLine? line = some d ↔ d.Plain ∧ line = d.head ++ d.text.toList := by
  unfold Definition.ofLine? Definition.head
  constructor
  · intro h
    obtain ⟨name, htake, h⟩ := Option.bind_eq_some_iff.1 h
    obtain ⟨params, hlist, h⟩ := Option.bind_eq_some_iff.1 h
    obtain ⟨rest, harrow, h⟩ := Option.bind_eq_some_iff.1 h
    obtain ⟨word, htake', h⟩ := Option.bind_eq_some_iff.1 h
    obtain ⟨text, hcolon, h⟩ := Option.bind_eq_some_iff.1 h
    cases h
    obtain ⟨hname, -, hline⟩ := takeWord?_eq_some_iff.1 htake
    obtain ⟨hparams, -, hafter⟩ := takeParams?_eq_some_iff.1 hlist
    obtain ⟨hword, -, hrest⟩ := takeWord?_eq_some_iff.1 htake'
    refine ⟨⟨hname, hparams, hword⟩, ?_⟩
    rw [hline, hafter, ← List.isPrefixOf?_eq_some_iff_append_eq.1 harrow, hrest,
      ← List.isPrefixOf?_eq_some_iff_append_eq.1 hcolon]
    simp
  · rintro ⟨hplain, rfl⟩
    have hword : takeWord? Char.isAlpha (d.word.toList ++ (": ".toList ++ d.text.toList)) =
        some (d.word, ": ".toList ++ d.text.toList) :=
      takeWord?_eq_some_iff.2 ⟨hplain.word, by simp, rfl⟩
    generalize hrest : d.word.toList ++ (": ".toList ++ d.text.toList) = rest at hword
    have hparams : takeListed? param? (listed paramChars d.params ++ ("=>".toList ++ rest)) =
        some (d.params, "=>".toList ++ rest) :=
      takeParams?_eq_some_iff.2 ⟨hplain.params, by simp, rfl⟩
    have hname :
        takeWord? Char.isAlphanum
        (d.name.toList ++ (listed paramChars d.params ++ ("=>".toList ++ rest))) =
        some (d.name, listed paramChars d.params ++ ("=>".toList ++ rest)) :=
      takeWord?_eq_some_iff.2 ⟨hplain.name, head?_after_name _ _ (by simp), rfl⟩
    rw [List.append_assoc, List.append_assoc, List.append_assoc, List.append_assoc, hrest, hname]
    simp only [Option.bind_eq_bind, Option.bind_some, hparams, hword,
      List.isPrefixOf?_eq_some_iff_append_eq.2 rfl, String.ofList_toList]
    rfl

theorem Line.ofLine?_eq_some_iff {line : List Char} {k : Line} :
    Line.ofLine? line = some k ↔ k.Plain ∧ line = k.chars := by
  unfold Line.ofLine? Line.chars
  constructor
  · intro h
    obtain ⟨source, htake, h⟩ := Option.bind_eq_some_iff.1 h
    obtain ⟨labels, hlist, h⟩ := Option.bind_eq_some_iff.1 h
    obtain ⟨rest, harrow, h⟩ := Option.bind_eq_some_iff.1 h
    obtain ⟨target, hread, h⟩ := Option.bind_eq_some_iff.1 h
    cases h
    obtain ⟨hsource, -, hline⟩ := takeWord?_eq_some_iff.1 htake
    obtain ⟨hlabels, -, hafter⟩ := takeLabels?_eq_some_iff.1 hlist
    obtain ⟨htarget, hrest⟩ := word?_eq_some_iff.1 hread
    refine ⟨⟨hsource, hlabels, htarget⟩, ?_⟩
    rw [hline, hafter, ← List.isPrefixOf?_eq_some_iff_append_eq.1 harrow, hrest]
  · rintro ⟨hplain, rfl⟩
    have hlabels : takeListed? (word? Char.isAlphanum)
        (listed String.toList k.labels ++ ("->".toList ++ k.target.toList)) =
        some (k.labels, "->".toList ++ k.target.toList) :=
      takeLabels?_eq_some_iff.2 ⟨hplain.labels, by simp, rfl⟩
    have hsource : takeWord? Char.isAlphanum
        (k.source.toList ++ (listed String.toList k.labels ++ ("->".toList ++ k.target.toList))) =
        some (k.source, listed String.toList k.labels ++ ("->".toList ++ k.target.toList)) :=
      takeWord?_eq_some_iff.2 ⟨hplain.source, head?_after_name _ _ (by simp), rfl⟩
    rw [hsource]
    simp only [Option.bind_eq_bind, Option.bind_some, hlabels,
      List.isPrefixOf?_eq_some_iff_append_eq.2 rfl, word?_eq_some_iff.2 ⟨hplain.target, rfl⟩]
    rfl

theorem not_mem_listed {α : Type} {chars : α → List Char} {items : List α} {c : Char}
    (hc : c ∉ ['(', ',', ')']) (h : ∀ a ∈ items, c ∉ chars a) : c ∉ listed chars items := by
  unfold listed
  split
  · exact List.not_mem_nil
  · simp only [List.mem_cons, List.not_mem_nil, or_false, not_or] at hc
    have hinside : c ∉ [','].intercalate (items.map chars) := by
      intro hmem
      rcases mem_intercalate hmem with rfl | ⟨l, hl, hmem⟩
      · exact hc.2.1 rfl
      · obtain ⟨a, ha, rfl⟩ := List.mem_map.1 hl
        exact h a ha hmem
    simp [hc.1, hc.2.2, hinside]

theorem Definition.Plain.one_line {d : Definition} (h : d.Plain) : '\n' ∉ d.head := by
  have hparams : '\n' ∉ listed paramChars d.params := by
    refine not_mem_listed (by decide) fun p hp => ?_
    obtain ⟨hkey, hvalue⟩ := h.params p hp
    simp [paramChars, not_mem_of_isWord hkey (c := '\n') (by decide),
      not_mem_of_isWord hvalue (c := '\n') (by decide)]
  simp [Definition.head, hparams, not_mem_of_isWord h.name (c := '\n') (by decide),
    not_mem_of_isWord h.word (c := '\n') (by decide)]

theorem Line.Plain.one_line {k : Line} (h : k.Plain) : '\n' ∉ k.chars := by
  have hlabels : '\n' ∉ listed String.toList k.labels :=
    not_mem_listed (by decide) fun l hl => not_mem_of_isWord (h.labels l hl) (by decide)
  simp [Line.chars, hlabels, not_mem_of_isWord h.source (c := '\n') (by decide),
    not_mem_of_isWord h.target (c := '\n') (by decide)]

theorem Line.Plain.chars_ne_nil {k : Line} (h : k.Plain) : k.chars ≠ [] := by
  simp [Line.chars, (isWord_iff.1 h.source).1]

/-- The lines of a text, each of which ends with a line break. -/
def linesOf (text : List Char) : List (List Char) := (text.splitOn '\n').dropLast

/-- The lines of a definition: those of its text, the first one after the head. -/
def Definition.lines (d : Definition) : List (List Char) :=
  (d.text.toList.splitOn '\n').modifyHead (d.head ++ ·)

def Definition.further (d : Definition) : List (List Char) := (d.text.toList.splitOn '\n').tail

structure Drawing.Plain (d : Drawing) : Prop where
  nodes : ∀ n ∈ d.nodes, n.Plain
  lines : ∀ k ∈ d.lines, k.Plain

theorem linesOf_append (cs rest : List Char) :
    linesOf (cs ++ '\n' :: rest) = cs.splitOn '\n' ++ linesOf rest := by
  rw [linesOf, List.splitOn_append_cons_self, List.dropLast_append_of_ne_nil
    (List.splitOn_ne_nil _ _)]
  rfl

theorem listed_paramChars (params : List (String × String)) :
    (pairsText params).toList = listed paramChars params := by
  rw [← paramsText_eq]
  unfold paramsText listed
  split
  · rfl
  · have hchars : (fun p : String × String => (p.1 ++ "=" ++ p.2).toList) = paramChars := by
      funext p
      simp [paramChars]
    simp [Function.comp_def, ← hchars]

theorem listed_toList (labels : List String) :
    (specText labels).toList = listed String.toList labels := by
  cases labels with
  | nil => rfl
  | cons l rest => simp [specText, listed]

theorem Definition.toList_line (d : Definition) :
    d.line.toList = d.head ++ d.text.toList ++ ['\n'] := by
  simp [Definition.line, Definition.head, listed_paramChars]

theorem Line.toList_text (k : Line) : k.text.toList = k.chars ++ ['\n'] := by
  simp [Line.text, Line.chars, listed_toList]

theorem linesOf_definitionsText {nodes : List Definition} (h : ∀ n ∈ nodes, n.Plain)
    (rest : List Char) :
    linesOf ((definitionsText nodes).toList ++ rest) = nodes.flatMap Definition.lines
      ++ linesOf rest := by
  induction nodes with
  | nil => rfl
  | cons n others ih =>
    obtain ⟨hn, hothers⟩ := List.forall_mem_cons.1 h
    have hcons : (definitionsText (n :: others)).toList ++ rest =
        (n.head ++ n.text.toList) ++ '\n' :: ((definitionsText others).toList ++ rest) := by
      simp [definitionsText, Definition.toList_line]
    rw [hcons, linesOf_append, ih hothers, Text.splitOn_append_of_not_mem hn.one_line,
      ← Definition.lines,
      List.flatMap_cons, List.append_assoc]

theorem linesOf_linesText {lines : List Line} (h : ∀ k ∈ lines, k.Plain) :
    linesOf (linesText lines).toList = lines.map Line.chars := by
  induction lines with
  | nil => rfl
  | cons k others ih =>
    obtain ⟨hk, hothers⟩ := List.forall_mem_cons.1 h
    have hcons : (linesText (k :: others)).toList
        = k.chars ++ '\n' :: (linesText others).toList := by
      simp [linesText, Line.toList_text]
    rw [hcons, linesOf_append, ih hothers, List.splitOn_eq_singleton hk.one_line]
    rfl

/-- The lines of the definitions, an empty line, and one line for each connection. -/
theorem Drawing.Plain.linesOf_text {d : Drawing} (h : d.Plain) : linesOf d.text.toList =
    d.nodes.flatMap Definition.lines ++ [] :: d.lines.map Line.chars := by
  have htext : d.text.toList = (definitionsText d.nodes).toList
      ++ ([] ++ '\n' :: (linesText d.lines).toList) := by
    simp [Drawing.text]
  rw [htext, linesOf_definitionsText h.nodes, linesOf_append, linesOf_linesText h.lines]
  rfl

/-- Reads a text line by line: up to the first empty line each line is a definition, and behind it
each line is a connection. -/
def Drawing.ofText? (text : String) : Option Drawing :=
  match (linesOf text.toList).dropWhile (· ≠ []) with
  | [] => none
  | _ :: after => do
    let nodes ← ((linesOf text.toList).takeWhile (· ≠ [])).mapM Definition.ofLine?
    let lines ← after.mapM Line.ofLine?
    return ⟨nodes, lines⟩

/-- Reads the connections behind the last empty line. -/
def Drawing.connections? (text : String) : Option (List Line) :=
  ((linesOf text.toList).reverse.takeWhile (· ≠ [])).reverse.mapM Line.ofLine?

/-- A definition whose text goes on in further lines. -/
def Definition.extend (d : Definition) (further : List (List Char)) : Definition :=
  { d with text := String.ofList (['\n'].intercalate (d.text.toList :: further)) }

/-- Reads definitions that may take several lines: a line that is no definition goes on with the
text of the one before it. The lines before the first definition are left over. -/
def Definition.collect : List (List Char) → List (List Char) × List Definition
  | [] => ([], [])
  | line :: rest =>
    match Definition.ofLine? line with
    | some d => ([], d.extend (collect rest).1 :: (collect rest).2)
    | none => (line :: (collect rest).1, (collect rest).2)

/-- Reads the definitions before the last empty line and the connections behind it. -/
def Drawing.gather? (text : String) : Option Drawing :=
  match (linesOf text.toList).reverse.dropWhile (· ≠ []) with
  | [] => none
  | _ :: before =>
    if (Definition.collect before.reverse).1 = [] then
      (Drawing.connections? text).map (⟨(Definition.collect before.reverse).2, ·⟩)
    else none

theorem Definition.collect_of_definition {line : List Char} {d : Definition}
    (h : Definition.ofLine? line = some d) (rest : List (List Char)) :
    Definition.collect (line :: rest) =
      ([], d.extend (Definition.collect rest).1 :: (Definition.collect rest).2) := by
  rw [Definition.collect, h]

theorem Definition.collect_append {further : List (List Char)}
    (h : ∀ line ∈ further, Definition.ofLine? line = none) (rest : List (List Char)) :
    Definition.collect (further ++ rest) =
      (further ++ (Definition.collect rest).1, (Definition.collect rest).2) := by
  induction further with
  | nil => rfl
  | cons line further ih =>
    obtain ⟨hline, hfurther⟩ := List.forall_mem_cons.1 h
    rw [List.cons_append, Definition.collect, hline, ih hfurther]
    rfl

theorem Definition.length_collect (lines : List (List Char)) :
    (Definition.collect lines).2.length = lines.countP fun line =>
      (Definition.ofLine? line).isSome := by
  induction lines with
  | nil => rfl
  | cons line rest ih =>
    cases h : Definition.ofLine? line with
    | none => simp [Definition.collect, h, ih]
    | some d => simp [Definition.collect, h, ih]

/-- The first line of a plain definition gives the definition without its further lines. -/
theorem Definition.Plain.lines_eq {d : Definition} (h : d.Plain) : ∃ line first,
    d.lines = line :: d.further ∧ Definition.ofLine? line = some first ∧
      first.extend d.further = d := by
  obtain ⟨front, further, hsplit⟩ :=
    List.exists_cons_of_ne_nil (List.splitOn_ne_nil '\n' d.text.toList)
  have hfurther : d.further = further := by rw [Definition.further, hsplit, List.tail_cons]
  refine ⟨d.head ++ front, { d with text := String.ofList front }, ?_, ?_, ?_⟩
  · rw [Definition.lines, hsplit, hfurther]
    rfl
  · rw [Definition.ofLine?_eq_some_iff]
    refine ⟨⟨h.name, h.params, h.word⟩, ?_⟩
    rw [String.toList_ofList]
    rfl
  · rw [Definition.extend, String.toList_ofList, hfurther, ← hsplit, List.intercalate_splitOn,
      String.ofList_toList]

/-- Every definition has a line that gives it; no other line gives one if there are no more of
them. -/
theorem Definition.count_lines {nodes : List Definition} (h : ∀ n ∈ nodes, n.Plain) :
    let count := (nodes.flatMap Definition.lines).countP fun line =>
      (Definition.ofLine? line).isSome
    nodes.length ≤ count ∧
      (count = nodes.length → ∀ n ∈ nodes, ∀ line ∈ n.further, Definition.ofLine? line = none) := by
  induction nodes with
  | nil => exact ⟨Nat.le_refl _, fun _ n hn => absurd hn List.not_mem_nil⟩
  | cons n others ih =>
    obtain ⟨hn, hothers⟩ := List.forall_mem_cons.1 h
    obtain ⟨line, first, hlines, hfirst, -⟩ := hn.lines_eq
    obtain ⟨hle, hnone⟩ := ih hothers
    rw [List.flatMap_cons, hlines, List.countP_append, List.countP_cons_of_pos
      (by rw [hfirst]; rfl),
      List.length_cons]
    constructor
    · omega
    · intro hcount
      have hfurther : n.further.countP (fun line => (Definition.ofLine? line).isSome) = 0 := by
        omega
      rw [List.countP_eq_zero] at hfurther
      refine List.forall_mem_cons.2 ⟨fun line hline => ?_, hnone (by omega)⟩
      simpa using hfurther line hline

/-- The definitions of plain nodes are read back exactly if no further line of a text gives
another. -/
theorem Definition.collect_lines {nodes : List Definition} (h : ∀ n ∈ nodes, n.Plain) :
    Definition.collect (nodes.flatMap Definition.lines) = ([], nodes) ↔
      ∀ n ∈ nodes, ∀ line ∈ n.further, Definition.ofLine? line = none := by
  constructor
  · -- a further line that gives a definition would be one definition too many
    intro hcollect
    apply (Definition.count_lines h).2
    rw [← Definition.length_collect, hcollect]
  · intro hfurther
    induction nodes with
    | nil => rfl
    | cons n others ih =>
      obtain ⟨hn, hothers⟩ := List.forall_mem_cons.1 h
      obtain ⟨hnone, hfurther⟩ := List.forall_mem_cons.1 hfurther
      obtain ⟨line, first, hlines, hfirst, hextend⟩ := hn.lines_eq
      rw [List.flatMap_cons, hlines, List.cons_append, Definition.collect_of_definition hfirst,
        Definition.collect_append hnone, ih hothers hfurther, List.append_nil, hextend]

variable {d : Drawing}

theorem Drawing.Plain.spans (h : d.Plain) :
    (linesOf d.text.toList).reverse.takeWhile (· ≠ []) = (d.lines.map Line.chars).reverse ∧
    (linesOf d.text.toList).reverse.dropWhile (· ≠ [])
      = [] :: (d.nodes.flatMap Definition.lines).reverse := by
  have hreverse : (linesOf d.text.toList).reverse =
      (d.lines.map Line.chars).reverse ++ [] :: (d.nodes.flatMap Definition.lines).reverse := by
    rw [h.linesOf_text]
    simp
  rw [hreverse]
  refine span_exact (fun line hline => ?_) _ (by simp)
  obtain ⟨k, hk, rfl⟩ := List.mem_map.1 (List.mem_reverse.1 hline)
  simpa using (h.lines k hk).chars_ne_nil

theorem Drawing.Plain.connections?_text (h : d.Plain) :
    Drawing.connections? d.text = some d.lines := by
  rw [Drawing.connections?, h.spans.1, List.reverse_reverse]
  exact (mapM_eq_some_iff fun _ _ => Line.ofLine?_eq_some_iff).2 ⟨h.lines, rfl⟩

/-- The text of a plain drawing gives the drawing back exactly if no further line of a node's text
looks like a definition. -/
theorem Drawing.Plain.gather?_text (h : d.Plain) : Drawing.gather? d.text = some d ↔
    ∀ n ∈ d.nodes, ∀ line ∈ n.further, Definition.ofLine? line = none := by
  rw [← Definition.collect_lines h.nodes, Drawing.gather?, h.spans.2, h.connections?_text]
  dsimp only
  rw [List.reverse_reverse]
  constructor
  · intro hread
    split at hread
    · rename_i hempty
      have hnodes := congrArg Drawing.nodes (Option.some.inj hread)
      exact Prod.ext hempty hnodes
    · cases hread
  · intro hcollect
    rw [hcollect]
    rfl

theorem Definition.lines_of_one_line {n : Definition} (h : '\n' ∉ n.text.toList) :
    n.lines = [n.head ++ n.text.toList] := by
  rw [Definition.lines, List.splitOn_eq_singleton h]
  rfl

/-- The text of a plain drawing gives the drawing back line by line exactly if no text of a node has
a line break. -/
theorem Drawing.Plain.ofText?_text (h : d.Plain) : Drawing.ofText? d.text = some d ↔
    ∀ n ∈ d.nodes, '\n' ∉ n.text.toList := by
  unfold Drawing.ofText?
  constructor
  · -- what was read stands in one line, so its text has no line break
    intro hread n hn
    split at hread
    · cases hread
    · obtain ⟨nodes, hnodes, hread⟩ := Option.bind_eq_some_iff.1 hread
      obtain ⟨lines, -, hread⟩ := Option.bind_eq_some_iff.1 hread
      obtain rfl : nodes = d.nodes := congrArg Drawing.nodes (Option.some.inj hread)
      obtain ⟨-, hfront⟩ := (mapM_eq_some_iff fun _ _ => Definition.ofLine?_eq_some_iff).1 hnodes
      have hline : n.head ++ n.text.toList ∈ linesOf d.text.toList := by
        apply (List.takeWhile_sublist _).subset
        rw [hfront]
        exact List.mem_map.2 ⟨n, hn, rfl⟩
      have hbreak := Text.not_mem_of_mem_splitOn ((List.dropLast_sublist _).subset hline)
      exact fun hmem => hbreak (List.mem_append_right _ hmem)
  · intro hbreak
    have hlines : d.nodes.flatMap Definition.lines = d.nodes.map fun n =>
        n.head ++ n.text.toList := by
      rw [List.map_eq_flatMap]
      exact List.flatMap_congr fun n hn => Definition.lines_of_one_line (hbreak n hn)
    have hfront : ∀ line ∈ d.nodes.flatMap Definition.lines, decide (line ≠ []) = true := by
      intro line hline
      rw [hlines] at hline
      obtain ⟨n, hn, rfl⟩ := List.mem_map.1 hline
      simp [Definition.head, (isWord_iff.1 (h.nodes n hn).name).1]
    obtain ⟨htake, hdrop⟩ := span_exact hfront ([] :: d.lines.map Line.chars) (by simp)
    rw [h.linesOf_text, htake, hdrop, hlines]
    dsimp only
    rw [(mapM_eq_some_iff fun _ _ => Definition.ofLine?_eq_some_iff).2 ⟨h.nodes, rfl⟩,
      (mapM_eq_some_iff fun _ _ => Line.ofLine?_eq_some_iff).2 ⟨h.lines, rfl⟩]
    rfl

end CodeChart.Graph
