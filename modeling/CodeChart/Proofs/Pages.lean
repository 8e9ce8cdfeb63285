import CodeChart.Proofs.Delivery

/-! What a page shows. A browser takes the title and the chart from between their marks and decodes
the character references in them, while the page holds both texts as they are. So a text is shown up
to the first closing mark in it, and it is shown whole exactly if there is no such mark and nothing
in it reads as a reference. -/
namespace CodeChart.Page

def after? (mark : List Char) : List Char → Option (List Char)
  | [] => none
  | c :: rest =>
    if mark.isPrefixOf (c :: rest) then some ((c :: rest).drop mark.length) else after? mark rest

/-- The text before the first occurrence of a mark. -/
def before? (mark : List Char) : List Char → Option (List Char)
  | [] => none
  | c :: rest => if mark.isPrefixOf (c :: rest) then some [] else (c :: ·) <$> before? mark rest

/-- The text between the first occurrence of a mark and the first one of another after it. -/
def between? (opening closing text : List Char) : Option (List Char) :=
  (after? opening text).bind (before? closing)

def titleOpening : List Char := "<title>".toList

def titleClosing : List Char := "</title".toList

/-- The tag that opens the text area with the chart. -/
def areaOpening : List Char := "<textarea id=\"code\" style=\"width: 100%;\" rows=\"11\">".toList

def areaClosing : List Char := "</textarea".toList

section

variable {m : Char} {ms : List Char} {text : List Char}

theorem after?_eq_none_iff (hne : ms ≠ []) : after? ms text = none ↔ ¬ms <:+: text := by
  induction text with
  | nil => simp [after?, hne]
  | cons c rest ih =>
    rw [after?, List.infix_cons_iff, ← List.isPrefixOf_iff_prefix]
    split
    next h => simp [h]
    next h => simp [h, ih]

theorem before?_eq_none_iff (hne : ms ≠ []) : before? ms text = none ↔ ¬ms <:+: text := by
  induction text with
  | nil => simp [before?, hne]
  | cons c rest ih =>
    rw [before?, List.infix_cons_iff, ← List.isPrefixOf_iff_prefix]
    split
    next h => simp [h]
    next h => simp [h, ih]

/-- A mark that begins with a character which it does not repeat cannot reach from one text into the
next, if the next text begins with that character. -/
theorem isPrefixOf_append_cons (hm : m ∉ ms) {c : Char} {front back : List Char} :
    (m :: ms).isPrefixOf (c :: front ++ m :: back) = (m :: ms).isPrefixOf (c :: front) := by
  rw [Bool.eq_iff_iff, List.isPrefixOf_iff_prefix, List.isPrefixOf_iff_prefix]
  refine ⟨fun h => ?_, fun h => h.trans (List.prefix_append _ _)⟩
  rcases List.prefix_or_prefix_of_prefix h (List.prefix_append _ _) with hfront | ⟨part, hpart⟩
  · exact hfront
  · rw [← hpart, List.prefix_append_right_inj] at h
    cases part with
    | nil => exact ⟨[], by rw [← hpart, List.append_nil, List.append_nil]⟩
    | cons x part =>
      obtain ⟨rfl, -⟩ := List.cons_prefix_cons.1 h
      rw [List.cons_append, List.cons.injEq] at hpart
      exact absurd (hpart.2 ▸ by simp) hm

theorem length_le_of_after? {rest : List Char} (h : after? ms text = some rest) :
    ms.length ≤ text.length := by
  induction text with
  | nil => cases h
  | cons c front ih =>
    rw [after?] at h
    split at h
    next hms => exact (List.isPrefixOf_iff_prefix.1 hms).length_le
    next => exact Nat.le_succ_of_le (ih h)

theorem after?_append {rest : List Char} (h : after? ms text = some rest) (back : List Char) :
    after? ms (text ++ back) = some (rest ++ back) := by
  induction text with
  | nil => cases h
  | cons c front ih =>
    have hlength := length_le_of_after? h
    have hsame : ms.isPrefixOf (c :: front ++ back) = ms.isPrefixOf (c :: front) := by
      rw [Bool.eq_iff_iff, List.isPrefixOf_iff_prefix, List.isPrefixOf_iff_prefix]
      exact ⟨fun hms => List.prefix_of_prefix_length_le hms (List.prefix_append _ _) hlength,
        fun hms => hms.trans (List.prefix_append _ _)⟩
    rw [List.cons_append, after?, ← List.cons_append, hsame]
    rw [after?] at h
    split at h
    next hms =>
      rw [if_pos hms, List.drop_append_of_le_length hlength, Option.some.inj h]
    next hms =>
      rw [if_neg hms]
      exact ih h

/-- No mark begins in the text, not even one that goes on after it. -/
def clears (m : Char) (ms : List Char) : List Char → Bool
  | [] => true
  | c :: rest => (c != m || !ms.isPrefixOf rest && !rest.isPrefixOf ms) && clears m ms rest

theorem after?_append_of_clears (h : clears m ms text = true) (back : List Char) :
    after? (m :: ms) (text ++ back) = after? (m :: ms) back := by
  induction text with
  | nil => rfl
  | cons c front ih =>
    simp only [clears, Bool.and_eq_true, Bool.or_eq_true, bne_iff_ne, ne_eq, Bool.not_eq_true',
      ← Bool.not_eq_true, List.isPrefixOf_iff_prefix] at h
    have hms : ¬(m :: ms).isPrefixOf (c :: (front ++ back)) = true := by
      rw [List.isPrefixOf_iff_prefix, List.cons_prefix_cons]
      rintro ⟨rfl, hms⟩
      obtain hne | ⟨hlong, hshort⟩ := h.1
      · exact hne rfl
      · rcases List.prefix_or_prefix_of_prefix hms (List.prefix_append _ _) with hfront | hfront
        · exact hlong hfront
        · exact hshort hfront
    rw [List.cons_append, after?, if_neg hms, ih h.2]

section

variable (hm : m ∉ ms) {back : List Char} (hback : m :: ms <+: back)
include hm hback

theorem before?_append :
    before? (m :: ms) (text ++ back) = some ((before? (m :: ms) text).getD text) := by
  obtain ⟨rest, rfl⟩ := hback
  change before? (m :: ms) (text ++ m :: (ms ++ rest)) = _
  induction text with
  | nil => exact if_pos (List.isPrefixOf_iff_prefix.2 (List.prefix_append _ _))
  | cons c front ih =>
    rw [List.cons_append, before?, ← List.cons_append, isPrefixOf_append_cons hm, before?, ih]
    split
    · rfl
    · cases before? (m :: ms) front <;> rfl

end

theorem after?_append_cons (hm : m ∉ ms) (h : after? (m :: ms) text = none) (back : List Char) :
    after? (m :: ms) (text ++ m :: back) = after? (m :: ms) (m :: back) := by
  induction text with
  | nil => rfl
  | cons c front ih =>
    rw [after?] at h
    split at h
    next => cases h
    next hms =>
      rw [List.cons_append, after?, ← List.cons_append, isPrefixOf_append_cons hm, if_neg hms, ih h]

theorem length_of_before? {front : List Char} (h : before? ms text = some front) :
    front.length + ms.length ≤ text.length := by
  induction text generalizing front with
  | nil => cases h
  | cons c rest ih =>
    rw [before?] at h
    split at h
    next hms =>
      cases h
      simpa using (List.isPrefixOf_iff_prefix.1 hms).length_le
    next =>
      obtain ⟨front, hfront, rfl⟩ := Option.map_eq_some_iff.1 h
      have hlength := ih hfront
      simp only [List.length_cons]
      omega

end

/-- No mark begins in the lines before the last one, which passes a test. -/
def clearsTo (last : List Char → Bool) (m : Char) (ms : List Char) : List (List Char) → Bool
  | [] => false
  | [cs] => last cs
  | cs :: rest => clears m ms (cs ++ ['\n']) && clearsTo last m ms rest

theorem after?_intercalate {last : List Char → Bool} {m : Char} {ms : List Char}
    {lines : List (List Char)} (h : clearsTo last m ms lines = true) :
    ∃ cs, last cs = true ∧
      ∀ back, after? (m :: ms) (['\n'].intercalate lines ++ back)
        = after? (m :: ms) (cs ++ back) := by
  fun_induction clearsTo last m ms lines with
  | case1 => cases h
  | case2 cs =>
    refine ⟨cs, h, fun back => ?_⟩
    rw [List.intercalate_singleton]
  | case3 cs rest hrest ih =>
    rw [Bool.and_eq_true] at h
    obtain ⟨last, hlast, hafter⟩ := ih h.2
    refine ⟨last, hlast, fun back => ?_⟩
    rw [List.intercalate_cons_of_ne_nil hrest, List.append_assoc, after?_append_of_clears h.1]
    exact hafter back

section

variable {m : Char} {ms : List Char} {lines : List String} {last : List Char → Bool}

theorem after?_lines
    (h : ∃ chars, chars.map String.ofList = lines ∧ clearsTo last m ms chars = true) :
    ∃ cs, last cs = true ∧ ∀ back,
      after? (m :: ms) (("\n".intercalate lines).toList ++ back)
        = after? (m :: ms) (cs ++ back) := by
  obtain ⟨chars, rfl, hclears⟩ := h
  have hbreak : "\n".toList = ['\n'] := String.toList_ofList
  have hchars : String.toList ∘ String.ofList = id := funext fun _ => String.toList_ofList
  rw [String.toList_intercalate, hbreak, List.map_map, hchars, List.map_id]
  exact after?_intercalate hclears

theorem after?_lines_of_mark (h : ∃ chars, chars.map String.ofList = lines ∧
    clearsTo (after? (m :: ms) · == some []) m ms chars = true) (back : List Char) :
    after? (m :: ms) (("\n".intercalate lines).toList ++ back) = some back := by
  obtain ⟨cs, hcs, hafter⟩ := after?_lines h
  exact (hafter back).trans (after?_append (beq_iff_eq.1 hcs) back)

theorem after?_lines_of_clears (h : ∃ chars, chars.map String.ofList = lines ∧
    clearsTo (clears m ms) m ms chars = true) (back : List Char) :
    after? (m :: ms) (("\n".intercalate lines).toList ++ back) = after? (m :: ms) back := by
  obtain ⟨cs, hcs, hafter⟩ := after?_lines h
  exact (hafter back).trans (after?_append_of_clears hcs back)

theorem exists_lines_cons {P : List (List Char) → Prop} (cs : List Char)
    (h : ∃ chars, chars.map String.ofList = lines ∧ P (cs :: chars)) :
    ∃ chars, chars.map String.ofList = String.ofList cs :: lines ∧ P chars := by
  obtain ⟨chars, rfl, hp⟩ := h
  exact ⟨cs :: chars, rfl, hp⟩

theorem exists_lines_append {P : List (List Char) → Prop} {front : String} (cs : List Char)
    (h : ∃ chars : List (List Char), chars.map String.ofList = front :: lines ∧
      P (chars.modifyHead (· ++ cs))) :
    ∃ chars, chars.map String.ofList = (front ++ String.ofList cs) :: lines ∧ P chars := by
  obtain ⟨chars, hchars, hp⟩ := h
  obtain ⟨ds, rest, rfl, rfl, rfl⟩ := List.map_eq_cons_iff.1 hchars
  exact ⟨(ds ++ cs) :: rest, by rw [List.map_cons, String.ofList_append], hp⟩

end

theorem after?_opening_title (back : List Char) :
    after? titleOpening (opening.toList ++ back) = some back := by
  have hmark : titleOpening = '<' :: _ := String.toList_ofList
  rw [hmark]
  refine after?_lines_of_mark ?_ back
  unfold openingLines
  repeat refine exists_lines_cons _ ?_
  exact ⟨[], rfl, by decide +kernel⟩

theorem after?_opening_area (back : List Char) :
    after? areaOpening (opening.toList ++ back) = after? areaOpening back := by
  have hmark : areaOpening = '<' :: _ := String.toList_ofList
  rw [hmark]
  refine after?_lines_of_clears ?_ back
  unfold openingLines
  repeat refine exists_lines_cons _ ?_
  exact ⟨[], rfl, by decide +kernel⟩

set_option maxRecDepth 2000 in
theorem after?_middle (back : List Char) :
    after? areaOpening (middle.toList ++ back) = some back := by
  have hmark : areaOpening = '<' :: _ := String.toList_ofList
  rw [hmark]
  refine after?_lines_of_mark ?_ back
  unfold middleLines
  repeat first
    | refine exists_lines_append _ ?_
    | refine exists_lines_cons _ ?_
  exact ⟨[], rfl, by decide +kernel⟩

theorem prefix_intercalate {first : List Char} {rest : List String} :
    first <+: ("\n".intercalate (String.ofList first :: rest)).toList := by
  have hfirst : (String.ofList first).toList = first := String.toList_ofList
  rw [String.toList_intercalate, List.map_cons, hfirst]
  cases rest.map String.toList with
  | nil => exact ⟨[], by rw [List.intercalate_singleton, List.append_nil]⟩
  | cons second rest =>
    rw [List.intercalate_cons_cons, List.append_assoc]
    exact List.prefix_append _ _

theorem titleClosing_prefix : titleClosing <+: middle.toList := by
  have hmark : titleClosing = ['<', '/', 't', 'i', 't', 'l', 'e'] := String.toList_ofList
  have hline : ['<', '/', 't', 'i', 't', 'l', 'e', '>'] <+: middle.toList := prefix_intercalate
  rw [hmark]
  exact (List.prefix_append _ ['>']).trans hline

theorem areaClosing_prefix : areaClosing <+: closing.toList := by
  have hmark : areaClosing = ['<', '/', 't', 'e', 'x', 't', 'a', 'r', 'e', 'a'] :=
    String.toList_ofList
  have hline : ['<', '/', 't', 'e', 'x', 't', 'a', 'r', 'e', 'a', '>', '<', '/', 'd', 'i', 'v', '>']
      <+: closing.toList := prefix_intercalate
  rw [hmark]
  exact (List.prefix_append _ ['>', '<', '/', 'd', 'i', 'v', '>']).trans hline

theorem toList_text (title chart : String) : (text title chart).toList
    = opening.toList ++ (title.toList ++ (middle.toList ++ (chart.toList ++ closing.toList))) := by
  simp only [text, String.toList_append, List.append_assoc]

theorem before?_titleClosing (title back : List Char) :
    before? titleClosing (title ++ (middle.toList ++ back))
      = some ((before? titleClosing title).getD title) := by
  have hstarts := titleClosing_prefix.trans (List.prefix_append _ back)
  have hmark : titleClosing = '<' :: _ := String.toList_ofList
  rw [hmark] at hstarts ⊢
  exact before?_append (by decide) hstarts

theorem before?_areaClosing (chart : List Char) :
    before? areaClosing (chart ++ closing.toList)
      = some ((before? areaClosing chart).getD chart) := by
  have hstarts := areaClosing_prefix
  have hmark : areaClosing = '<' :: _ := String.toList_ofList
  rw [hmark] at hstarts ⊢
  exact before?_append (by decide) hstarts

theorem between?_title (title chart : String) :
    between? titleOpening titleClosing (text title chart).toList
      = some ((before? titleClosing title.toList).getD title.toList) := by
  rw [between?, toList_text, after?_opening_title, Option.bind_some, before?_titleClosing]

theorem between?_area {title : String} (h : ¬areaOpening <:+: title.toList) (chart : String) :
    between? areaOpening areaClosing (text title chart).toList
      = some ((before? areaClosing chart.toList).getD chart.toList) := by
  have hmark : areaOpening = '<' :: _ := String.toList_ofList
  have hskip :
      after? areaOpening (title.toList ++ (middle.toList ++ (chart.toList ++ closing.toList)))
      = after? areaOpening (middle.toList ++ (chart.toList ++ closing.toList)) := by
    obtain ⟨rest, hrest⟩ := titleClosing_prefix.trans
      (List.prefix_append _ (chart.toList ++ closing.toList))
    have hclosing : titleClosing = '<' :: _ := String.toList_ofList
    rw [← hrest, hclosing, List.cons_append]
    rw [← after?_eq_none_iff (by rw [hmark]; exact List.cons_ne_nil _ _)] at h
    rw [hmark] at h ⊢
    exact after?_append_cons (by decide) h _
  rw [between?, toList_text, after?_opening_area, hskip, after?_middle, Option.bind_some,
    before?_areaClosing]

open Code

/-- What character references stand for: names, which may end with a semicolon, and numbers. No name
is shorter than its text, counting the ampersand in front of it. -/
structure References where
  names : List (List Char × List Char)
  number : Nat → Option Char
  short : ∀ entry ∈ names, entry.2.length ≤ entry.1.length + 1

/-- The number at the start of a text, and how far it goes with a semicolon behind it. -/
def numberAt (base : Nat) (isDigit : Char → Bool) (text : List Char) : Option (Nat × Nat) :=
  let digits := text.takeWhile isDigit
  if digits.isEmpty then none
  else some (numeral base digits, digits.length + if text[digits.length]? = some ';' then 1 else 0)

/-- The number of a reference behind its ampersand. -/
def codeAt : List Char → Option (Nat × Nat)
  | '#' :: 'x' :: rest => Prod.map id (· + 2) <$> numberAt 16 isHexDigit rest
  | '#' :: 'X' :: rest => Prod.map id (· + 2) <$> numberAt 16 isHexDigit rest
  | '#' :: rest => Prod.map id (· + 1) <$> numberAt 10 isDecimalDigit rest
  | _ => none

/-- The longest of the names that a text begins with. -/
def nameAt (text : List Char) : List (List Char × List Char) → Option (List Char × List Char)
  | [] => none
  | entry :: rest =>
    match nameAt text rest with
    | none => if entry.1.isPrefixOf text then some entry else none
    | some other =>
      if entry.1.isPrefixOf text && other.1.length < entry.1.length then some entry else some other

namespace References

variable (r : References)

/-- The text of the reference behind an ampersand, and how far it goes. -/
def textAt (text : List Char) : Option (List Char × Nat) :=
  match codeAt text with
  | some (code, far) => some ((r.number code).toList, far)
  | none => (fun entry => (entry.2, entry.1.length)) <$> nameAt text r.names

/-- Decodes a text behind the characters of a reference that are still to be skipped. -/
def decodeBehind : Nat → List Char → List Char
  | _, [] => []
  | far + 1, _ :: rest => decodeBehind far rest
  | 0, c :: rest =>
    if c = '&' then
      match r.textAt rest with
      | some (text, far) => text ++ decodeBehind far rest
      | none => c :: decodeBehind 0 rest
    else c :: decodeBehind 0 rest

/-- A text with its references decoded. -/
def decode (text : List Char) : List Char := r.decodeBehind 0 text

end References

theorem numberAt_le {base : Nat} {isDigit : Char → Bool} {text : List Char} {n far : Nat}
    (h : numberAt base isDigit text = some (n, far)) : far ≤ text.length := by
  unfold numberAt at h
  dsimp only at h
  split at h
  · cases h
  · have hdigits : (text.takeWhile isDigit).length ≤ text.length :=
      (List.takeWhile_prefix _).length_le
    cases h
    split
    next hmark =>
      obtain ⟨hlt, -⟩ := List.getElem?_eq_some_iff.1 hmark
      omega
    next => omega

theorem codeAt_le {text : List Char} {n far : Nat} (h : codeAt text = some (n, far)) :
    far ≤ text.length := by
  have hbehind : ∀ {base isDigit rest} (k : Nat),
      Prod.map id (· + k) <$> numberAt base isDigit rest = some (n, far) →
        far ≤ rest.length + k := by
    intro base isDigit rest k hcode
    obtain ⟨⟨n', far'⟩, hnumber, heq⟩ := Option.map_eq_some_iff.1 hcode
    cases heq
    exact Nat.add_le_add_right (numberAt_le hnumber) k
  unfold codeAt at h
  split at h
  · exact hbehind 2 h
  · exact hbehind 2 h
  · exact hbehind 1 h
  · cases h

theorem nameAt_mem {text : List Char} {names : List (List Char × List Char)}
    {entry : List Char × List Char} (h : nameAt text names = some entry) :
    entry ∈ names ∧ entry.1 <+: text := by
  induction names generalizing entry with
  | nil => cases h
  | cons first rest ih =>
    rw [nameAt] at h
    split at h
    next hrest =>
      split at h
      next hfirst =>
        cases h
        exact ⟨List.mem_cons_self, List.isPrefixOf_iff_prefix.1 hfirst⟩
      next => cases h
    next other hrest =>
      split at h
      next hfirst =>
        cases h
        rw [Bool.and_eq_true] at hfirst
        exact ⟨List.mem_cons_self, List.isPrefixOf_iff_prefix.1 hfirst.1⟩
      next =>
        cases h
        obtain ⟨hmem, hstarts⟩ := ih hrest
        exact ⟨List.mem_cons_of_mem _ hmem, hstarts⟩

namespace References

variable (r : References)

theorem textAt_le {text part : List Char} {far : Nat} (h : r.textAt text = some (part, far)) :
    far ≤ text.length ∧ part.length ≤ far + 1 := by
  unfold textAt at h
  split at h
  next code far' hcode =>
    cases h
    refine ⟨codeAt_le hcode, ?_⟩
    cases r.number code <;> simp
  next =>
    obtain ⟨entry, hentry, heq⟩ := Option.map_eq_some_iff.1 h
    cases heq
    obtain ⟨hmem, hstarts⟩ := nameAt_mem hentry
    exact ⟨hstarts.length_le, r.short entry hmem⟩

theorem length_decodeBehind {far : Nat} {text : List Char} (h : far ≤ text.length) :
    (r.decodeBehind far text).length + far ≤ text.length := by
  induction text generalizing far with
  | nil =>
    obtain rfl : far = 0 := Nat.le_zero.1 h
    exact Nat.le_refl _
  | cons c rest ih =>
    cases far with
    | succ far =>
      have hrest := ih (Nat.le_of_succ_le_succ h)
      rw [decodeBehind, List.length_cons]
      omega
    | zero =>
      have hrest := ih (Nat.zero_le _)
      rw [decodeBehind]
      split
      · split
        next part far hpart =>
          obtain ⟨hfar, hlength⟩ := r.textAt_le hpart
          have hskipped := ih hfar
          rw [List.length_append, List.length_cons]
          omega
        next =>
          rw [List.length_cons, List.length_cons]
          omega
      · rw [List.length_cons, List.length_cons]
        omega

theorem length_decode (text : List Char) : (r.decode text).length ≤ text.length :=
  r.length_decodeBehind (Nat.zero_le _)

theorem decode_of_not_mem {text : List Char} (h : '&' ∉ text) : r.decode text = text := by
  unfold decode
  induction text with
  | nil => rfl
  | cons c rest ih =>
    rw [List.mem_cons, not_or] at h
    obtain ⟨hc, hrest⟩ := h
    rw [decodeBehind, if_neg (Ne.symm hc), ih hrest]

/-- A text is read back whole exactly if it does not hold the closing mark and nothing in it reads
as a reference. -/
theorem decode_before?_iff {closing : List Char} (hne : closing ≠ []) (text : List Char) :
    r.decode ((before? closing text).getD text) = text ↔
      ¬closing <:+: text ∧ r.decode text = text := by
  rw [← before?_eq_none_iff hne]
  cases hbefore : before? closing text with
  | none => simp
  | some front =>
    simp only [Option.getD_some, reduceCtorEq, false_and, iff_false]
    intro hdecode
    -- what is shown is shorter than the text
    have hshown := r.length_decode front
    have hfront := length_of_before? hbefore
    have hclosing := List.length_pos_iff.2 hne
    rw [hdecode] at hshown
    omega

/-- What is shown of a page between two marks. -/
def shown (opening closing : List Char) (page : String) : Option (List Char) :=
  r.decode <$> between? opening closing page.toList

end References

/-- The part of a name after its last slash; a name without a slash is all of it. -/
def IsBaseName (name base : String) : Prop :=
  '/' ∉ base.toList ∧ (name = base ∨ ∃ before, name = before ++ "/" ++ base)

/-- The title is the field, or the base name of the file where no field is given. -/
def IsTitle (field name title : String) : Prop :=
  if field = "" then IsBaseName name title else title = field

end CodeChart.Page

namespace CodeChart.CommandLine

open Page
open Text (Raw utf8)

theorem mem_ofText {c : Char} {text : String} : .char c ∈ Raw.ofText text ↔ c ∈ text.toList := by
  simp [Raw.ofText]

theorem exists_isTitle (field name : String) : ∃ title, IsTitle field name title ∧
    Titled (Raw.ofText field) (Raw.ofText name) (Raw.ofText title) := by
  by_cases hfield : field = ""
  · subst hfield
    obtain ⟨title, htitle⟩ : (Page.baseName (Raw.ofText name)).IsText :=
      Raw.IsText.of_subset ⟨name, rfl⟩ (Raw.afterLast_subset _ _)
    obtain ⟨hslash, hname⟩ := Raw.afterLast_eq_iff.1 htitle
    refine ⟨title, ⟨mt mem_ofText.2 hslash, ?_⟩, .inr ⟨rfl, hslash, hname⟩⟩
    rcases hname with hname | ⟨before, hname⟩
    · exact .inl (Raw.ofText_injective hname)
    · obtain ⟨before, rfl⟩ : before.IsText :=
        Raw.IsText.of_subset ⟨name, rfl⟩ (hname ▸ List.subset_append_left _ _)
      refine .inr ⟨before, Raw.ofText_injective ?_⟩
      rw [hname, Raw.ofText_append, Raw.ofText_append, List.append_assoc]
      rfl
  · refine ⟨field, (if_neg hfield).mpr rfl, .inl ⟨?_, rfl⟩⟩
    exact fun hempty => hfield (Raw.ofText_injective hempty)

/-- A page that is written holds its title and its chart as they are, without regard to what they
mean inside a page. The title is shown up to the first closing mark in it, with whatever reads as a
reference decoded, and so is the chart, if the title does not bring a text area of its own. So a
text is shown whole exactly if it holds no closing mark and decoding leaves it alone; texts without
an ampersand and an angle bracket are. -/
theorem page_shows_decoded (r : References) (desk : Desk) (name field chart : String) (p : Path)
    (hplace : desk.directory.place (Raw.ofText name) = .ok p) :
    ∃ title page desk', IsTitle field name title ∧
      (writePage Desk.world (Raw.ofText name) (Raw.ofText field) chart).run.run desk
        = (.ok (), desk') ∧
      desk'.directory.get? p = some (utf8 page) ∧
      (∀ q, q ≠ p → desk'.directory.get? q = desk.directory.get? q) ∧
      r.shown titleOpening titleClosing page
        = some (r.decode ((before? titleClosing title.toList).getD title.toList)) ∧
      (r.shown titleOpening titleClosing page = some title.toList ↔
        ¬titleClosing <:+: title.toList ∧ r.decode title.toList = title.toList) ∧
      (¬areaOpening <:+: title.toList →
        r.shown areaOpening areaClosing page
          = some (r.decode ((before? areaClosing chart.toList).getD chart.toList)) ∧
        (r.shown areaOpening areaClosing page = some chart.toList ↔
          ¬areaClosing <:+: chart.toList ∧ r.decode chart.toList = chart.toList)) ∧
      ∀ text : List Char, '&' ∉ text → '<' ∉ text → r.decode text = text ∧
        ¬titleClosing <:+: text ∧ ¬areaOpening <:+: text ∧ ¬areaClosing <:+: text := by
  have hmarks : ∀ mark : List Char, '<' ∈ mark → ∀ text : List Char, '<' ∉ text → ¬mark <:+: text :=
    fun mark hmark text htext hwithin => htext (hwithin.subset hmark)
  have hclosing : '<' ∈ titleClosing := by
    rw [show titleClosing = '<' :: _ from String.toList_ofList]
    exact List.mem_cons_self
  have hopening : '<' ∈ areaOpening := by
    rw [show areaOpening = '<' :: _ from String.toList_ofList]
    exact List.mem_cons_self
  have hend : '<' ∈ areaClosing := by
    rw [show areaClosing = '<' :: _ from String.toList_ofList]
    exact List.mem_cons_self
  obtain ⟨title, htitle, htitled⟩ := exists_isTitle field name
  have hshown : r.shown titleOpening titleClosing (text title chart) = _ :=
    congrArg (Option.map r.decode) (between?_title title chart)
  have hsaid : (savedText (Raw.ofText name)).IsText :=
    ⟨"Saved HTML to " ++ name ++ "\n", by simp [savedText]⟩
  have hrun := (writePage_of_title chart hplace htitled).trans
    (say_ok (desk.put p (pageBytes title chart)) fun _ => hsaid)
  have hwrote := wrote_put desk.directory p (pageBytes title chart)
  refine ⟨title, text title chart, _, htitle, hrun, hwrote.written, hwrote.others, hshown, ?_,
    fun harea => ?_,
    fun text hamp hlt => ⟨r.decode_of_not_mem hamp, ?_, ?_, ?_⟩⟩
  · rw [hshown, Option.map_some, Option.some.injEq]
    exact r.decode_before?_iff (List.ne_nil_of_mem hclosing) _
  · have hchart : r.shown areaOpening areaClosing (text title chart) = _ :=
      congrArg (Option.map r.decode) (between?_area harea chart)
    refine ⟨hchart, ?_⟩
    rw [hchart, Option.map_some, Option.some.injEq]
    exact r.decode_before?_iff (List.ne_nil_of_mem hend) _
  · exact hmarks _ hclosing _ hlt
  · exact hmarks _ hopening _ hlt
  · exact hmarks _ hend _ hlt

/-- The five names that every page may use, and all characters by number. -/
def commonReferences : References where
  names := [("amp;".toList, ['&']), ("lt;".toList, ['<']), ("gt;".toList, ['>']),
    ("quot;".toList, ['"']), ("apos;".toList, ['\''])]
  number n := some (if n.isValidChar then Char.ofNat n else '\uFFFD')
  short := by simp

/-- A closing mark in the chart ends what is shown of it. -/
theorem page_shows_decoded_area : ∃ (page : String) (desk : Desk),
    Directory.place ⟨[]⟩ (Raw.ofText "out.html") = .ok [Raw.ofText "out.html"] ∧
    (writePage Desk.world (Raw.ofText "out.html") (Raw.ofText "f")
      "op0=>operation: '</textarea>'\n\n").run.run { directory := ⟨[]⟩ } = (.ok (), desk) ∧
    desk.directory.get? [Raw.ofText "out.html"] = some (utf8 page) ∧
    commonReferences.shown titleOpening titleClosing page = some "f".toList ∧
    commonReferences.shown areaOpening areaClosing page = some "op0=>operation: '".toList := by
  have hplace : Directory.place ⟨[]⟩ (Raw.ofText "out.html") = .ok [Raw.ofText "out.html"] := by
    rfl
  obtain ⟨title, page, desk, htitle, hrun, hfile, -, htitleShown, -, harea, -⟩ :=
    page_shows_decoded commonReferences { directory := ⟨[]⟩ } "out.html" "f"
      "op0=>operation: '</textarea>'\n\n" [Raw.ofText "out.html"] hplace
  obtain rfl : title = "f" := htitle
  refine ⟨page, desk, hplace, hrun, hfile, htitleShown.trans ?_, (harea ?_).1.trans ?_⟩
  · decide +kernel
  · rw [← after?_eq_none_iff (by decide +kernel)]
    decide +kernel
  · decide +kernel

end CodeChart.CommandLine
