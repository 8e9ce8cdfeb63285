import CodeChart.Proofs.Rendering

/-! Drawings with other numbers. The name of a node is a word and a number. Adding a constant to the
number in every name gives a drawing with the same nodes and lines in the same order. -/
namespace CodeChart.Graph

def renumberChars (k : Nat) : List Char → List Char
  | [] => []
  | c :: cs =>
    if c.isDigit then
      Nat.toDigits 10 (Nat.ofDigitChars 10 ((c :: cs).takeWhile Char.isDigit) 0 + k)
        ++ (c :: cs).dropWhile Char.isDigit
    else c :: renumberChars k cs

def renumber (k : Nat) (name : String) : String := String.ofList (renumberChars k name.toList)

def Definition.renumber (k : Nat) (d : Definition) : Definition :=
  { d with name := Graph.renumber k d.name }

def Line.renumber (k : Nat) (l : Line) : Line :=
  { l with source := Graph.renumber k l.source, target := Graph.renumber k l.target }

/-- The same drawing with greater numbers. -/
def Drawing.renumber (k : Nat) (d : Drawing) : Drawing where
  nodes := d.nodes.map (Definition.renumber k)
  lines := d.lines.map (Line.renumber k)

example : renumber 7 "cond35" = "cond42" := by decide +kernel

theorem renumberChars_append_of_letters (k : Nat) {letters : List Char}
    (h : ∀ c ∈ letters, c.isDigit = false) (cs : List Char) :
    renumberChars k (letters ++ cs) = letters ++ renumberChars k cs := by
  induction letters with
  | nil => rfl
  | cons c rest ih =>
    obtain ⟨hc, hrest⟩ := List.forall_mem_cons.1 h
    rw [List.cons_append, renumberChars, hc, ih hrest]
    rfl

theorem renumberChars_of_letters (k : Nat) {letters : List Char}
    (h : ∀ c ∈ letters, c.isDigit = false) : renumberChars k letters = letters := by
  have happend := renumberChars_append_of_letters k h []
  rwa [List.append_nil, renumberChars, List.append_nil] at happend

theorem isDigit_of_mem_toDigits {n : Nat} : ∀ c ∈ Nat.toDigits 10 n, c.isDigit = true :=
  fun _ hc => Nat.isDigit_of_mem_toDigits (by decide) (by decide) hc

theorem renumberChars_toDigits (k n : Nat) {rest : List Char}
    (h : rest.takeWhile Char.isDigit = []) :
    renumberChars k (Nat.toDigits 10 n ++ rest) = Nat.toDigits 10 (n + k) ++ rest := by
  have htake : (Nat.toDigits 10 n ++ rest).takeWhile Char.isDigit = Nat.toDigits 10 n := by
    rw [List.takeWhile_append_of_pos isDigit_of_mem_toDigits, h, List.append_nil]
  have hdrop : (Nat.toDigits 10 n ++ rest).dropWhile Char.isDigit = rest := by
    rw [List.dropWhile_append_of_pos isDigit_of_mem_toDigits]
    simpa [h] using @List.takeWhile_append_dropWhile _ Char.isDigit rest
  obtain ⟨c, cs, hcs⟩ := List.exists_cons_of_ne_nil (Nat.toDigits_ne_nil (n := n) (b := 10))
  have hc : c.isDigit = true := isDigit_of_mem_toDigits c (by rw [hcs]; exact List.mem_cons_self)
  rw [hcs, List.cons_append] at htake hdrop ⊢
  rw [renumberChars, if_pos hc, htake, hdrop, ← hcs, Nat.ofDigitChars_ten_toDigits]

theorem takeWhile_dropWhile {α : Type} (p : α → Bool) (cs : List α) :
    (cs.dropWhile p).takeWhile p = [] := by
  induction cs with
  | nil => rfl
  | cons c rest ih =>
    by_cases hc : p c = true
    · rw [List.dropWhile_cons_of_pos hc, ih]
    · rw [List.dropWhile_cons_of_neg hc, List.takeWhile_cons_of_neg hc]

theorem renumberChars_append (k : Nat) (cs : List Char) {letters : List Char}
    (h : ∀ c ∈ letters, c.isDigit = false) :
    renumberChars k (cs ++ letters) = renumberChars k cs ++ letters := by
  have hnone : letters.takeWhile Char.isDigit = [] := by
    cases letters with
    | nil => rfl
    | cons c rest => exact List.takeWhile_cons_of_neg (by simp [h c List.mem_cons_self])
  have hall : letters.dropWhile Char.isDigit = letters := by
    simpa [hnone] using @List.takeWhile_append_dropWhile _ Char.isDigit letters
  induction cs with
  | nil => exact renumberChars_of_letters k h
  | cons c rest ih =>
    rw [List.cons_append, renumberChars, renumberChars]
    cases hc : c.isDigit with
    | false =>
      simp only [Bool.false_eq_true, if_false, ih]
      rfl
    | true =>
      have htake : (c :: (rest ++ letters)).takeWhile Char.isDigit
          = (c :: rest).takeWhile Char.isDigit := by
        rw [← List.cons_append, List.takeWhile_append, hnone, List.append_nil]
        split
        · rename_i hlength
          exact ((List.takeWhile_prefix _).eq_of_length hlength).symm
        · rfl
      have hdrop : (c :: (rest ++ letters)).dropWhile Char.isDigit
          = (c :: rest).dropWhile Char.isDigit ++ letters := by
        rw [← List.cons_append, List.dropWhile_append, hall]
        split
        · rename_i hempty
          rw [List.isEmpty_iff.1 hempty, List.nil_append]
        · rfl
      rw [if_pos rfl, if_pos rfl, htake, hdrop, List.append_assoc]

theorem renumberChars_add (j k : Nat) (cs : List Char) :
    renumberChars k (renumberChars j cs) = renumberChars (j + k) cs := by
  induction cs with
  | nil => rfl
  | cons c rest ih =>
    cases hc : c.isDigit with
    | false =>
      rw [renumberChars, renumberChars, hc, if_neg (by simp), if_neg (by simp), renumberChars, hc,
        if_neg (by simp), ih]
    | true =>
      rw [renumberChars, renumberChars, if_pos hc, if_pos hc,
        renumberChars_toDigits _ _ (takeWhile_dropWhile _ _), Nat.add_assoc]

theorem renumberChars_eq_nil {k : Nat} {cs : List Char} : renumberChars k cs = [] ↔ cs = [] := by
  cases cs with
  | nil => exact .rfl
  | cons c rest =>
    simp only [List.cons_ne_nil, iff_false]
    rw [renumberChars]
    split
    · simp [Nat.toDigits_ne_nil]
    · exact List.cons_ne_nil _ _

def hasDigit (text : String) : Bool := text.toList.any Char.isDigit

theorem isDigit_of_mem {text : String} (h : hasDigit text = false) :
    ∀ c ∈ text.toList, c.isDigit = false := by
  intro c hc
  exact Bool.eq_false_iff.2 (List.any_eq_false.1 h c hc)

theorem renumber_add (j k : Nat) (name : String) :
    renumber k (renumber j name) = renumber (j + k) name := by
  unfold renumber
  rw [String.toList_ofList, renumberChars_add]

theorem renumber_append (k : Nat) (name : String) {letters : String}
    (h : hasDigit letters = false) :
    renumber k (name ++ letters) = renumber k name ++ letters := by
  unfold renumber
  rw [String.toList_append, renumberChars_append k _ (isDigit_of_mem h), String.ofList_append,
    String.ofList_toList]

theorem renumber_isEmpty (k : Nat) (name : String) : (renumber k name).isEmpty = name.isEmpty := by
  rw [Bool.eq_iff_iff, String.isEmpty_iff, String.isEmpty_iff, ← String.toList_eq_nil_iff,
    ← String.toList_eq_nil_iff, renumber, String.toList_ofList]
  exact renumberChars_eq_nil

theorem renumber_number (k : Nat) {letters : String} (h : hasDigit letters = false) (n : Nat) :
    renumber k (letters ++ toString n) = letters ++ toString (n + k) := by
  unfold renumber
  rw [String.toList_append, renumberChars_append_of_letters k (isDigit_of_mem h),
    Nat.toString_eq_repr, Nat.toList_repr]
  have hdigits : renumberChars k (Nat.toDigits 10 n ++ []) = _ := renumberChars_toDigits k n rfl
  rw [List.append_nil, List.append_nil] at hdigits
  rw [hdigits, String.ofList_append, String.ofList_toList, ← Nat.toList_repr, String.ofList_toList,
    Nat.toString_eq_repr]

theorem renumber_nameOf (k : Nat) (shape : Shape) (n : Nat) :
    renumber k (shape.nameOf n) = shape.nameOf (n + k) := by
  have hletters : hasDigit shape.letters = false := by
    cases shape <;> rfl
  unfold Shape.nameOf
  split
  · rfl
  · exact renumber_number k hletters n

theorem Definition.renumber_add (j k : Nat) (d : Definition) :
    (d.renumber j).renumber k = d.renumber (j + k) := by
  simp only [Definition.renumber, Graph.renumber_add]

theorem Line.renumber_add (j k : Nat) (l : Line) :
    (l.renumber j).renumber k = l.renumber (j + k) := by
  simp only [Line.renumber, Graph.renumber_add]

theorem Drawing.renumber_add (j k : Nat) (d : Drawing) :
    (d.renumber j).renumber k = d.renumber (j + k) := by
  simp only [Drawing.renumber, List.map_map, Function.comp_def, Definition.renumber_add,
    Line.renumber_add]

end CodeChart.Graph
