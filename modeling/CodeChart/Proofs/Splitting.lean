import Mathlib.Data.String.Basic

/-! Texts cut at a character. Cutting a text at a text of one character gives the stretches between
the occurrences of the character. -/
namespace CodeChart.Text

open String

theorem get_singleton (c : Char) : Pos.Raw.get (singleton c) 0 = c := by
  have h := get_of_valid [] [c]
  rwa [List.nil_append, ← singleton_eq_ofList] at h

theorem next_singleton (c : Char) : Pos.Raw.next (singleton c) 0 = ⟨c.utf8Size⟩ := by
  have h := next_of_valid [] c []
  rwa [List.nil_append, ← singleton_eq_ofList, utf8Len_nil, Nat.zero_add] at h

theorem atEnd_singleton (c : Char) : Pos.Raw.atEnd (singleton c) ⟨c.utf8Size⟩ = true := by
  rw [atEnd_iff, singleton_eq_ofList, rawEndPos_ofList]
  simp [utf8Len]

theorem splitOnAux_singleton (s : String) (c : Char) (b i : Pos.Raw) (r : List String) :
    s.splitOnAux (singleton c) b i 0 r = s.splitAux (· == c) b i r := by
  fun_induction splitAux s (· == c) b i r with
  | case1 b i r h => rw [splitOnAux, if_pos h]
  | case2 b i r h _ hc j ih =>
    have hback : (Pos.Raw.next s i).unoffsetBy ⟨c.utf8Size⟩ = i := by
      have hget : Pos.Raw.get s i = c := by simpa using hc
      rw [← hget]
      simp [Pos.Raw.next, Pos.Raw.unoffsetBy]
    rw [splitOnAux, if_neg h, get_singleton, if_pos hc, next_singleton]
    dsimp only
    rw [if_pos (atEnd_singleton c), hback]
    exact ih
  | case3 b i r h _ hc ih =>
    rw [splitOnAux, if_neg h, get_singleton, if_neg hc]
    exact ih

theorem splitOn_singleton (s : String) (c : Char) :
    s.splitOn (singleton c) = (s.toList.splitOn c).map ofList := by
  have hne : (singleton c == "") = false := by simp
  rw [splitOn, hne, if_neg (by simp), splitOnAux_singleton]
  exact splitToList_of_valid s (· == c)

theorem exists_last_of_mem {α : Type} {a : α} {as : List α} (h : a ∈ as) :
    ∃ before after, as = before ++ a :: after ∧ a ∉ after := by
  obtain ⟨after, before, heq, hnot⟩ := List.eq_append_cons_of_mem (List.mem_reverse.2 h)
  refine ⟨before.reverse, after.reverse, ?_, by simpa using hnot⟩
  rw [← List.reverse_reverse as, heq]
  simp

theorem splitOn_append_of_not_mem {c : Char} {front : List Char} (h : c ∉ front) (cs : List Char) :
    (front ++ cs).splitOn c = (cs.splitOn c).modifyHead (front ++ ·) := by
  obtain ⟨first, further, hcs⟩ := List.exists_cons_of_ne_nil (List.splitOn_ne_nil c cs)
  rw [hcs]
  induction front with
  | nil => exact hcs
  | cons x front ih =>
    obtain ⟨hx, hfront⟩ := not_or.1 (fun hmem => h (List.mem_cons.2 hmem))
    rw [List.cons_append, List.splitOn_cons_eq_if_modifyHead, if_neg (by simpa using Ne.symm hx),
      ih hfront]
    rfl

theorem not_mem_of_mem_splitOn {c : Char} {cs l : List Char} (h : l ∈ cs.splitOn c) : c ∉ l := by
  induction cs generalizing l with
  | nil =>
    rw [List.splitOn_nil, List.mem_singleton] at h
    simp [h]
  | cons x cs ih =>
    rw [List.splitOn_cons_eq_if_modifyHead] at h
    obtain ⟨first, further, hcs⟩ := List.exists_cons_of_ne_nil (List.splitOn_ne_nil c cs)
    rw [hcs] at h ih
    by_cases hx : x = c
    · rw [if_pos (by simpa using hx)] at h
      rcases List.mem_cons.1 h with rfl | h
      · exact List.not_mem_nil
      · exact ih h
    · rw [if_neg (by simpa using hx)] at h
      rcases List.mem_cons.1 h with rfl | h
      · exact List.not_mem_cons_of_ne_of_not_mem (Ne.symm hx) (ih List.mem_cons_self)
      · exact ih (List.mem_cons_of_mem first h)

end CodeChart.Text
