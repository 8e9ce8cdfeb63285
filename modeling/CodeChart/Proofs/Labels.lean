import CodeChart.Graph.Drawing
import CodeChart.Graph.Connect
import Mathlib.Data.String.Basic
import Mathlib.Data.List.Sort

/-! The labels that a line shows: every label that says something, once, in the order of code
points. What is shown depends on the set of labels alone, so labels that are repeated while a
chart is connected or drawn change nothing. -/
namespace CodeChart.Graph

variable {labels : List Label}

private theorem nodup_eraseDups_of_length (n : Nat) :
    ∀ l : List String, l.length ≤ n → l.eraseDups.Nodup := by
  induction n with
  | zero =>
    intro l hl
    obtain rfl := List.length_eq_zero_iff.1 (Nat.le_zero.1 hl)
    exact List.nodup_nil
  | succ n ih =>
    intro l hl
    cases l with
    | nil => exact List.nodup_nil
    | cons a l =>
      rw [List.eraseDups_cons]
      refine List.nodup_cons.2 ⟨by simp [List.mem_eraseDups], ih _ ?_⟩
      have := List.length_filter_le (fun b => !b == a) l
      simp only [List.length_cons] at hl
      omega

theorem mem_shownLabels {x : String} : x ∈ shownLabels labels ↔ x ≠ "" ∧ some x ∈ labels := by
  simp only [shownLabels, List.mem_mergeSort, List.mem_eraseDups, List.mem_filter,
    List.mem_filterMap, id_eq, exists_eq_right, Bool.not_eq_true']
  constructor
  · rintro ⟨hmem, hx⟩
    exact ⟨fun h => by simp [h] at hx, hmem⟩
  · rintro ⟨hx, hmem⟩
    exact ⟨hmem, by simpa using hx⟩

theorem shownLabels_pairwise (labels : List Label) : (shownLabels labels).Pairwise (· < ·) := by
  have hle : (shownLabels labels).Pairwise (· ≤ ·) := by
    refine (List.pairwise_mergeSort ?_ ?_ _).imp (fun h => of_decide_eq_true h)
    · intro a b c hab hbc
      simp only [decide_eq_true_eq] at hab hbc ⊢
      exact le_trans hab hbc
    · intro a b
      simpa using le_total a b
  have hne : (shownLabels labels).Nodup :=
    (List.mergeSort_perm _ _).nodup_iff.2 (nodup_eraseDups_of_length _ _ (Nat.le_refl _))
  exact (hle.and hne).imp (fun h => lt_of_le_of_ne h.1 h.2)

theorem shownLabels_congr {labels' : List Label}
    (h : ∀ x, x ≠ "" → (some x ∈ labels ↔ some x ∈ labels')) :
    shownLabels labels = shownLabels labels' := by
  refine (shownLabels_pairwise labels).eq_of_mem_iff (shownLabels_pairwise labels') ?_
  intro x
  rw [mem_shownLabels, mem_shownLabels]
  exact and_congr_right (h x)

theorem shownLabels_bridgeLabels (answer : Bool) (labels : List Label) {blank : List Label}
    (h : ∀ l ∈ blank, l = some "") :
    shownLabels (bridgeLabels answer labels blank) = shownLabels labels := by
  apply shownLabels_congr
  intro x hx
  have hne : some x ∉ blank := fun hmem => hx (Option.some.inj (h _ hmem))
  cases answer <;> simp [bridgeLabels, hne]

@[simp] theorem shownLabels_none : shownLabels [some "", none] = [] := by
  rw [List.eq_nil_iff_forall_not_mem]
  simp [mem_shownLabels]

theorem shownLabels_singleton {word : String} (h : word ≠ "") :
    shownLabels [some "", some word] = [word] := by
  refine (shownLabels_pairwise _).eq_of_mem_iff (List.pairwise_singleton _ _) ?_
  intro x
  simp only [mem_shownLabels, List.mem_cons, List.not_mem_nil, or_false, Option.some.injEq]
  constructor
  · rintro ⟨hx, rfl | rfl⟩
    · exact absurd rfl hx
    · rfl
  · rintro rfl
    exact ⟨h, Or.inr rfl⟩

end CodeChart.Graph
