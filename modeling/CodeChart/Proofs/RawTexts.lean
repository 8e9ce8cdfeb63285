import CodeChart.Proofs.Splitting
import CodeChart.Text.Raw

/-! Raw texts. A text without stray bytes is the same as a string: it is encoded and shown as the
string is, and nothing else can be encoded. The part after the last mark holds no mark. -/
namespace CodeChart.Text.Raw

def IsText (raw : Raw) : Prop := ∃ text, raw = ofText text

@[simp] theorem ofText_append (a b : String) : ofText (a ++ b) = ofText a ++ ofText b := by
  simp [ofText]

theorem ofText_injective : Function.Injective ofText := by
  intro a b h
  have hchars : a.toList = b.toList :=
    List.map_injective_iff.2 (fun _ _ hc => Sign.char.inj hc) h
  exact String.toList_inj.1 hchars

theorem mapM_char?_eq_some_iff {raw : Raw} {cs : List Char} :
    raw.mapM Sign.char? = some cs ↔ raw = cs.map Sign.char := by
  induction raw generalizing cs with
  | nil => cases cs <;> simp
  | cons s rest ih =>
    cases s with
    | stray k => cases cs <;> simp [Sign.char?]
    | char c =>
      have hcons : (Sign.char c :: rest).mapM Sign.char? = (c :: ·) <$> rest.mapM Sign.char? := by
        rw [List.mapM_cons]
        cases rest.mapM Sign.char? <;> rfl
      rw [hcons, Option.map_eq_map, Option.map_eq_some_iff]
      constructor
      · rintro ⟨cs', hrest, rfl⟩
        rw [ih.1 hrest]
        rfl
      · intro h
        cases cs with
        | nil => cases h
        | cons d cs =>
          cases h
          exact ⟨cs, ih.2 rfl, rfl⟩

theorem text?_eq_some_iff {raw : Raw} {text : String} :
    raw.text? = some text ↔ raw = ofText text := by
  constructor
  · intro h
    obtain ⟨cs, hcs, rfl⟩ := Option.map_eq_some_iff.1 h
    rw [mapM_char?_eq_some_iff.1 hcs, ofText, String.toList_ofList]
  · rintro rfl
    have hchars := mapM_char?_eq_some_iff.2 (show ofText text = _ from rfl)
    rw [text?, hchars, Option.map_eq_map, Option.map_some, String.ofList_toList]

@[simp] theorem utf8_append (a b : String) : utf8 (a ++ b) = utf8 a ++ utf8 b := by
  simp [utf8]

theorem encode_ofText (text : String) : (ofText text).encode = .ok (utf8 text) := by
  rw [encode, text?_eq_some_iff.2 rfl]
  rfl

theorem isText_iff {raw : Raw} : IsText raw ↔ ∀ s ∈ raw, ∃ c, s = Sign.char c := by
  constructor
  · rintro ⟨text, rfl⟩ s hs
    obtain ⟨c, -, rfl⟩ := List.mem_map.1 hs
    exact ⟨c, rfl⟩
  · intro h
    induction raw with
    | nil => exact ⟨"", rfl⟩
    | cons s rest ih =>
      obtain ⟨c, rfl⟩ := h s List.mem_cons_self
      obtain ⟨text, rfl⟩ := ih fun s hs => h s (List.mem_cons_of_mem _ hs)
      exact ⟨String.ofList (c :: text.toList), by simp [ofText]⟩

theorem IsText.of_subset {raw part : Raw} (h : IsText raw) (hsub : part ⊆ raw) : IsText part :=
  isText_iff.2 fun s hs => isText_iff.1 h s (hsub hs)

theorem IsText.append {raw raw' : Raw} (h : IsText raw) (h' : IsText raw') :
    IsText (raw ++ raw') := by
  obtain ⟨a, rfl⟩ := h
  obtain ⟨b, rfl⟩ := h'
  exact ⟨a ++ b, (ofText_append a b).symm⟩

theorem takeWhile_reverse {mark : Sign} {part : Raw} (h : mark ∉ part) (rest : Raw) :
    (part.reverse ++ rest).takeWhile (· ≠ mark) = part.reverse ++ rest.takeWhile (· ≠ mark) := by
  refine List.takeWhile_append_of_pos ?_
  intro s hs
  simpa using fun heq : s = mark => h (heq ▸ List.mem_reverse.1 hs)

theorem afterLast_of_not_mem {mark : Sign} {raw : Raw} (h : mark ∉ raw) :
    raw.afterLast mark = raw := by
  have htaken := takeWhile_reverse h []
  rw [List.append_nil, List.takeWhile_nil, List.append_nil] at htaken
  rw [afterLast, htaken, List.reverse_reverse]

theorem afterLast_append {mark : Sign} {part : Raw} (h : mark ∉ part) (before : Raw) :
    (before ++ mark :: part).afterLast mark = part := by
  rw [afterLast, List.reverse_append, List.reverse_cons, List.append_assoc, takeWhile_reverse h]
  simp

/-- What stands after the last mark holds no mark, and it is all of the text or follows a mark. -/
theorem afterLast_eq_iff {mark : Sign} {raw part : Raw} :
    raw.afterLast mark = part ↔
      mark ∉ part ∧ (raw = part ∨ ∃ before, raw = before ++ mark :: part) := by
  constructor
  · rintro rfl
    by_cases hmem : mark ∈ raw
    · obtain ⟨before, after, rfl, hlast⟩ := exists_last_of_mem hmem
      rw [afterLast_append hlast]
      exact ⟨hlast, .inr ⟨before, rfl⟩⟩
    · rw [afterLast_of_not_mem hmem]
      exact ⟨hmem, .inl rfl⟩
  · rintro ⟨hpart, rfl | ⟨before, rfl⟩⟩
    · exact afterLast_of_not_mem hpart
    · exact afterLast_append hpart before

theorem afterLast_subset (mark : Sign) (raw : Raw) : raw.afterLast mark ⊆ raw := by
  intro s hs
  exact List.mem_reverse.1 ((List.takeWhile_sublist _).subset (List.mem_reverse.1 hs))

end CodeChart.Text.Raw
