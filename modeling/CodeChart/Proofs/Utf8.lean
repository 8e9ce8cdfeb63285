import CodeChart.Text.Encoding
import Mathlib.Algebra.Group.Nat.Defs
import Mathlib.Data.List.Induction
import Mathlib.Tactic.Common

/-! UTF-8 byte by byte. A number is written in a form of one to four bytes: the lead byte tells the
width and holds the highest digits, and each tail byte holds one digit to base 64. A text is written
with the shortest form of each of its characters. Bytes that begin with no character are malformed
in one of a few ways. Main statement: a guess that is not sure, or names nothing, decodes exactly
the bytes that are written so. -/
namespace CodeChart.Text

inductive Width where
  | one | two | three | four
  deriving DecidableEq, Repr

namespace Width

/-- The number of bytes behind the lead byte. -/
def tails : Width → Nat
  | one => 0
  | two => 1
  | three => 2
  | four => 3

def lead : Width → Nat
  | one => 0x00
  | two => 0xC0
  | three => 0xE0
  | four => 0xF0

def leads : Width → Nat
  | one => 0x80
  | two => 0x20
  | three => 0x10
  | four => 0x08

/-- The lowest number that no smaller width can hold. -/
def least : Width → Nat
  | one => 0
  | two => 0x80
  | three => 0x800
  | four => 0x10000

/-- The lowest number that is too large for the width. -/
def limit (w : Width) : Nat := w.leads * 64 ^ w.tails

def of (v : Nat) : Width :=
  if v < 0x80 then one else if v < 0x800 then two else if v < 0x10000 then three else four

/-- Whether a byte announces this width. -/
def Leads (w : Width) (b : UInt8) : Prop := w.lead ≤ b.toNat ∧ b.toNat < w.lead + w.leads

end Width

def IsTail (b : UInt8) : Prop := 0x80 ≤ b.toNat ∧ b.toNat < 0xC0

instance (b : UInt8) : Decidable (IsTail b) := inferInstanceAs (Decidable (_ ∧ _))

/-- The last digits of a number to base 64 as tail bytes, the highest first. -/
def tailDigits : Nat → Nat → List UInt8
  | 0, _ => []
  | k + 1, v => tailDigits k (v / 64) ++ [UInt8.ofNat (0x80 + v % 64)]

/-- A number in the bytes of a width, which need not be the smallest. -/
def Width.form (w : Width) (v : Nat) : List UInt8 :=
  UInt8.ofNat (w.lead + v / 64 ^ w.tails) :: tailDigits w.tails v

/-- The bytes of a character: the shortest form of its code point. -/
def charBytes (c : Char) : List UInt8 := (Width.of c.toNat).form c.toNat

/-- The bytes of a text. -/
def utf8Bytes (text : String) : List UInt8 := text.toList.flatMap charBytes

/-- Bytes that begin with no character. -/
inductive Malformed : List UInt8 → Prop where
  /-- A tail byte without a lead byte. -/
  | stray {b : UInt8} (rest : List UInt8) : IsTail b → Malformed (b :: rest)
  /-- A lead byte with too few tail bytes, before the end or before another lead byte. -/
  | truncated {w : Width} {b : UInt8} {ts rest : List UInt8} : w.Leads b → (∀ t ∈ ts, IsTail t) →
      ts.length < w.tails → (∀ t ∈ rest.head?, ¬ IsTail t) → Malformed (b :: (ts ++ rest))
  /-- A number for which fewer bytes would do. -/
  | overlong {w : Width} {v : Nat} (rest : List UInt8) : v < w.least → Malformed (w.form v ++ rest)
  | surrogate {v : Nat} (rest : List UInt8) : 0xD800 ≤ v → v < 0xE000 →
      Malformed (Width.three.form v ++ rest)
  /-- A number beyond the last code point. -/
  | outOfRange {v : Nat} (rest : List UInt8) : 0x10FFFF < v → v < Width.four.limit →
      Malformed (Width.four.form v ++ rest)
  /-- A byte that announces more than four bytes. -/
  | tooWide {b : UInt8} (rest : List UInt8) : 0xF8 ≤ b.toNat → Malformed (b :: rest)

@[simp] theorem length_tailDigits (k v : Nat) : (tailDigits k v).length = k := by
  induction k generalizing v with
  | zero => rfl
  | succ k ih => simp [tailDigits, ih]

theorem isTail_of_mem_tailDigits {k v : Nat} {b : UInt8} (h : b ∈ tailDigits k v) : IsTail b := by
  induction k generalizing v with
  | zero => cases h
  | succ k ih =>
    rcases List.mem_append.1 h with h | h
    · exact ih h
    · obtain rfl := List.mem_singleton.1 h
      have hv : v % 64 < 64 := Nat.mod_lt _ (by omega)
      unfold IsTail
      rw [UInt8.toNat_ofNat_of_lt' (by unfold UInt8.size; omega)]
      omega

theorem eq_of_tailDigits_eq {k v v' : Nat} (h : tailDigits k v = tailDigits k v')
    (htop : v / 64 ^ k = v' / 64 ^ k) : v = v' := by
  induction k generalizing v v' with
  | zero => simpa using htop
  | succ k ih =>
    obtain ⟨hhigh, hlow⟩ := List.append_inj h (by simp)
    have htop' : v / 64 / 64 ^ k = v' / 64 / 64 ^ k := by
      rwa [Nat.div_div_eq_div_mul, Nat.div_div_eq_div_mul, ← Nat.pow_succ']
    have hdiv : v / 64 = v' / 64 := ih hhigh htop'
    have hv : v % 64 < 64 := Nat.mod_lt _ (by omega)
    have hv' : v' % 64 < 64 := Nat.mod_lt _ (by omega)
    have hmod : 0x80 + v % 64 = 0x80 + v' % 64 := by
      have := congrArg UInt8.toNat (List.cons.inj hlow).1
      rwa [UInt8.toNat_ofNat_of_lt' (by unfold UInt8.size; omega), UInt8.toNat_ofNat_of_lt'
        (by unfold UInt8.size; omega)] at this
    omega

theorem exists_tailDigits (top : Nat) {ts : List UInt8} (hts : ∀ t ∈ ts, IsTail t) :
    ∃ v, v / 64 ^ ts.length = top ∧ tailDigits ts.length v = ts := by
  induction ts using List.reverseRecOn with
  | nil => exact ⟨top, by simp, rfl⟩
  | append_singleton ts t ih =>
    obtain ⟨v, hv, hdigits⟩ := ih (fun b hb => hts b (List.mem_append_left _ hb))
    have ht : IsTail t := hts t (by simp)
    have hdigit : (64 * v + (t.toNat - 0x80)) / 64 = v := by
      unfold IsTail at ht
      omega
    refine ⟨64 * v + (t.toNat - 0x80), ?_, ?_⟩
    · rw [List.length_append, List.length_singleton, Nat.pow_succ',
        ← Nat.div_div_eq_div_mul, hdigit, hv]
    · rw [List.length_append, List.length_singleton, tailDigits, hdigit, hdigits]
      have hlast : 0x80 + (64 * v + (t.toNat - 0x80)) % 64 = t.toNat := by
        unfold IsTail at ht
        omega
      rw [hlast, UInt8.ofNat_toNat]

namespace Width

theorem Leads.unique {w w' : Width} {b : UInt8} (h : w.Leads b) (h' : w'.Leads b) : w = w' := by
  unfold Leads at h h'
  cases w <;> cases w' <;> simp only [lead, leads] at h h' <;> first | rfl | omega

theorem Leads.not_isTail {w : Width} {b : UInt8} (h : w.Leads b) : ¬ IsTail b := by
  unfold Leads at h
  unfold IsTail
  cases w <;> simp only [lead, leads] at h <;> omega

theorem Leads.lt {w : Width} {b : UInt8} (h : w.Leads b) : b.toNat < 0xF8 := by
  unfold Leads at h
  cases w <;> simp only [lead, leads] at h <;> omega

theorem leads_or_isTail (b : UInt8) : (∃ w : Width, w.Leads b) ∨ IsTail b ∨ 0xF8 ≤ b.toNat := by
  have hlt := b.toNat_lt
  unfold Leads IsTail
  by_cases h1 : b.toNat < 0x80
  · exact Or.inl ⟨one, by simp only [lead, leads]; omega⟩
  by_cases h2 : b.toNat < 0xC0
  · exact Or.inr (Or.inl (by omega))
  by_cases h3 : b.toNat < 0xE0
  · exact Or.inl ⟨two, by simp only [lead, leads]; omega⟩
  by_cases h4 : b.toNat < 0xF0
  · exact Or.inl ⟨three, by simp only [lead, leads]; omega⟩
  by_cases h5 : b.toNat < 0xF8
  · exact Or.inl ⟨four, by simp only [lead, leads]; omega⟩
  · exact Or.inr (Or.inr (by omega))

theorem lead_add_leads_le (w : Width) : w.lead + w.leads ≤ 0xF8 := by
  cases w <;> decide

theorem div_lt_leads {w : Width} {v : Nat} (h : v < w.limit) : v / 64 ^ w.tails < w.leads :=
  Nat.div_lt_of_lt_mul (by rwa [Nat.mul_comm])

theorem leads_form {w : Width} {v : Nat} (h : v < w.limit) :
    w.Leads (UInt8.ofNat (w.lead + v / 64 ^ w.tails)) := by
  have hlead := w.lead_add_leads_le
  have hdiv := div_lt_leads h
  unfold Leads
  rw [UInt8.toNat_ofNat_of_lt' (by unfold UInt8.size; omega)]
  exact ⟨Nat.le_add_right _ _, Nat.add_lt_add_left hdiv _⟩

theorem form_append_inj {w w' : Width} {v v' : Nat} {rest rest' : List UInt8} (h : v < w.limit)
    (h' : v' < w'.limit) (heq : w.form v ++ rest = w'.form v' ++ rest') :
    w = w' ∧ v = v' ∧ rest = rest' := by
  simp only [form, List.cons_append, List.cons.injEq] at heq
  obtain ⟨hlead, htail⟩ := heq
  obtain rfl : w = w' := (leads_form h).unique (hlead ▸ leads_form h')
  obtain ⟨hdigits, hrest⟩ := List.append_inj htail (by simp)
  have hle := w.lead_add_leads_le
  have hdiv := div_lt_leads h
  have hdiv' := div_lt_leads h'
  have htop := congrArg UInt8.toNat hlead
  rw [UInt8.toNat_ofNat_of_lt' (by unfold UInt8.size; omega), UInt8.toNat_ofNat_of_lt'
    (by unfold UInt8.size; omega)] at htop
  exact ⟨rfl, eq_of_tailDigits_eq hdigits (by omega), hrest⟩

theorem exists_form {w : Width} {b : UInt8} {ts : List UInt8} (hb : w.Leads b)
    (hts : ∀ t ∈ ts, IsTail t) (hlen : ts.length = w.tails) :
    ∃ v, v < w.limit ∧ b :: ts = w.form v := by
  obtain ⟨v, hv, hdigits⟩ := exists_tailDigits (b.toNat - w.lead) hts
  rw [hlen] at hv hdigits
  unfold Leads at hb
  refine ⟨v, ?_, ?_⟩
  · refine Nat.lt_of_not_le fun hle => ?_
    have := Nat.div_le_div_right (c := 64 ^ w.tails) hle
    rw [limit, Nat.mul_div_cancel _ (Nat.pow_pos (by omega)), hv] at this
    omega
  · rw [form, hdigits, hv, Nat.add_sub_cancel' hb.1, UInt8.ofNat_toNat]

theorem least_le_of (v : Nat) : (Width.of v).least ≤ v := by
  unfold Width.of
  split_ifs <;> simp only [least] <;> omega

theorem of_eq {w : Width} {v : Nat} (hleast : w.least ≤ v) (hlimit : v < w.limit) :
    Width.of v = w := by
  unfold Width.of
  cases w <;> simp only [limit, least, leads, tails] at hleast hlimit <;>
    split_ifs <;> first | rfl | omega

theorem least_le_limit (w : Width) : w.least ≤ w.limit := by
  cases w <;> decide

end Width

theorem toNat_lt_limit (c : Char) : c.toNat < (Width.of c.toNat).limit := by
  have hc : c.toNat < 0x110000 := by
    have hvalid : c.toNat.isValidChar := c.valid
    unfold Nat.isValidChar at hvalid
    omega
  unfold Width.of
  split_ifs <;> simp only [Width.limit, Width.leads, Width.tails] <;> omega

theorem exists_charBytes {w : Width} {v : Nat} (hleast : w.least ≤ v) (hlimit : v < w.limit)
    (hvalid : v.isValidChar) : ∃ c, charBytes c = w.form v := by
  refine ⟨Char.ofNatAux v hvalid, ?_⟩
  have hc : (Char.ofNatAux v hvalid).toNat = v := rfl
  rw [charBytes, hc, Width.of_eq hleast hlimit]

/-- The tail bytes at the beginning of some bytes: as many as are asked for, or too few. -/
theorem split_tails (k : Nat) (bytes : List UInt8) :
    ∃ ts rest, bytes = ts ++ rest ∧ (∀ t ∈ ts, IsTail t) ∧
      (ts.length = k ∨ ts.length < k ∧ ∀ t ∈ rest.head?, ¬ IsTail t) := by
  induction k generalizing bytes with
  | zero => exact ⟨[], bytes, rfl, by simp, Or.inl rfl⟩
  | succ k ih =>
    cases bytes with
    | nil => exact ⟨[], [], rfl, by simp, Or.inr (by simp)⟩
    | cons b bytes =>
      by_cases hb : IsTail b
      · obtain ⟨ts, rest, rfl, hts, hlen⟩ := ih bytes
        refine ⟨b :: ts, rest, rfl, List.forall_mem_cons.2 ⟨hb, hts⟩, ?_⟩
        simpa using hlen
      · exact ⟨[], b :: bytes, rfl, by simp, Or.inr (by simpa using hb)⟩

/-- A full form is a character, unless it is overlong, a surrogate or out of range. -/
theorem form_cases {w : Width} {v : Nat} (hlimit : v < w.limit) (rest : List UInt8) :
    (∃ c, charBytes c = w.form v) ∨ Malformed (w.form v ++ rest) := by
  by_cases hleast : w.least ≤ v
  · by_cases hvalid : v.isValidChar
    · exact Or.inl (exists_charBytes hleast hlimit hvalid)
    · refine Or.inr ?_
      unfold Nat.isValidChar at hvalid
      cases w with
      | one => simp only [Width.limit, Width.leads, Width.tails] at hlimit; omega
      | two => simp only [Width.limit, Width.leads, Width.tails] at hlimit; omega
      | three =>
        simp only [Width.limit, Width.leads, Width.tails] at hlimit
        exact .surrogate rest (by omega) (by omega)
      | four =>
        simp only [Width.least] at hleast
        exact .outOfRange rest (by omega) hlimit
  · exact Or.inr (.overlong rest (by omega))

theorem charBytes_or_malformed (b : UInt8) (bytes : List UInt8) :
    (∃ c rest, b :: bytes = charBytes c ++ rest) ∨ Malformed (b :: bytes) := by
  rcases Width.leads_or_isTail b with ⟨w, hb⟩ | hb | hb
  · obtain ⟨ts, rest, rfl, hts, hlen | ⟨hlen, hrest⟩⟩ := split_tails w.tails bytes
    · obtain ⟨v, hv, hform⟩ := Width.exists_form hb hts hlen
      rw [← List.cons_append, hform]
      rcases form_cases hv rest with ⟨c, hc⟩ | hbad
      · exact Or.inl ⟨c, rest, by rw [hc]⟩
      · exact Or.inr hbad
    · exact Or.inr (.truncated hb hts hlen hrest)
  · exact Or.inr (.stray bytes hb)
  · exact Or.inr (.tooWide bytes hb)

/-- Tail bytes that stand before fewer tail bytes and something else do not exist. -/
theorem not_append_of_length_lt {ts us rest rest' : List UInt8} (hlen : ts.length < us.length)
    (hus : ∀ u ∈ us, IsTail u) (hrest : ∀ t ∈ rest.head?, ¬ IsTail t) :
    ts ++ rest ≠ us ++ rest' := by
  intro heq
  rcases List.append_eq_append_iff.1 heq with ⟨more, rfl, rfl⟩ | ⟨more, rfl, -⟩
  · cases more with
    | nil => simp at hlen
    | cons u more => exact hrest u (by simp) (hus u (by simp))
  · rw [List.length_append] at hlen
    omega

theorem Malformed.not_charBytes {bytes : List UInt8} (h : Malformed bytes) (c : Char)
    (rest : List UInt8) : bytes ≠ charBytes c ++ rest := by
  intro heq
  have hlimit := toNat_lt_limit c
  have hleads := Width.leads_form hlimit
  have hleast := Width.least_le_of c.toNat
  have hvalid : c.toNat.isValidChar := c.valid
  unfold Nat.isValidChar at hvalid
  cases h with
  | stray rest' hb =>
    obtain rfl := (List.cons.inj heq).1
    exact hleads.not_isTail hb
  | truncated hb hts hlen hrest =>
    obtain ⟨rfl, htail⟩ := List.cons.inj heq
    obtain rfl := hb.unique hleads
    exact not_append_of_length_lt (by simpa using hlen) (fun _ =>
      isTail_of_mem_tailDigits) hrest htail
  | @overlong w v rest' hv =>
    obtain ⟨rfl, rfl, -⟩ :=
      Width.form_append_inj (Nat.lt_of_lt_of_le hv w.least_le_limit) hlimit heq
    omega
  | @surrogate v rest' hlow hhigh =>
    have hv : v < Width.three.limit := by
      simp only [Width.limit, Width.leads, Width.tails]
      omega
    obtain ⟨-, rfl, -⟩ := Width.form_append_inj hv hlimit heq
    omega
  | outOfRange rest' hlow hv =>
    obtain ⟨-, rfl, -⟩ := Width.form_append_inj hv hlimit heq
    omega
  | tooWide rest' hb =>
    obtain rfl := (List.cons.inj heq).1
    have := hleads.lt
    omega

theorem Malformed.ne_nil {bytes : List UInt8} (h : Malformed bytes) : bytes ≠ [] := by
  cases h <;> simp [Width.form]

theorem chars_or_malformed (bytes : List UInt8) :
    (∃ cs : List Char, bytes = cs.flatMap charBytes) ∨
      ∃ (cs : List Char) (rest : List UInt8), bytes = cs.flatMap charBytes ++ rest ∧
        Malformed rest := by
  induction hn : bytes.length using Nat.strongRecOn generalizing bytes with
  | _ n ih =>
    cases bytes with
    | nil => exact Or.inl ⟨[], rfl⟩
    | cons b bytes =>
      rcases charBytes_or_malformed b bytes with ⟨c, rest, heq⟩ | hbad
      · have hlen : rest.length < n := by
          rw [← hn, heq, List.length_append, charBytes, Width.form, List.length_cons]
          omega
        rcases ih _ hlen rest rfl with ⟨cs, rfl⟩ | ⟨cs, rest', rfl, hbad⟩
        · exact Or.inl ⟨c :: cs, by simpa using heq⟩
        · exact Or.inr ⟨c :: cs, rest', by simpa using heq, hbad⟩
      · exact Or.inr ⟨[], b :: bytes, rfl, hbad⟩

theorem Malformed.not_chars {rest : List UInt8} (h : Malformed rest) (cs cs' : List Char) :
    cs.flatMap charBytes ++ rest ≠ cs'.flatMap charBytes := by
  induction cs generalizing cs' with
  | nil =>
    cases cs' with
    | nil => exact h.ne_nil
    | cons c cs' => exact h.not_charBytes c _
  | cons c cs ih =>
    intro heq
    cases cs' with
    | nil => simp [charBytes, Width.form] at heq
    | cons c' cs' =>
      simp only [List.flatMap_cons, List.append_assoc] at heq
      obtain ⟨-, -, heq⟩ := Width.form_append_inj (toNat_lt_limit c) (toNat_lt_limit c') heq
      exact ih cs' heq

theorem utf8EncodeChar_eq (c : Char) : String.utf8EncodeChar c = charBytes c := by
  have hlimit := toNat_lt_limit c
  have hlast : c.toNat % 64 + 128 = 128 + c.toNat % 64 := Nat.add_comm _ _
  have hmiddle : c.toNat / 64 % 64 + 128 = 128 + c.toNat / 64 % 64 := Nat.add_comm _ _
  have hval : c.val.toNat = c.toNat := rfl
  unfold String.utf8EncodeChar charBytes
  simp only [hval]
  by_cases h1 : c.toNat ≤ 0x7F
  · rw [if_pos h1, Width.of_eq (w := .one) (Nat.zero_le _) (by change _ < 0x80; omega)]
    simp [Width.form, Width.lead, Width.tails, tailDigits]
  by_cases h2 : c.toNat ≤ 0x7FF
  · rw [if_neg h1, if_pos h2, Width.of_eq (w := .two) (by change 0x80 ≤ _; omega)
      (by change _ < 0x800; omega)]
    have htop : c.toNat / 64 % 32 + 192 = 192 + c.toNat / 64 ^ 1 := by omega
    simp only [Width.form, Width.lead, Width.tails, tailDigits, htop, hlast, List.nil_append]
  by_cases h3 : c.toNat ≤ 0xFFFF
  · rw [if_neg h1, if_neg h2, if_pos h3, Width.of_eq (w := .three) (by change 0x800 ≤ _; omega)
      (by change _ < 0x10000; omega)]
    have htop : c.toNat / 4096 % 16 + 224 = 224 + c.toNat / 64 ^ 2 := by omega
    simp only [Width.form, Width.lead, Width.tails, tailDigits, htop, hmiddle,
      hlast, List.nil_append,
      List.cons_append]
  · have hwidth : Width.of c.toNat = .four := by
      simp only [Width.of]
      split_ifs <;> first | rfl | omega
    rw [hwidth] at hlimit ⊢
    change c.toNat < 0x200000 at hlimit
    rw [if_neg h1, if_neg h2, if_neg h3]
    have htop : c.toNat / 262144 % 8 + 240 = 240 + c.toNat / 64 ^ 3 := by omega
    have hsecond : c.toNat / 4096 % 64 + 128 = 128 + c.toNat / 64 / 64 % 64 := by omega
    simp only [Width.form, Width.lead, Width.tails, tailDigits, htop, hsecond, hmiddle, hlast,
      List.nil_append, List.cons_append]

theorem toByteArray_eq (text : String) : text.toByteArray = (utf8Bytes text).toByteArray := by
  have h : (String.ofList text.toList).toByteArray = text.toList.utf8Encode :=
    String.toByteArray_ofList
  rw [String.ofList_toList] at h
  rw [h, List.utf8Encode, utf8Bytes, funext utf8EncodeChar_eq]

theorem decodeUtf8_eq_some_iff {bytes : List UInt8} {text : String} :
    decodeUtf8 bytes = some text ↔ bytes = utf8Bytes text := by
  have hbytes : (⟨bytes.toArray⟩ : ByteArray) = bytes.toByteArray := by
    rw [← List.data_toByteArray]
  have hinj : bytes.toByteArray = text.toByteArray ↔ bytes = utf8Bytes text := by
    rw [toByteArray_eq]
    constructor
    · intro h
      have := congrArg ByteArray.data h
      simpa [List.data_toByteArray] using this
    · intro h
      rw [h]
  rw [← hinj, decodeUtf8, hbytes, String.fromUTF8?]
  split_ifs with hvalid
  · rw [Option.some_inj, ← String.toByteArray_inj]
    rfl
  · constructor
    · intro h
      cases h
    · intro h
      exact absurd (h ▸ text.isValidUTF8) hvalid

theorem decodeUtf8_eq_none_iff {bytes : List UInt8} :
    decodeUtf8 bytes = none ↔
      ∃ (text : String) (rest : List UInt8), bytes = utf8Bytes text ++ rest ∧ Malformed rest := by
  constructor
  · intro hnone
    rcases chars_or_malformed bytes with ⟨cs, rfl⟩ | ⟨cs, rest, rfl, hbad⟩
    · have hsome : decodeUtf8 (cs.flatMap charBytes) = some (String.ofList cs) :=
        decodeUtf8_eq_some_iff.2 (by rw [utf8Bytes, String.toList_ofList])
      rw [hnone] at hsome
      cases hsome
    · exact ⟨String.ofList cs, rest, by rw [utf8Bytes, String.toList_ofList], hbad⟩
  · rintro ⟨text, rest, rfl, hbad⟩
    cases hdecode : decodeUtf8 (utf8Bytes text ++ rest) with
    | none => rfl
    | some text' => exact absurd (decodeUtf8_eq_some_iff.1 hdecode) (hbad.not_chars _ _)

theorem utf8Bytes_append (text text' : String) :
    utf8Bytes (text ++ text') = utf8Bytes text ++ utf8Bytes text' := by
  rw [utf8Bytes, String.toList_append, List.flatMap_append]
  rfl

/-- A guess of less than nine tenths, or without a name. -/
def Guess.IsUnsure (g : Guess) : Prop :=
  10 * g.confidence.digits < 9 * 10 ^ g.confidence.places ∨ g.name = none

theorem Guess.taken_of_isUnsure {g : Guess} (h : g.IsUnsure) : g.taken = "UTF-8" := by
  unfold Guess.taken
  rcases h with h | h
  · have hsure : g.confidence.isSure = false := by
      simp only [Confidence.isSure, decide_eq_false_iff_not]
      exact Nat.not_le_of_lt h
    rw [hsure]
    rfl
  · rw [h]
    split_ifs <;> rfl

theorem Guess.decode_of_isUnsure {g : Guess} (h : g.IsUnsure) (codecs : Codecs)
    (bytes : List UInt8) :
    g.decode codecs bytes = (decodeUtf8 bytes).elim (.error .undecodable) .ok := by
  have hname : Encoding.ofName? "UTF-8" = some .utf8 := by decide
  unfold Guess.decode
  rw [Guess.taken_of_isUnsure h, hname]
  cases bytes with
  | nil => rw [decodeUtf8_eq_some_iff.2 (show [] = utf8Bytes "" from rfl)]; rfl
  | cons b bytes =>
    simp only [List.isEmpty_cons, Encoding.decode?]
    cases decodeUtf8 (b :: bytes) <;> rfl

/-- A guess that is not sure, or names nothing, decodes exactly UTF-8. Bytes have a text exactly if
they are the bytes of that text; otherwise they are undecodable, and this is so exactly if they are
malformed behind some text. So no two lists of bytes have one text, every text is read back from its
bytes, and a mark at their beginning is read as a character. -/
theorem unsure_guess_decodes_utf8 (codecs : Codecs) (g : Guess) (h : g.IsUnsure)
    (bytes : List UInt8) :
    (∀ text, g.decode codecs bytes = .ok text ↔ bytes = utf8Bytes text) ∧
    ((¬ ∃ text, bytes = utf8Bytes text) → g.decode codecs bytes = .error .undecodable) ∧
    (g.decode codecs bytes = .error .undecodable ↔
      ∃ text rest, bytes = utf8Bytes text ++ rest ∧ Malformed rest) ∧
    (∀ bytes' text, g.decode codecs bytes = .ok text → g.decode codecs bytes' = .ok text →
      bytes = bytes') ∧
    (∀ text, g.decode codecs (utf8Bytes text) = .ok text) ∧
    (∀ text, g.decode codecs (utf8Mark ++ utf8Bytes text) = .ok ("\uFEFF" ++ text)) := by
  have hok : ∀ bytes text, g.decode codecs bytes = .ok text ↔ bytes = utf8Bytes text := by
    intro bytes text
    rw [Guess.decode_of_isUnsure h, ← decodeUtf8_eq_some_iff]
    cases decodeUtf8 bytes <;> simp
  have herror : g.decode codecs bytes = .error .undecodable ↔ decodeUtf8 bytes = none := by
    rw [Guess.decode_of_isUnsure h]
    cases decodeUtf8 bytes <;> simp
  refine ⟨hok bytes, ?_, herror.trans decodeUtf8_eq_none_iff, ?_, ?_, ?_⟩
  · intro hno
    rw [herror, Option.eq_none_iff_forall_ne_some]
    intro text htext
    exact hno ⟨text, decodeUtf8_eq_some_iff.1 htext⟩
  · intro bytes' text hdecode hdecode'
    rw [(hok bytes text).1 hdecode, (hok bytes' text).1 hdecode']
  · intro text
    exact (hok _ text).2 rfl
  · intro text
    rw [hok, utf8Bytes_append]
    have hmark : utf8Mark = utf8Bytes "\uFEFF" := by decide
    rw [hmark]

/-- A slash in two bytes is refused where the guess is not sure, and a mark is a character where the
guess names nothing. -/
theorem unsure_guess_decodes_utf8_slash :
    (⟨some "ascii", ⟨89, 2⟩⟩ : Guess).IsUnsure ∧ (⟨none, ⟨1, 0⟩⟩ : Guess).IsUnsure ∧
    (⟨some "ascii", ⟨89, 2⟩⟩ : Guess).decode Reader.byMark.codecs [0x61, 0xC0, 0xAF]
      = .error .undecodable ∧
    (⟨none, ⟨1, 0⟩⟩ : Guess).decode Reader.byMark.codecs [0xEF, 0xBB, 0xBF, 0x61]
      = .ok "\uFEFFa" := by
  have hlow : (⟨some "ascii", ⟨89, 2⟩⟩ : Guess).IsUnsure := Or.inl (by decide)
  have hunnamed : (⟨none, ⟨1, 0⟩⟩ : Guess).IsUnsure := Or.inr rfl
  have hslash : Malformed (Width.two.form 0x2F ++ []) := .overlong [] (by decide)
  obtain ⟨-, -, hbad, -⟩ := unsure_guess_decodes_utf8 Reader.byMark.codecs _ hlow [0x61, 0xC0, 0xAF]
  obtain ⟨hok, -⟩ := unsure_guess_decodes_utf8 Reader.byMark.codecs _ hunnamed
    [0xEF, 0xBB, 0xBF, 0x61]
  exact ⟨hlow, hunnamed, hbad.2 ⟨"a", [0xC0, 0xAF], by decide, hslash⟩, (hok _).2 (by decide)⟩

end CodeChart.Text
