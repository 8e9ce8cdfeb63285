import CodeChart.Text.CharacterTable
import CodeChart.Text.Ranges

/-! Characters by name. Ideographs are named by their code points and syllables by their sounds; the
other names stand in tables, where small letters count as capitals. -/
namespace CodeChart.Text

def tableMarks : List Char := "abcdefghijklmnopqrstuvwxyz!%&()*+,.:;<=>?^_|~".toList

/-- Names hold capitals, digits, blanks and hyphens only; everything else is a mark. -/
def isTableMark (c : Char) : Bool := !(c.isUpper || c.isDigit || c == ' ' || c == '-')

def markNumber (marks : List Char) : Nat :=
  marks.foldl (fun n m => n * tableMarks.length + tableMarks.idxOf m) 0

/-- The entries of a table behind one with the given name and code point. -/
def tableEntries (before : List Char) (code : Nat) (cs : List Char) : List (List Char × Nat) :=
  match cs with
  | [] => []
  | shared :: rest =>
    let marks := rest.takeWhile isTableMark
    let behind := rest.dropWhile isTableMark
    let name := before.take (markNumber [shared]) ++ behind.takeWhile (!isTableMark ·)
    let code := if marks.isEmpty then code + 1 else markNumber marks
    (name, code) :: tableEntries name code (behind.dropWhile (!isTableMark ·))
termination_by cs.length
decreasing_by
  have h₁ := (List.dropWhile_sublist (l := rest) isTableMark).length_le
  have h₂ := (List.dropWhile_sublist (l := rest.dropWhile isTableMark) (!isTableMark ·)).length_le
  simp only [List.length_cons]
  omega

def characterTables : List (List String) :=
  [characterNamesAToC, characterNamesDToK, characterNamesL, characterNamesMToS, characterNamesTToZ]

def inTable? (name : List Char) : Option Nat :=
  characterTables.findSome? fun table =>
    (tableEntries [] 0 (table.flatMap String.toList)).lookup name

def initialSounds : List String :=
  ["G", "GG", "N", "D", "DD", "R", "M", "B", "BB", "S", "SS", "", "J", "JJ", "C",
    "K", "T", "P", "H"]

def vowelSounds : List String :=
  ["A", "AE", "YA", "YAE", "EO", "E", "YEO", "YE", "O", "WA", "WAE", "OE", "YO", "U", "WEO", "WE",
    "WI", "YU", "EU", "YI", "I"]

def finalSounds : List String :=
  ["", "G", "GG", "GS", "N", "NJ", "NH", "D", "L", "LG", "LM", "LB", "LS", "LT", "LP", "LH", "M",
    "B", "BS", "S", "SS", "NG", "J", "C", "K", "T", "P", "H"]

def behind? (start name : List Char) : Option (List Char) :=
  if start.isPrefixOf name then some (name.drop start.length) else none

/-- The beginnings of a name among some sounds: their places, and what stands behind them. -/
def soundsOf (sounds : List String) (name : List Char) : List (Nat × List Char) :=
  sounds.zipIdx.filterMap fun (sound, i) => (behind? sound.toList name).map fun rest => (i, rest)

/-- The syllable of an initial, a vowel and a final. Syllables are ordered by the three. -/
def syllable? (name : List Char) : Option Nat :=
  (soundsOf initialSounds name).findSome? fun (l, rest) =>
    (soundsOf vowelSounds rest).findSome? fun (v, rest) =>
      (soundsOf finalSounds rest).findSome? fun (t, rest) =>
        if rest.isEmpty then
          some (0xAC00 + (l * vowelSounds.length + v) * finalSounds.length + t)
        else none

def ideographs : List (Nat × Nat) := [
  (0x3400, 0x4DBF), (0x4E00, 0x9FFF), (0x20000, 0x2A6DF), (0x2A700, 0x2B738), (0x2B740, 0x2B81D),
  (0x2B820, 0x2CEA1), (0x2CEB0, 0x2EBE0), (0x30000, 0x3134A)]

/-- The ideograph whose code point is written with four or five digits. -/
def ideograph? (digits : List Char) : Option Nat :=
  let isDigit (c : Char) : Bool := c.isDigit || ('A' ≤ c && c ≤ 'F')
  let value (c : Char) : Nat := if c.isDigit then c.toNat - 48 else c.toNat - 55
  let code := digits.foldl (fun n c => n * 16 + value c) 0
  if (digits.length = 4 || digits.length = 5) && digits.all isDigit && inRanges ideographs code then
    some code
  else none

def characterNamed? (name : List Char) : Option Nat :=
  match behind? "HANGUL SYLLABLE ".toList name, behind? "CJK UNIFIED IDEOGRAPH-".toList name with
  | some sounds, _ => syllable? sounds
  | _, some digits => ideograph? digits
  | none, none => inTable? (name.map Char.toUpper)

end CodeChart.Text
