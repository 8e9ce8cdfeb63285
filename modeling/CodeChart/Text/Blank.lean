/-! Blank characters, stripping, and the first line of a text. -/
namespace CodeChart.Text

/-- Blank characters of any script, separators of records and lines included. -/
def isBlank (c : Char) : Bool :=
  let n := c.toNat
  (9 ≤ n && n ≤ 13) || (28 ≤ n && n ≤ 32) || n == 0x85 || n == 0xA0 || n == 0x1680
    || (0x2000 ≤ n && n ≤ 0x200A) || n == 0x2028 || n == 0x2029 || n == 0x202F || n == 0x205F
    || n == 0x3000

def isLineEnd (c : Char) : Bool :=
  let n := c.toNat
  (10 ≤ n && n ≤ 13) || (28 ≤ n && n ≤ 30) || n == 0x85 || n == 0x2028 || n == 0x2029

def dropLeading (p : Char → Bool) (s : String) : String :=
  String.ofList (s.toList.dropWhile p)

def dropTrailing (p : Char → Bool) (s : String) : String :=
  String.ofList (s.toList.reverse.dropWhile p).reverse

def strip (s : String) : String := dropTrailing isBlank (dropLeading isBlank s)

def dropLeadingOf (set : String) (s : String) : String :=
  dropLeading (fun c => set.toList.contains c) s

def firstLine? (s : String) : Option String :=
  if s.isEmpty then none else some (String.ofList (s.toList.takeWhile fun c => !isLineEnd c))

/-- The lower-case hexadecimal digits of `n`, at least `width` of them. -/
def hex (width n : Nat) : String :=
  let digits := Nat.toDigits 16 n
  String.ofList (List.replicate (width - digits.length) '0' ++ digits)

end CodeChart.Text
