/-! Finite binary floating-point numbers with a 53-bit significand, and the shortest decimals that
read back as them. All arithmetic is exact on natural numbers. -/
namespace CodeChart.Decimal

/-- A non-negative number `significand · 2 ^ exponent`, or one beyond the largest of them. -/
inductive Binary64 where
  | finite (significand : Nat) (exponent : Int)
  | infinite
  deriving DecidableEq, Repr, Inhabited

/-- `num / den` rounded to the nearest natural number, a half to the even neighbour. -/
def roundHalfEven (num den : Nat) : Nat :=
  let q := num / den
  let r := num % den
  if 2 * r < den then q
  else if den < 2 * r then q + 1
  else if q % 2 = 0 then q else q + 1

def scaleTwo (num den : Nat) (e : Int) : Nat × Nat :=
  match e with
  | .ofNat k => (num, den * Nat.pow 2 k)
  | .negSucc k => (num * Nat.pow 2 (k + 1), den)

/-- `num / den` as a pair of naturals after multiplication by `10 ^ e`. -/
def scaleTen (num den : Nat) (e : Int) : Nat × Nat :=
  match e with
  | .ofNat k => (num * Nat.pow 10 k, den)
  | .negSucc k => (num, den * Nat.pow 10 (k + 1))

/-- The exponent that leaves 53 bits before the point, or the least one there is. -/
def fittingExponent (num den : Nat) : Int :=
  let guess : Int := (Nat.log2 num : Int) - (Nat.log2 den : Int) - 52
  let (n, d) := scaleTwo num den guess
  let e := if n < d * Nat.pow 2 52 then guess - 1 else guess
  max e (-1074)

/-- The number nearest to `num / den`, a half to the even significand. -/
def Binary64.ofFraction (num den : Nat) : Binary64 :=
  if num = 0 then .finite 0 (-1074)
  else
    let e := fittingExponent num den
    let (n, d) := scaleTwo num den e
    let m := roundHalfEven n d
    let (m, e) := if m = Nat.pow 2 53 then (Nat.pow 2 52, e + 1) else (m, e)
    if 971 < e then .infinite else .finite m e

/-- The number nearest to `digits · 10 ^ exponent`. Decimals far outside the range are answered by
their size alone. -/
def Binary64.ofDecimal (digits : Nat) (exponent : Int) : Binary64 :=
  if digits = 0 then .finite 0 (-1074)
  else
    let size : Int := exponent + ((Nat.toDigits 10 digits).length : Int)
    if 400 < size then .infinite
    else if size < -400 then .finite 0 (-1074)
    else
      let (n, d) := scaleTen digits 1 exponent
      .ofFraction n d

/-- The interval of reals that round to a number, as numerators over `4 · 2 ^ shift`: the number,
its lower and its upper end. The ends belong to it when the significand is even. -/
structure Rounding where
  value : Nat
  low : Nat
  high : Nat
  den : Nat
  closed : Bool

def rounding (m : Nat) (e : Int) : Rounding :=
  let narrow := m = Nat.pow 2 52 && (-1074) < e
  let unit : Nat := match e with
    | .ofNat k => Nat.pow 2 k
    | .negSucc _ => 1
  let den : Nat := match e with
    | .ofNat _ => 4
    | .negSucc k => 4 * Nat.pow 2 (k + 1)
  { value := 4 * m * unit
    low := (4 * m - (if narrow then 1 else 2)) * unit
    high := (4 * m + 2) * unit
    den
    closed := m % 2 = 0 }

/-- The number of digits before the decimal point of `num / den`, negative below one tenth. -/
def pointPosition (num den : Nat) : Int :=
  let a : Int := (Nat.toDigits 10 num).length
  let b : Int := (Nat.toDigits 10 den).length
  let guess := a - b
  -- `10 ^ (guess - 1) < num / den < 10 ^ (guess + 1)`
  let (n, d) := scaleTen num den (-guess)
  if n < d then guess else guess + 1

def Rounding.holds (r : Rounding) (c : Nat) (e : Int) : Bool :=
  let (n, d) := scaleTen c 1 e
  let here := n * r.den
  let low := r.low * d
  let high := r.high * d
  if r.closed then low ≤ here && here ≤ high else low < here && here < high

/-- A decimal of `count` digits that reads back as the number, the nearest if there are two. -/
def Rounding.decimal? (r : Rounding) (point : Int) (count : Nat) : Option (Nat × Int) :=
  let e : Int := point - count
  let (n, d) := scaleTen r.value r.den (-e)
  let below := n / d
  let above := below + 1
  match r.holds below e, r.holds above e with
  | true, true =>
    let rest := n % d
    if 2 * rest < d then some (below, e)
    else if d < 2 * rest then some (above, e)
    else some (if below % 2 = 0 then below else above, e)
  | true, false => some (below, e)
  | false, true => some (above, e)
  | false, false => none

def trimZeros : List Char → List Char := fun ds => (ds.reverse.dropWhile (· == '0')).reverse

/-- The shortest decimal of a finite number: its digits and the position of the point. -/
def shortest (m : Nat) (e : Int) : List Char × Int :=
  if m = 0 then (['0'], 1)
  else
    let r := rounding m e
    let point := pointPosition r.value r.den
    let found := (List.range 17).findSome? fun k => r.decimal? point (k + 1)
    let (c, ex) := found.getD (0, 0)
    let ds := Nat.toDigits 10 c
    (trimZeros ds, ex + ds.length)

/-- How a number is written: positional while the point is near the digits, otherwise with an
exponent of at least two digits. `tail` is added to whole numbers in positional form. -/
def written (digits : List Char) (point : Int) (tail : String) : String :=
  let count : Int := digits.length
  if point ≤ -4 || 16 < point then
    let ex := point - 1
    let mantissa := match digits with
      | [] => ""
      | d :: [] => String.singleton d
      | d :: ds => String.ofList (d :: '.' :: ds)
    let size := toString ex.natAbs
    let size := if size.length < 2 then "0" ++ size else size
    mantissa ++ "e" ++ (if ex < 0 then "-" else "+") ++ size
  else if point ≤ 0 then
    "0." ++ String.ofList (List.replicate (-point).toNat '0' ++ digits)
  else if count ≤ point then
    String.ofList (digits ++ List.replicate (point - count).toNat '0') ++ tail
  else
    String.ofList (digits.take point.toNat ++ '.' :: digits.drop point.toNat)

/-- A number as code writes it; one beyond the range is written as a decimal that overflows. -/
def Binary64.text (tail : String) : Binary64 → String
  | .infinite => "1e309"
  | .finite m e => let (ds, p) := shortest m e; written ds p tail

end CodeChart.Decimal
