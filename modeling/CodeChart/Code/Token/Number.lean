import CodeChart.Code.Token
import CodeChart.Text.Identifier

/-! Number literals: whole numbers in four bases, decimals, and imaginary numbers. A single
underscore may stand between digits. -/
namespace CodeChart.Code

def isDecimalDigit (c : Char) : Bool := '0' ≤ c && c ≤ '9'

def isOctalDigit (c : Char) : Bool := '0' ≤ c && c ≤ '7'

def isBinaryDigit (c : Char) : Bool := c == '0' || c == '1'

def isHexDigit (c : Char) : Bool :=
  isDecimalDigit c || ('a' ≤ c && c ≤ 'f') || ('A' ≤ c && c ≤ 'F')

def digitValue (c : Char) : Nat :=
  if isDecimalDigit c then c.toNat - 48
  else if 'a' ≤ c && c ≤ 'f' then c.toNat - 87
  else c.toNat - 55

def numeral (base : Nat) (digits : List Char) : Nat :=
  digits.foldl (fun n d => n * base + digitValue d) 0

/-- The digits at the start of a text. An underscore that no digit follows is an error. -/
def takeDigits (isDigit : Char → Bool) : List Char → Option (List Char × List Char)
  | '_' :: c :: rest =>
    if isDigit c then (takeDigits isDigit rest).map fun (ds, r) => (c :: ds, r) else none
  | ['_'] => none
  | c :: rest =>
    if isDigit c then (takeDigits isDigit rest).map fun (ds, r) => (c :: ds, r)
    else some ([], c :: rest)
  | [] => some ([], [])

def isNameLike (c : Char) : Bool :=
  Text.isAsciiLetter c.toNat || isDecimalDigit c || c == '_' || 128 ≤ c.toNat

/-- Whether a number may end before this text: no name follows, unless it begins like one of the
words that can follow a number. -/
def numberMayEnd (cs : List Char) : Bool :=
  match cs with
  | [] => true
  | c :: _ =>
    !isNameLike c
      || ["and", "else", "for", "if", "in", "is", "not", "or"].any fun w => w.toList.isPrefixOf cs

/-- A whole number in a base given by a letter, behind that letter. -/
def basedNumber (base : Nat) (isDigit : Char → Bool) (cs : List Char) :
    Option (Constant × List Char) := do
  let start := match cs with
    | '_' :: rest => rest
    | other => other
  let c ← start.head?
  guard (isDigit c)
  let (ds, rest) ← takeDigits isDigit start
  guard (numberMayEnd rest)
  pure (.int (numeral base ds), rest)

def exponentPart (cs : List Char) : Option (Option Int × List Char) :=
  match cs with
  | e :: rest =>
    if e == 'e' || e == 'E' then
      let signed := match rest with
        | '+' :: r => some (false, r)
        | '-' :: r => some (true, r)
        | _ => none
      match signed with
      | some (negative, r) => do
        let c ← r.head?
        guard (isDecimalDigit c)
        let (ds, after) ← takeDigits isDecimalDigit r
        let n : Int := numeral 10 ds
        pure (some (if negative then -n else n), after)
      | none =>
        if rest.head?.any isDecimalDigit then do
          let (ds, after) ← takeDigits isDecimalDigit rest
          pure (some (numeral 10 ds : Int), after)
        else some (none, cs)
    else some (none, cs)
  | [] => some (none, cs)

def decimalTail (whole : List Char) (cs : List Char) : Option (Constant × List Char) := do
  let (fraction, pointed, cs) ← match cs with
    | '.' :: rest =>
      if rest.head?.any isDecimalDigit then do
        let (ds, after) ← takeDigits isDecimalDigit rest
        pure (ds, true, after)
      else pure ([], true, rest)
    | _ => pure ([], false, cs)
  let (exponent, cs) ← exponentPart cs
  let value := Decimal.Binary64.ofDecimal (numeral 10 (whole ++ fraction))
    (exponent.getD 0 - (fraction.length : Int))
  match cs with
  | 'j' :: rest | 'J' :: rest =>
    guard (numberMayEnd rest)
    pure (.imaginary value, rest)
  | _ =>
    guard (numberMayEnd cs)
    if pointed || exponent.isSome then pure (.float value, cs)
    else
      -- only zeros may begin with a zero, and there may be any number of them
      guard (whole.all (· == '0')
        || (whole.head? != some '0' && whole.length ≤ maxDecimalDigits))
      pure (.int (numeral 10 whole), cs)

/-- The number at the start of a text, which begins with a digit or with a point and a digit. -/
def number? (cs : List Char) : Option (Constant × List Char) :=
  match cs with
  | '0' :: 'x' :: rest | '0' :: 'X' :: rest => basedNumber 16 isHexDigit rest
  | '0' :: 'o' :: rest | '0' :: 'O' :: rest => basedNumber 8 isOctalDigit rest
  | '0' :: 'b' :: rest | '0' :: 'B' :: rest => basedNumber 2 isBinaryDigit rest
  | _ => do
    let (whole, rest) ← match cs with
      | '.' :: _ => pure ([], cs)
      | _ => takeDigits isDecimalDigit cs
    decimalTail whole rest

end CodeChart.Code
