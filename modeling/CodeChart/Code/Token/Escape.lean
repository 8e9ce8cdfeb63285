import CodeChart.Code.Token.Number
import CodeChart.Text.CharacterName

/-! Escapes inside literals. A backslash before anything that is no escape stands for itself. -/
namespace CodeChart.Code

def takeHex (count : Nat) (cs : List Char) : Option (Nat × List Char) :=
  let ds := cs.take count
  if ds.length = count && ds.all isHexDigit then some (numeral 16 ds, cs.drop count) else none

def takeOctal (cs : List Char) : Nat × List Char :=
  let ds := (cs.take 3).takeWhile isOctalDigit
  (numeral 8 ds, cs.drop ds.length)

/-- A name between braces as the code point of the character so named. -/
def takeNamed : List Char → Option (Nat × List Char)
  | '\x7b' :: rest =>
    match rest.dropWhile (· != '\x7d') with
    | [] => none
    | _ :: after =>
      (Text.characterNamed? (rest.takeWhile (· != '\x7d'))).map fun n => (n, after)
  | _ => none

def letterEscape? : Char → Option Nat
  | '\\' => some 92
  | '\'' => some 39
  | '"' => some 34
  | 'a' => some 7
  | 'b' => some 8
  | 'f' => some 12
  | 'n' => some 10
  | 'r' => some 13
  | 't' => some 9
  | 'v' => some 11
  | _ => none

/-- One escape, behind its backslash: the code points it stands for and what follows. -/
def escape? (isBytes : Bool) (c : Char) (rest : List Char) : Option (List Nat × List Char) :=
  if c == '\n' then some ([], rest)
  else match letterEscape? c with
    | some n => some ([n], rest)
    | none =>
      if isOctalDigit c then
        let (n, after) := takeOctal (c :: rest)
        some ([if isBytes then n % 256 else n], after)
      else if c == 'x' then (takeHex 2 rest).map fun (n, after) => ([n], after)
      else if isBytes then some ([92, c.toNat], rest)
      else if c == 'u' then (takeHex 4 rest).map fun (n, after) => ([n], after)
      else if c == 'U' then
        (takeHex 8 rest).bind fun (n, after) => if n < 0x110000 then some ([n], after) else none
      else if c == 'N' then (takeNamed rest).map fun (n, after) => ([n], after)
      else some ([92, c.toNat], rest)

/-- The code points that characters stand for, in at most one step for each of `steps`. -/
def unescapeWithin (isBytes : Bool) : List Char → List Char → Option (List Nat)
  | _, [] => some []
  | _, ['\\'] => some [92]
  | [], _ => none
  | _ :: steps, '\\' :: c :: rest => do
    let (points, after) ← escape? isBytes c rest
    let more ← unescapeWithin isBytes steps after
    pure (points ++ more)
  | _ :: steps, c :: rest => do
    let more ← unescapeWithin isBytes steps rest
    pure (c.toNat :: more)

def unescape (isBytes : Bool) (cs : List Char) : Option (List Nat) := unescapeWithin isBytes cs cs

/-- The code points of a literal without fields; bytes hold ASCII characters only. -/
def Literal.points? (l : Literal) (body : List Char) : Option (List Nat) :=
  if l.isBytes && body.any (fun c => 128 ≤ c.toNat) then none
  else if l.raw then some (body.map Char.toNat)
  else unescape l.isBytes body

end CodeChart.Code
