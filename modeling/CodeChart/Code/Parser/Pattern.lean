import CodeChart.Code.Parser.Expression
import CodeChart.Code.Stmt

/-! The grammar of patterns. -/
namespace CodeChart.Code

open Reader

namespace Grammar

/-- A name to bind: not the wildcard, and not the start of a longer form. -/
def captureName : Reader String := do
  let id ← name
  if id = "_" then failure
  if (← nextIsOp ".") || (← nextIsOp "(") || (← nextIsOp "=") then failure
  pure id

def dottedValue : Reader Expr := do
  let id ← name
  extend (fun e => do op "."; .member e <$> name) (.name id)

def isImaginary : Constant → Bool
  | .imaginary _ => true
  | _ => false

def numberConstant : Reader Constant := do
  match (← take) with
  | .number value => pure value
  | _ => failure

def signedNumber : Reader (Constant × Expr) := do
  if (← nextIsOp "-") then
    op "-"
    let c ← numberConstant
    pure (c, .unary .minus (.constant c))
  else
    let c ← numberConstant
    pure (c, .constant c)

/-- A number with an optional sign, or a real part with an imaginary one. -/
def numberValue : Reader Expr := do
  let (c, e) ← signedNumber
  let join (o : BinOp) : Reader Expr := do
    if isImaginary c then failure
    let im ← numberConstant
    if isImaginary im then pure (.binary e o (.constant im)) else failure
  if (← nextIsOp "+") then
    op "+"
    join .add
  else if (← nextIsOp "-") then
    op "-"
    join .sub
  else pure e

def literalValue (g : Grammar) : Reader Expr := do
  match (← peek) with
  | .number _ => numberValue
  | .op "-" => numberValue
  | .text _ => literals g
  | _ => failure

def singletonConstant : Reader Constant := do
  match (← take) with
  | .word "None" _ => pure .none
  | .word "True" _ => pure (.bool true)
  | .word "False" _ => pure (.bool false)
  | _ => failure

abbrev PatternReader := Reader Pattern

def starPattern : PatternReader := do
  op "*"
  let id ← name
  pure (.star (if id = "_" then none else some id))

def maybeStarPattern (p : PatternReader) : PatternReader := do
  if (← nextIsOp "*") then starPattern else p

def mappingKey (g : Grammar) : Reader Expr := do
  match (← peek) with
  | .name _ =>
    let e ← dottedValue
    match e with
    | .member .. => pure e
    | _ => failure
  | .word .. => .constant <$> singletonConstant
  | _ => literalValue g

def mappingItem (g : Grammar) (p : PatternReader) : Reader (Expr × Pattern) := do
  let k ← mappingKey g
  op ":"
  let v ← p
  pure (k, v)

def mappingTail (g : Grammar) (p : PatternReader) : PatternReader := do
  let items ← (commaList (mappingItem g p)) <|> pure []
  let rest : Option String ← do
    if items.isEmpty then
      if (← nextIsOp "**") then
        op "**"
        some <$> captureName
      else pure none
    else
      match (← peek), (← peekSecond) with
      | .op ",", .op "**" =>
        op ","
        op "**"
        some <$> captureName
      | _, _ => pure none
  if !items.isEmpty || rest.isSome then
    let _ ← maybe (op ",")
  op "\x7d"
  pure (.mapping (items.map Prod.fst) (items.map Prod.snd) rest)

/-- Arguments of a class pattern, positional ones before named ones. -/
structure ClassArgs where
  positional : List Pattern := []
  names : List String := []
  named : List Pattern := []

def classArg (p : PatternReader) (a : ClassArgs) : Reader ClassArgs := do
  match (← peek), (← peekSecond) with
  | .name id, .op "=" =>
    let _ ← take
    let _ ← take
    let v ← p
    pure { a with names := a.names ++ [id], named := a.named ++ [v] }
  | _, _ =>
    if !a.names.isEmpty then failure
    let v ← p
    pure { a with positional := a.positional ++ [v] }

def classTail (p : PatternReader) (callee : Expr) : PatternReader := do
  if (← nextIsOp ")") then
    op ")"
    pure (.ofClass callee [] [] [])
  else
    let first ← classArg p {}
    let all ← extend (fun a => do op ","; classArg p a) first
    let _ ← maybe (op ",")
    op ")"
    pure (.ofClass callee all.positional all.names all.named)

/-- Behind an opening parenthesis: a group, or a sequence if a comma stands in it. -/
def groupTail (p : PatternReader) : PatternReader := do
  if (← nextIsOp ")") then
    op ")"
    pure (.sequence [])
  else
    let (items, tail) ← commaListWithTail (maybeStarPattern p)
    op ")"
    match items, tail with
    | [.star _], false => failure
    | [item], false => pure item
    | items, _ => pure (.sequence items)

def sequenceTail (p : PatternReader) : PatternReader := do
  if (← nextIsOp "]") then
    op "]"
    pure (.sequence [])
  else
    let (items, _) ← commaListWithTail (maybeStarPattern p)
    op "]"
    pure (.sequence items)

def closedPattern (g : Grammar) (p : PatternReader) : PatternReader := do
  match (← peek) with
  | .word .. => .singleton <$> singletonConstant
  | .op "(" =>
    op "("
    groupTail p
  | .op "[" =>
    op "["
    sequenceTail p
  | .op "\x7b" =>
    op "\x7b"
    mappingTail g p
  | .name "_" =>
    let _ ← take
    pure (.capture none none)
  | .name _ =>
    let e ← dottedValue
    if (← nextIsOp "(") then
      op "("
      classTail p e
    else if (← nextIsOp "=") then failure
    else
      match e with
      | .name id => pure (.capture none (some id))
      | _ => pure (.value e)
  | _ => .value <$> literalValue g

def pattern (g : Grammar) (p : PatternReader) : PatternReader := do
  let first ← closedPattern g p
  let more ← many (do op "|"; closedPattern g p)
  let alternatives := if more.isEmpty then first else .alternatives (first :: more)
  if (← nextIsWord "as") then
    let _ ← word "as"
    let id ← captureName
    pure (.capture (some alternatives) (some id))
  else pure alternatives

end Grammar

def readPattern (g : Grammar) : Nat → List Token → Option (Pattern × List Token)
  | 0, _ => none
  | depth + 1, ts => (Grammar.pattern g (fun ts => readPattern g depth ts)).run ts

namespace Grammar

def patterns (p : PatternReader) : PatternReader := do
  let (items, tail) ← commaListWithTail (maybeStarPattern p)
  match items, tail with
  | [.star _], false => failure
  | [item], false => pure item
  | items, _ => pure (.sequence items)

end Grammar

end CodeChart.Code
