import CodeChart.Code.Expr
import CodeChart.Fault

/-! Expressions as text. Every expression has a binding level and every place asks for one: an
expression is put in parentheses where the place asks for more than the expression has. Inside a
field of a formatted string no backslash may appear, so text there is written in the quotes that
avoid one; `sparing` says that a text stands in such a field. -/
namespace CodeChart.Code

namespace Level

def named : Nat := 0
def tuple : Nat := 1
def yield : Nat := 2
def test : Nat := 3
def or : Nat := 4
def and : Nat := 5
def not : Nat := 6
def compare : Nat := 7
def bitOr : Nat := 8
def bitXor : Nat := 9
def bitAnd : Nat := 10
def shift : Nat := 11
def sum : Nat := 12
def term : Nat := 13
def factor : Nat := 14
def power : Nat := 15
def await : Nat := 16
def atom : Nat := 17

/-- The level above; nothing binds closer than an atom. -/
def next (level : Nat) : Nat := min (level + 1) atom

end Level

def BoolOp.level : BoolOp → Nat
  | .and => Level.and
  | .or => Level.or

def BoolOp.symbol : BoolOp → String
  | .and => "and"
  | .or => "or"

def UnaryOp.level : UnaryOp → Nat
  | .not => Level.not
  | _ => Level.factor

/-- The operator with the blank that `not` needs. -/
def UnaryOp.symbol : UnaryOp → String
  | .invert => "~"
  | .not => "not "
  | .plus => "+"
  | .minus => "-"

def BinOp.symbol : BinOp → String
  | .add => "+"
  | .sub => "-"
  | .mult => "*"
  | .matMult => "@"
  | .div => "/"
  | .mod => "%"
  | .pow => "**"
  | .leftShift => "<<"
  | .rightShift => ">>"
  | .bitOr => "|"
  | .bitXor => "^"
  | .bitAnd => "&"
  | .floorDiv => "//"

def BinOp.level : BinOp → Nat
  | .add | .sub => Level.sum
  | .mult | .matMult | .div | .mod | .floorDiv => Level.term
  | .pow => Level.power
  | .leftShift | .rightShift => Level.shift
  | .bitOr => Level.bitOr
  | .bitXor => Level.bitXor
  | .bitAnd => Level.bitAnd

/-- The levels asked of the left and the right operand: only powers group to the right. -/
def BinOp.operandLevels (op : BinOp) : Nat × Nat :=
  match op with
  | .pow => (Level.next op.level, op.level)
  | _ => (op.level, Level.next op.level)

def CompareOp.symbol : CompareOp → String
  | .eq => "=="
  | .notEq => "!="
  | .less => "<"
  | .lessEq => "<="
  | .greater => ">"
  | .greaterEq => ">="
  | .is => "is"
  | .isNot => "is not"
  | .inside => "in"
  | .notInside => "not in"

/-- The decimal digits of a whole number, unless there are too many. -/
def printWhole (value : Nat) : Except Fault String :=
  let digits := toString value
  if maxDecimalDigits < digits.length then throw (.tooManyDigits maxDecimalDigits)
  else pure digits

def Constant.print (sparing : Bool) : Constant → Except Fault String
  | .none => pure "None"
  | .bool value => pure (if value then "True" else "False")
  | .ellipsis => pure "..."
  | .int value => printWhole value
  | .float value => pure (value.text ".0")
  | .imaginary value => pure (value.text "" ++ "j")
  | .text marked value =>
    pure ((if marked then "u" else "")
      ++ (if sparing then Text.sparing value Text.allQuotes else Text.quoted value))
  | .bytes value => pure (Text.quotedBytes value)

/-- Whole numbers and truth values: a point directly behind them would be read as a decimal. -/
def Constant.isWhole : Constant → Bool
  | .int _ => true
  | .bool _ => true
  | _ => false

def Expr.isWhole : Expr → Bool
  | .constant c => c.isWhole
  | _ => false

def Expr.isConstant : Expr → Bool
  | .constant _ => true
  | _ => false

def Expr.kind : Expr → String
  | .constant _ => "Constant"
  | .name _ => "Name"
  | .member .. => "Attribute"
  | .index .. => "Subscript"
  | .slice .. => "Slice"
  | .starred _ => "Starred"
  | .call .. => "Call"
  | .boolean .. => "BoolOp"
  | .binary .. => "BinOp"
  | .unary .. => "UnaryOp"
  | .compare .. => "Compare"
  | .function .. => "Lambda"
  | .choice .. => "IfExp"
  | .dict _ => "Dict"
  | .set _ => "Set"
  | .list _ => "List"
  | .tuple _ => "Tuple"
  | .listOf .. => "ListComp"
  | .setOf .. => "SetComp"
  | .generator .. => "GeneratorExp"
  | .dictOf .. => "DictComp"
  | .await _ => "Await"
  | .yield _ => "Yield"
  | .yieldFrom _ => "YieldFrom"
  | .assign .. => "NamedExpr"
  | .joined _ => "JoinedStr"
  | .field .. => "FormattedValue"
  | .lacking _ of => of.kind

def doubleBraces (cs : Text.CodePoints) : Text.CodePoints :=
  cs.flatMap fun c => if c = 123 || c = 125 then [c, c] else [c]

/-- Narrows the quotes part by part. A part is text with a mark for literal text, whose special
characters are all escaped. `none` when a part leaves no common quote. -/
def narrowQuotes : List String → List (Text.CodePoints × Bool) →
    Option (List String × List String)
  | quotes, [] => some ([], quotes)
  | quotes, (part, literal) :: rest =>
    let (body, fitting) := Text.sparingBody part quotes (!literal)
    if fitting.any quotes.contains then
      (narrowQuotes fitting rest).map fun (bodies, last) => (body :: bodies, last)
    else none

/-- The quoted form of a formatted string from its parts: the first quote that fits all of them,
or triple single quotes around fully escaped parts. -/
def quoteParts (parts : List (Text.CodePoints × Bool)) : String :=
  match narrowQuotes Text.allQuotes parts with
  | some (bodies, quotes) =>
    let q := quotes.headD "'"
    q ++ String.join bodies ++ q
  | none =>
    Text.tripleSingle ++ String.join (parts.map fun p => Text.literalBody '\'' p.1)
      ++ Text.tripleSingle

def parenthesize (condition : Bool) (s : String) : String :=
  if condition then "(" ++ s ++ ")" else s

/-- Items with commas between them; a single item keeps a comma behind it. -/
def tupleItems : List String → String
  | [item] => item ++ ","
  | items => ", ".intercalate items

def commaSeparated (items : List String) : String := ", ".intercalate items

/-- A parameter list from its written parts: positional only parameters, ordinary ones, the two
collecting ones and those by keyword only. -/
def paramList (positional ordinary : List String) (rest : Option String)
    (keywordOnly : List String) (keywordRest : Option String) : String :=
  let slash := if positional.isEmpty then [] else ["/"]
  let star := match rest, keywordOnly with
    | some r, _ => ["*" ++ r]
    | none, [] => []
    | none, _ => ["*"]
  let twoStars := match keywordRest with
    | some r => ["**" ++ r]
    | none => []
  commaSeparated (positional ++ slash ++ ordinary ++ star ++ keywordOnly ++ twoStars)

def fieldValueText (written : Except Fault String) : Except Fault String := do
  let value ← written
  if value.toList.contains '\\' then throw .backslashInField
  pure value

def fieldText (value : String) (conversion : Option Char) (format : Option Text.CodePoints) :
    Text.CodePoints :=
  let gap := if value.toList.head? == some '\x7b' then " " else ""
  let mark := match conversion with
    | some c => String.ofList ['!', c]
    | none => ""
  let spec := match format with
    | some cs => Text.codePoints ":" ++ cs
    | none => []
  Text.codePoints ("\x7b" ++ gap ++ value ++ mark) ++ spec ++ Text.codePoints "\x7d"

def behind (mark : String) : Option String → String
  | some s => mark ++ s
  | none => ""

mutual

/-- The text of an expression at a place that asks for level `need`. -/
def Expr.print (sparing : Bool) (need : Nat) : Expr → Except Fault String
  | .constant c => c.print sparing
  | .name id => pure id
  | .member value field => do
    let v ← value.print sparing Level.atom
    pure (v ++ (if value.isWhole then " " else "") ++ "." ++ field)
  | .index value key => do
    let v ← value.print sparing Level.atom
    let k ← match key with
      | .tuple (item :: items) => do
        let i ← item.print sparing Level.test
        let is ← printList sparing Level.test items
        pure (tupleItems (i :: is))
      | other => other.print sparing Level.test
    pure (v ++ "[" ++ k ++ "]")
  | .slice lower upper step => do
    let l ← printOption sparing Level.test lower
    let u ← printOption sparing Level.test upper
    let s ← printOption sparing Level.test step
    pure (behind "" l ++ ":" ++ behind "" u ++ behind ":" s)
  | .starred value => do
    let v ← value.print sparing Level.bitOr
    pure ("*" ++ v)
  | .call callee args keywords => do
    let f ← callee.print sparing Level.atom
    let as ← printList sparing Level.test args
    let ks ← printKeywords sparing keywords
    pure (f ++ "(" ++ commaSeparated (as ++ ks) ++ ")")
  | .boolean op values => do
    let vs ← printRising sparing (Level.next op.level) values
    pure (parenthesize (op.level < need) ((" " ++ op.symbol ++ " ").intercalate vs))
  | .binary left op right => do
    let l ← left.print sparing op.operandLevels.1
    let r ← right.print sparing op.operandLevels.2
    pure (parenthesize (op.level < need) (l ++ " " ++ op.symbol ++ " " ++ r))
  | .unary op operand => do
    let o ← operand.print sparing op.level
    pure (parenthesize (op.level < need) (op.symbol ++ o))
  | .compare left rest => do
    let l ← left.print sparing (Level.next Level.compare)
    let rs ← printComparisons sparing rest
    pure (parenthesize (Level.compare < need) (l ++ String.join rs))
  | .function params body => do
    let ps ← params.print sparing
    let b ← body.print sparing Level.test
    let ps := if ps.isEmpty then "" else " " ++ ps
    pure (parenthesize (Level.test < need) ("lambda" ++ ps ++ ": " ++ b))
  | .choice test body orelse => do
    let b ← body.print sparing (Level.next Level.test)
    let t ← test.print sparing (Level.next Level.test)
    let o ← orelse.print sparing Level.test
    pure (parenthesize (Level.test < need) (b ++ " if " ++ t ++ " else " ++ o))
  | .dict items => do
    let is ← printItems sparing items
    pure ("\x7b" ++ commaSeparated is ++ "\x7d")
  | .set items => do
    let is ← printList sparing Level.test items
    pure (if is.isEmpty then "\x7b*()\x7d" else "\x7b" ++ commaSeparated is ++ "\x7d")
  | .list items => do
    let is ← printList sparing Level.test items
    pure ("[" ++ commaSeparated is ++ "]")
  | .tuple items => do
    let is ← printList sparing Level.test items
    pure (parenthesize (is.isEmpty || Level.tuple < need) (tupleItems is))
  | .listOf item clauses => do
    let i ← item.print sparing Level.test
    let cs ← printClauses sparing clauses
    pure ("[" ++ i ++ String.join cs ++ "]")
  | .setOf item clauses => do
    let i ← item.print sparing Level.test
    let cs ← printClauses sparing clauses
    pure ("\x7b" ++ i ++ String.join cs ++ "\x7d")
  | .generator item clauses => do
    let i ← item.print sparing Level.test
    let cs ← printClauses sparing clauses
    pure ("(" ++ i ++ String.join cs ++ ")")
  | .dictOf key value clauses => do
    let k ← key.print sparing Level.test
    let v ← value.print sparing Level.test
    let cs ← printClauses sparing clauses
    pure ("\x7b" ++ k ++ ": " ++ v ++ String.join cs ++ "\x7d")
  | .await value => do
    let v ← value.print sparing Level.atom
    pure (parenthesize (Level.await < need) ("await " ++ v))
  | .yield value => do
    let v ← printOption sparing Level.atom value
    pure (parenthesize (Level.yield < need) ("yield" ++ behind " " v))
  | .yieldFrom value => do
    let v ← value.print sparing Level.atom
    pure (parenthesize (Level.yield < need) ("yield from " ++ v))
  | .assign target value => do
    let t ← target.print sparing Level.atom
    let v ← value.print sparing Level.atom
    pure (parenthesize (Level.named < need) (t ++ " := " ++ v))
  | .joined parts => do
    let ps ← printParts parts
    pure ("f" ++ if sparing then Text.sparing (ps.flatMap Prod.fst) Text.allQuotes
      else quoteParts ps)
  | .field value conversion format => do
    let v ← fieldValueText (value.print true (Level.next Level.test))
    let f ← printFormat format
    pure (Text.ofCodePoints (fieldText v conversion f))
  | .lacking part of => throw (.noAttribute of.kind part)

def Expr.printPart : Expr → Except Fault Text.CodePoints
  | .constant (.text _ value) => pure (doubleBraces value)
  | .field value conversion format => do
    let v ← fieldValueText (value.print true (Level.next Level.test))
    let f ← printFormat format
    pure (fieldText v conversion f)
  | .joined parts => do
    let ps ← printParts parts
    pure (ps.flatMap Prod.fst)
  | _ => throw .unmet

/-- The parts of a formatted string, each with a mark for literal text. -/
def printParts : List Expr → Except Fault (List (Text.CodePoints × Bool))
  | [] => pure []
  | part :: rest => do
    let p ← part.printPart
    let ps ← printParts rest
    pure ((p, part.isConstant) :: ps)

def printFormat : Option Expr → Except Fault (Option Text.CodePoints)
  | none => pure none
  | some format => do
    let f ← format.printPart
    pure (some f)

def printOption (sparing : Bool) (need : Nat) : Option Expr → Except Fault (Option String)
  | none => pure none
  | some e => do
    let t ← e.print sparing need
    pure (some t)

def printList (sparing : Bool) (need : Nat) : List Expr → Except Fault (List String)
  | [] => pure []
  | e :: es => do
    let t ← e.print sparing need
    let ts ← printList sparing need es
    pure (t :: ts)

/-- Operands of one truth operator: each is asked for one level more than the one before. -/
def printRising (sparing : Bool) (need : Nat) : List Expr → Except Fault (List String)
  | [] => pure []
  | e :: es => do
    let t ← e.print sparing need
    let ts ← printRising sparing (Level.next need) es
    pure (t :: ts)

def printKeywords (sparing : Bool) : List Keyword → Except Fault (List String)
  | [] => pure []
  | k :: ks => do
    let t ← k.print sparing
    let ts ← printKeywords sparing ks
    pure (t :: ts)

def Keyword.print (sparing : Bool) : Keyword → Except Fault String
  | .mk name value => do
    let v ← value.print sparing Level.test
    pure (match name with
      | some n => n ++ "=" ++ v
      | none => "**" ++ v)

def printComparisons (sparing : Bool) : List Comparison → Except Fault (List String)
  | [] => pure []
  | .mk op right :: rest => do
    let r ← right.print sparing (Level.next Level.compare)
    let rs ← printComparisons sparing rest
    pure ((" " ++ op.symbol ++ " " ++ r) :: rs)

def printItems (sparing : Bool) : List DictItem → Except Fault (List String)
  | [] => pure []
  | .mk key value :: rest => do
    let k ← printOption sparing Level.test key
    let v ← value.print sparing (if k.isSome then Level.test else Level.bitOr)
    let rs ← printItems sparing rest
    pure ((match k with
      | some k => k ++ ": " ++ v
      | none => "**" ++ v) :: rs)

def Clause.print (sparing : Bool) : Clause → Except Fault String
  | .mk target source conditions isAsync => do
    let t ← target.print sparing Level.tuple
    let s ← source.print sparing (Level.next Level.test)
    let cs ← printList sparing (Level.next Level.test) conditions
    pure ((if isAsync then " async for " else " for ") ++ t ++ " in " ++ s
      ++ String.join (cs.map (" if " ++ ·)))

def printClauses (sparing : Bool) : List Clause → Except Fault (List String)
  | [] => pure []
  | c :: cs => do
    let t ← c.print sparing
    let ts ← printClauses sparing cs
    pure (t :: ts)

def Param.print (sparing : Bool) : Param → Except Fault String
  | .mk name hint default => do
    let h ← printOption sparing Level.test hint
    let d ← printOption sparing Level.test default
    pure (name ++ behind ": " h ++ behind "=" d)

def printParamList (sparing : Bool) : List Param → Except Fault (List String)
  | [] => pure []
  | p :: ps => do
    let t ← p.print sparing
    let ts ← printParamList sparing ps
    pure (t :: ts)

def printParamOption (sparing : Bool) : Option Param → Except Fault (Option String)
  | none => pure none
  | some p => do
    let t ← p.print sparing
    pure (some t)

def Params.print (sparing : Bool) : Params → Except Fault String
  | .mk positional ordinary rest keywordOnly keywordRest => do
    let ps ← printParamList sparing positional
    let os ← printParamList sparing ordinary
    let r ← printParamOption sparing rest
    let ks ← printParamList sparing keywordOnly
    let k ← printParamOption sparing keywordRest
    pure (paramList ps os r ks k)
  | .lacking part _ => throw (.noAttribute "arguments" part)

end

end CodeChart.Code
