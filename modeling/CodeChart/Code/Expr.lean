import CodeChart.Decimal.Binary64
import CodeChart.Text.Quoted

/-! Expressions of the charted language, Python 3.11, as trees. Positions in the source are not
kept; what is kept is what the printer shows. -/
namespace CodeChart.Code

inductive Constant where
  | none
  | bool (value : Bool)
  | ellipsis
  | int (value : Nat)
  | float (value : Decimal.Binary64)
  | imaginary (value : Decimal.Binary64)
  /-- Text, with a mark for literals that begin with the letter `u`. -/
  | text (marked : Bool) (value : Text.CodePoints)
  | bytes (value : List Nat)
  deriving DecidableEq, Repr, Inhabited

/-- Whole numbers of more decimal digits can be given in another base only, and not be written. -/
def maxDecimalDigits : Nat := 4300

inductive BoolOp where
  | and | or
  deriving DecidableEq, Repr

inductive UnaryOp where
  | invert | not | plus | minus
  deriving DecidableEq, Repr

inductive BinOp where
  | add | sub | mult | matMult | div | mod | pow | leftShift | rightShift | bitOr | bitXor | bitAnd
  | floorDiv
  deriving DecidableEq, Repr

inductive CompareOp where
  | eq | notEq | less | lessEq | greater | greaterEq | is | isNot | inside | notInside
  deriving DecidableEq, Repr

mutual

inductive Expr where
  | constant (value : Constant)
  | name (id : String)
  | member (value : Expr) (field : String)
  | index (value key : Expr)
  | slice (lower upper step : Option Expr)
  | starred (value : Expr)
  | call (callee : Expr) (args : List Expr) (keywords : List Keyword)
  | boolean (op : BoolOp) (values : List Expr)
  | binary (left : Expr) (op : BinOp) (right : Expr)
  | unary (op : UnaryOp) (operand : Expr)
  | compare (left : Expr) (rest : List Comparison)
  | function (params : Params) (body : Expr)
  | choice (test body orelse : Expr)
  | dict (items : List DictItem)
  | set (items : List Expr)
  | list (items : List Expr)
  | tuple (items : List Expr)
  | listOf (item : Expr) (clauses : List Clause)
  | setOf (item : Expr) (clauses : List Clause)
  | generator (item : Expr) (clauses : List Clause)
  | dictOf (key value : Expr) (clauses : List Clause)
  | await (value : Expr)
  | yield (value : Option Expr)
  | yieldFrom (value : Expr)
  | assign (target value : Expr)
  | joined (parts : List Expr)
  | field (value : Expr) (conversion : Option Char) (format : Option Expr)
  /-- An expression one of whose required parts has been taken away. -/
  | lacking (part : String) (of : Expr)

inductive Keyword where
  | mk (name : Option String) (value : Expr)

inductive Comparison where
  | mk (op : CompareOp) (right : Expr)

inductive DictItem where
  | mk (key : Option Expr) (value : Expr)

inductive Clause where
  | mk (target source : Expr) (conditions : List Expr) (isAsync : Bool)

inductive Param where
  | mk (name : String) (hint : Option Expr) (default : Option Expr)

/-- Parameters in the order in which they are declared: positional only, ordinary, the one that
takes further positions, by keyword only, and the one that takes further keywords. -/
inductive Params where
  | mk (positional ordinary : List Param) (rest : Option Param) (keywordOnly : List Param)
      (keywordRest : Option Param)
  /-- Parameters of which a required part has been taken away. -/
  | lacking (part : String) (of : Params)

end

instance : Inhabited Expr := ⟨.constant .none⟩

def Param.name : Param → String
  | .mk name _ _ => name

def Param.hint : Param → Option Expr
  | .mk _ hint _ => hint

def Param.default : Param → Option Expr
  | .mk _ _ value => value

def Params.ordinary : Params → List Param
  | .mk _ ordinary _ _ _ => ordinary
  | .lacking _ of => of.ordinary

def Keyword.value : Keyword → Expr
  | .mk _ value => value

end CodeChart.Code
