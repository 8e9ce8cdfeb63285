import CodeChart.Code.Expr
import CodeChart.Text.Identifier

/-! Tokens: names, reserved words, operators, literals, and the marks of lines and indentation. -/
namespace CodeChart.Code

/-- A text literal as it stands in the source: the characters between its quotes and what the
letters before them ask for. -/
structure Literal where
  isBytes : Bool
  raw : Bool
  formatted : Bool
  marked : Bool
  body : List Char
  deriving DecidableEq, Repr, Inhabited

inductive Token where
  | name (id : String) {spelled : Text.IsName id}
  /-- A reserved word with the line on which it stands. -/
  | word (id : String) (line : Nat)
  | op (symbol : String)
  | number (value : Constant)
  | text (literal : Literal)
  | newline
  | indent
  | dedent
  | finish
  deriving DecidableEq, Repr, Inhabited

def reservedWords : List String :=
  ["False", "None", "True", "and", "as", "assert", "async", "await", "break", "class", "continue",
   "def", "del", "elif", "else", "except", "finally", "for", "from", "global", "if", "import", "in",
   "is", "lambda", "nonlocal", "not", "or", "pass", "raise", "return", "try", "while", "with",
   "yield"]

/-- Operators and delimiters, longer ones first. -/
def operatorSymbols : List String :=
  ["**=", "//=", ">>=", "<<=", "...",
   "**", "//", ">>", "<<", "<=", ">=", "==", "!=", "->", "+=", "-=", "*=", "/=", "%=", "&=", "|=",
   "^=", "@=", ":=",
   "+", "-", "*", "/", "%", "@", "&", "|", "^", "~", "<", ">", "(", ")", "[", "]", "\x7b", "\x7d",
   ",", ":", ".", ";", "="]

def operator? (cs : List Char) : Option (String × List Char) :=
  operatorSymbols.findSome? fun s =>
    if s.toList.isPrefixOf cs then some (s, cs.drop s.length) else none

end CodeChart.Code
