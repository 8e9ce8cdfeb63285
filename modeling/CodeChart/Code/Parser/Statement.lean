import CodeChart.Code.Parser.Pattern
import CodeChart.Fault

/-! The grammar of statements and modules. Rules take the reader of a statement as an argument;
`readStatement` ties them together and counts the depth of blocks down. -/
namespace CodeChart.Code

open Reader

namespace Grammar

abbrev Statements := Reader (List Stmt)

def updateSymbols : List (String × BinOp) :=
  [("+=", .add), ("-=", .sub), ("*=", .mult), ("@=", .matMult), ("/=", .div), ("%=", .mod),
   ("&=", .bitAnd), ("|=", .bitOr), ("^=", .bitXor), ("<<=", .leftShift), (">>=", .rightShift),
   ("**=", .pow), ("//=", .floorDiv)]

def rightSide (g : Grammar) : Reader Expr := do
  if (← nextIsWord "yield") then g .yield else g .starExpressions

def assignChain (g : Grammar) : Reader (List Expr) :=
  many1 (do op "="; rightSide g)

def updateOp : Reader BinOp := do
  match (← take) with
  | .op s =>
    match updateSymbols.lookup s with
    | some o => pure o
    | none => failure
  | _ => failure

def declaration (g : Grammar) (place : Expr) (simple : Bool) : Reader Stmt := do
  if !place.isPlace then failure
  let h ← g .expression
  if (← nextIsOp "=") then
    op "="
    let v ← rightSide g
    pure (.declare place h (some v) simple)
  else pure (.declare place h none simple)

/-- A statement that begins with an expression: an assignment, an update, a declaration or the
expression alone. -/
def expressionStatement (g : Grammar) : Reader Stmt := do
  let simple := match (← peek) with
    | .name _ => true
    | _ => false
  let e ← g .starExpressions
  match (← peek) with
  | .op "=" =>
    let values ← assignChain g
    let all := e :: values
    let places := all.dropLast
    match all.getLast? with
    | some value => if allTargets places then pure (.assign places value) else failure
    | none => failure
  | .op ":" =>
    op ":"
    let isName := match e with
      | .name _ => true
      | _ => false
    declaration g e (simple && isName)
  | .op s =>
    match updateSymbols.lookup s with
    | some _ =>
      if !e.isPlace then failure
      let o ← updateOp
      let v ← rightSide g
      pure (.update e o v)
    | none => pure (.expr e)
  | _ => pure (.expr e)

def dottedName : Reader String := do
  let first ← name
  let more ← many (do op "."; name)
  pure (".".intercalate (first :: more))

def asName : Reader (Option String) := do
  if (← nextIsWord "as") then
    let _ ← word "as"
    some <$> name
  else pure none

def importStatement : Reader Stmt := do
  let _ ← word "import"
  let names ← commaList (do
    let n ← dottedName
    let a ← asName
    pure (Alias.mk n a))
  pure (.load names)

def relativeLevel : Reader Nat := do
  let dots ← many (do
    match (← take) with
    | .op "." => pure 1
    | .op "..." => pure 3
    | _ => failure)
  pure (dots.foldl (· + ·) 0)

def importedNames : Reader (List Alias) := do
  let item : Reader Alias := do
    let n ← name
    let a ← asName
    pure ⟨n, a⟩
  if (← nextIsOp "*") then
    op "*"
    pure [⟨"*", none⟩]
  else if (← nextIsOp "(") then
    op "("
    let (names, _) ← commaListWithTail item
    op ")"
    pure names
  else commaList item

def fromStatement : Reader Stmt := do
  let _ ← word "from"
  let level ← relativeLevel
  let source ← maybe dottedName
  if level = 0 && source.isNone then failure
  let _ ← word "import"
  let names ← importedNames
  pure (.loadFrom source names level)

def nextIsEnd : Reader Bool := do
  match (← peek) with
  | .newline => pure true
  | .op ";" => pure true
  | _ => pure false

def deleteStatement (g : Grammar) : Reader Stmt := do
  let _ ← word "del"
  let (es, _) ← commaListWithTail (g .bitOr)
  if allDeletable es && (← nextIsEnd) then pure (.delete es) else failure

def raiseStatement (g : Grammar) : Reader Stmt := do
  let _ ← word "raise"
  if (← nextIsEnd) then pure (.raise none none)
  else
    let e ← g .expression
    if (← nextIsWord "from") then
      let _ ← word "from"
      let c ← g .expression
      pure (.raise (some e) (some c))
    else pure (.raise (some e) none)

def requireStatement (g : Grammar) : Reader Stmt := do
  let _ ← word "assert"
  let e ← g .expression
  if (← nextIsOp ",") then
    op ","
    let m ← g .expression
    pure (.require e (some m))
  else pure (.require e none)

def returnStatement (g : Grammar) : Reader Stmt := do
  let _ ← word "return"
  if (← nextIsEnd) then pure (.giveBack none)
  else
    let e ← g .starExpressions
    pure (.giveBack (some e))

def simpleStatement (g : Grammar) : Reader Stmt := do
  match (← peek) with
  | .word "return" _ => returnStatement g
  | .word "import" _ => importStatement
  | .word "from" _ => fromStatement
  | .word "raise" _ => raiseStatement g
  | .word "pass" _ => let _ ← take; pure .pass
  | .word "break" _ => let _ ← take; pure .stop
  | .word "continue" _ => let _ ← take; pure .next
  | .word "del" _ => deleteStatement g
  | .word "yield" _ => .expr <$> g .yield
  | .word "assert" _ => requireStatement g
  | .word "global" _ => let _ ← take; .globals <$> commaList name
  | .word "nonlocal" _ => let _ ← take; .nonlocals <$> commaList name
  | _ => expressionStatement g

/-- Simple statements with semicolons between them, up to the end of the line. -/
def simpleLine (g : Grammar) : Statements := do
  let first ← simpleStatement g
  let more ← many (do op ";"; simpleStatement g)
  let _ ← maybe (op ";")
  exactly .newline
  pure (first :: more)

/-- A suite: an indented block, or simple statements on the same line. -/
def block (g : Grammar) (statement : Statements) : Statements := do
  match (← peek) with
  | .newline =>
    exactly .newline
    exactly .indent
    let ss ← many1 statement
    exactly .dedent
    pure ss.flatten
  | _ => simpleLine g

def suite (g : Grammar) (statement : Statements) : Statements := do
  op ":"
  block g statement

def elseSuite (g : Grammar) (statement : Statements) : Statements := do
  if (← nextIsWord "else") then
    let _ ← word "else"
    suite g statement
  else pure []

/-- What follows the first suite of a branch. There are fewer further conditions than tokens. -/
def otherwise (g : Grammar) (statement : Statements) : List Token → Statements
  | [] => failure
  | _ :: ts => do
    if (← nextIsWord "elif") then
      let _ ← word "elif"
      let test ← g .named
      let body ← suite g statement
      let orelse ← otherwise g statement ts
      pure [.branch test body orelse]
    else elseSuite g statement

def branchStatement (g : Grammar) (statement : Statements) : Reader Stmt := do
  let _ ← word "if"
  let test ← g .named
  let body ← suite g statement
  let orelse ← otherwise g statement (← get)
  pure (.branch test body orelse)

def whileStatement (g : Grammar) (statement : Statements) : Reader Stmt := do
  let _ ← word "while"
  let test ← g .named
  let body ← suite g statement
  let orelse ← elseSuite g statement
  pure (.whileTrue test body orelse)

def forStatement (g : Grammar) (statement : Statements) (isAsync : Bool) : Reader Stmt := do
  let _ ← word "for"
  let t ← targets g
  let _ ← word "in"
  let source ← g .starExpressions
  let body ← suite g statement
  let orelse ← elseSuite g statement
  pure (.forEach isAsync t source body orelse)

def withItem (g : Grammar) : Reader WithItem := do
  let e ← g .expression
  if (← nextIsWord "as") then
    let _ ← word "as"
    let t ← target g
    pure ⟨e, some t⟩
  else pure ⟨e, none⟩

/-- The items of a with statement up to its colon: in parentheses if they can be read so. -/
def withItems (g : Grammar) : Reader (List WithItem) := do
  let grouped : Reader (List WithItem) := do
    op "("
    let (items, _) ← commaListWithTail (withItem g)
    op ")"
    if (← nextIsOp ":") then pure items else failure
  grouped <|> commaList (withItem g)

def withStatement (g : Grammar) (statement : Statements) (isAsync : Bool) : Reader Stmt := do
  let _ ← word "with"
  let items ← withItems g
  let body ← suite g statement
  pure (.within isAsync items body)

def handler (g : Grammar) (statement : Statements) (grouped : Bool) : Reader Handler := do
  let _ ← word "except"
  if grouped then op "*"
  if !grouped && (← nextIsOp ":") then
    let body ← suite g statement
    pure (.mk none none body)
  else
    let e ← g .expression
    let n ← asName
    let body ← suite g statement
    pure (.mk (some e) n body)

def finallySuite (g : Grammar) (statement : Statements) : Statements := do
  if (← nextIsWord "finally") then
    let _ ← word "finally"
    suite g statement
  else pure []

def tryStatement (g : Grammar) (statement : Statements) : Reader Stmt := do
  let _ ← word "try"
  let body ← suite g statement
  if (← nextIsWord "except") then
    let grouped := match (← peekSecond) with
      | .op "*" => true
      | _ => false
    let handlers ← many1 (handler g statement grouped)
    let orelse ← elseSuite g statement
    let final ← finallySuite g statement
    pure (.attempt grouped body handlers orelse final)
  else
    let _ ← word "finally"
    let final ← suite g statement
    pure (.attempt false body [] [] final)

def functionStatement (g : Grammar) (statement : Statements) (decorators : List Expr)
    (asyncLine : Option Nat) : Reader Stmt := do
  let line ← word "def"
  let id ← name
  op "("
  let ps ← params g true ")"
  op ")"
  let result : Option Expr ← do
    if (← nextIsOp "->") then
      op "->"
      some <$> g .expression
    else pure none
  let body ← suite g statement
  pure (.function asyncLine.isSome (asyncLine.getD line) id ps body decorators result)

def classStatement (g : Grammar) (statement : Statements) (decorators : List Expr) :
    Reader Stmt := do
  let line ← word "class"
  let id ← name
  let (bases, keywords) ← do
    if (← nextIsOp "(") then
      op "("
      let args ← arguments g
      op ")"
      pure args
    else pure ([], [])
  let body ← suite g statement
  pure (.classDef line id bases keywords body decorators)

def decorator (g : Grammar) : Reader Expr := do
  op "@"
  let e ← g .named
  exactly .newline
  pure e

def decorated (g : Grammar) (statement : Statements) : Reader Stmt := do
  let ds ← many1 (decorator g)
  match (← peek) with
  | .word "class" _ => classStatement g statement ds
  | .word "async" _ =>
    let line ← word "async"
    functionStatement g statement ds (some line)
  | _ => functionStatement g statement ds none

def asyncStatement (g : Grammar) (statement : Statements) : Reader Stmt := do
  let line ← word "async"
  match (← peek) with
  | .word "def" _ => functionStatement g statement [] (some line)
  | .word "for" _ => forStatement g statement true
  | _ => withStatement g statement true

def subject (g : Grammar) : Reader Expr := do
  let first ← starNamed g
  if (← nextIsOp ",") then
    let items ← moreItems g first
    pure (.tuple items)
  else if first.isStarred then failure
  else pure first

/-- The head of a selection, up to the first case. `match` is an ordinary name elsewhere. -/
def selectionHead (g : Grammar) : Reader Expr := do
  softWord "match"
  let e ← subject g
  op ":"
  exactly .newline
  exactly .indent
  match (← peek) with
  | .name "case" => pure e
  | _ => failure

def caseBlock (g : Grammar) (p : PatternReader) (statement : Statements) : Reader Case := do
  softWord "case"
  let ps ← patterns p
  let test : Option Expr ← do
    if (← nextIsWord "if") then
      let _ ← word "if"
      some <$> g .named
    else pure none
  let body ← suite g statement
  pure (.mk ps test body)

def statement (g : Grammar) (p : PatternReader) (inner : Statements) : Statements := do
  match (← peek) with
  | .word "if" _ => List.singleton <$> branchStatement g inner
  | .word "while" _ => List.singleton <$> whileStatement g inner
  | .word "for" _ => List.singleton <$> forStatement g inner false
  | .word "with" _ => List.singleton <$> withStatement g inner false
  | .word "try" _ => List.singleton <$> tryStatement g inner
  | .word "def" _ => List.singleton <$> functionStatement g inner [] none
  | .word "class" _ => List.singleton <$> classStatement g inner []
  | .word "async" _ => List.singleton <$> asyncStatement g inner
  | .op "@" => List.singleton <$> decorated g inner
  | .name "match" =>
    match (← maybe (selectionHead g)) with
    | some e =>
      let cases ← many1 (caseBlock g p inner)
      exactly .dedent
      pure [.select e cases]
    | none => simpleLine g
  | _ => simpleLine g

end Grammar

def readStatement (g : Grammar) (p : Grammar.PatternReader) :
    Nat → List Token → Option (List Stmt × List Token)
  | 0, _ => none
  | depth + 1, ts => (Grammar.statement g p (fun ts => readStatement g p depth ts)).run ts

/-- The module that a source text holds. Nothing nests deeper than the text is long. -/
def Module.parse (source : String) : Except Fault Module :=
  let cs := source.toList
  let depth := cs.length + 2
  let g : Grammar := fun goal ts => readExpr depth goal ts
  let p : Grammar.PatternReader := fun ts => readPattern g depth ts
  let s : Grammar.Statements := fun ts => readStatement g p depth ts
  let read : Reader Module := do
    let ss ← Reader.many s
    Reader.exactly .finish
    pure ⟨ss.flatten⟩
  match tokenize cs with
  | none => throw .badCode
  | some ts =>
    match read.run ts with
    | some (m, _) => pure m
    | none => throw .badCode

end CodeChart.Code
