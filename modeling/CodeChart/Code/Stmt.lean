import CodeChart.Code.Expr

/-! Patterns, statements and modules. -/
namespace CodeChart.Code

inductive Pattern where
  | value (of : Expr)
  | singleton (value : Constant)
  | sequence (items : List Pattern)
  | star (name : Option String)
  | mapping (keys : List Expr) (items : List Pattern) (rest : Option String)
  | ofClass (callee : Expr) (positional : List Pattern) (names : List String)
      (named : List Pattern)
  /-- A capture: `_` has no name, a plain name has no pattern. -/
  | capture (of : Option Pattern) (name : Option String)
  | alternatives (items : List Pattern)

instance : Inhabited Pattern := ⟨.capture none none⟩

structure Alias where
  name : String
  asName : Option String
  deriving DecidableEq, Repr, Inhabited

structure WithItem where
  context : Expr
  target : Option Expr
  deriving Inhabited

mutual

inductive Stmt where
  | function (isAsync : Bool) (line : Nat) (name : String) (params : Params) (body : List Stmt)
      (decorators : List Expr) (result : Option Expr)
  | classDef (line : Nat) (name : String) (bases : List Expr) (keywords : List Keyword)
      (body : List Stmt) (decorators : List Expr)
  | giveBack (value : Option Expr)
  | delete (targets : List Expr)
  | assign (targets : List Expr) (value : Expr)
  | update (target : Expr) (op : BinOp) (value : Expr)
  /-- A hinted target; `simple` holds of a name that stands without parentheses. -/
  | declare (target hint : Expr) (value : Option Expr) (simple : Bool)
  | forEach (isAsync : Bool) (target source : Expr) (body orelse : List Stmt)
  | whileTrue (test : Expr) (body orelse : List Stmt)
  | branch (test : Expr) (body orelse : List Stmt)
  | within (isAsync : Bool) (items : List WithItem) (body : List Stmt)
  | select (subject : Expr) (cases : List Case)
  | raise (error cause : Option Expr)
  /-- `grouped` marks handlers of exception groups. -/
  | attempt (grouped : Bool) (body : List Stmt) (handlers : List Handler) (orelse final : List Stmt)
  | require (test : Expr) (message : Option Expr)
  | load (names : List Alias)
  | loadFrom (source : Option String) (names : List Alias) (level : Nat)
  | globals (names : List String)
  | nonlocals (names : List String)
  | expr (value : Expr)
  | pass
  | stop
  | next
  /-- A statement one of whose required parts has been taken away. -/
  | lacking (part : String) (of : Stmt)

inductive Handler where
  | mk (type : Option Expr) (name : Option String) (body : List Stmt)
  | lacking (part : String) (of : Handler)

inductive Case where
  | mk (pattern : Pattern) (guard : Option Expr) (body : List Stmt)
  | lacking (part : String) (of : Case)

end

instance : Inhabited Stmt := ⟨.pass⟩

structure Module where
  body : List Stmt
  deriving Inhabited

def Case.pattern : Case → Pattern
  | .mk pattern _ _ => pattern
  | .lacking _ of => of.pattern

def Case.guard : Case → Option Expr
  | .mk _ guard _ => guard
  | .lacking _ of => of.guard

def Case.body : Case → List Stmt
  | .mk _ _ body => body
  | .lacking _ of => of.body

def Stmt.definedName? : Stmt → Option String
  | .function _ _ name _ _ _ _ => some name
  | .classDef _ name _ _ _ _ => some name
  | .lacking part s => if part = "name" then none else s.definedName?
  | _ => none

end CodeChart.Code
