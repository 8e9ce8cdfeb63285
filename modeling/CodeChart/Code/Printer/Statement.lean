import CodeChart.Code.Printer.Expression
import CodeChart.Code.Stmt

/-! Patterns and statements as text. A statement starts a line of its own, four blanks per level of
indentation; a definition leaves an empty line before itself. Text of a whole statement therefore
begins with line breaks, which `Code.Piece.text` strips. -/
namespace CodeChart.Code

mutual

/-- The text of a pattern at a place that asks for level `need`. -/
def Pattern.print (need : Nat) : Pattern → Except Fault String
  | .value of => of.print false Level.test
  | .singleton value => value.print false
  | .sequence items => do
    let is ← printPatterns Level.test items
    pure ("[" ++ commaSeparated is ++ "]")
  | .star name => pure ("*" ++ name.getD "_")
  | .mapping keys items rest => do
    let ks ← printList false Level.test keys
    let is ← printPatterns Level.test items
    let pairs := (ks.zip is).map fun (k, i) => k ++ ": " ++ i
    let more := match rest with
      | some name => ["**" ++ name]
      | none => []
    pure ("\x7b" ++ commaSeparated (pairs ++ more) ++ "\x7d")
  | .ofClass callee positional names named => do
    let c ← callee.print false Level.atom
    let ps ← printPatterns Level.test positional
    let ns ← printPatterns Level.test named
    let pairs := (names.zip ns).map fun (n, p) => n ++ "=" ++ p
    pure (c ++ "(" ++ commaSeparated (ps ++ pairs) ++ ")")
  | .capture none name => pure (name.getD "_")
  | .capture (some _) none => pure "_"
  | .capture (some of) (some name) => do
    let p ← of.print Level.bitOr
    pure (parenthesize (Level.test < need) (p ++ " as " ++ name))
  | .alternatives items => do
    let is ← printPatterns (Level.next Level.bitOr) items
    pure (parenthesize (Level.bitOr < need) (" | ".intercalate is))

def printPatterns (need : Nat) : List Pattern → Except Fault (List String)
  | [] => pure []
  | p :: ps => do
    let t ← p.print need
    let ts ← printPatterns need ps
    pure (t :: ts)

end

def fill (indent : Nat) (text : String) : String :=
  "\n" ++ String.ofList (List.replicate (4 * indent) ' ') ++ text

def Alias.print (a : Alias) : String := a.name ++ behind " as " a.asName

def WithItem.print (w : WithItem) : Except Fault String := do
  let c ← w.context.print false Level.test
  let t ← printOption false Level.test w.target
  pure (c ++ behind " as " t)

def printDecorators (indent : Nat) (decorators : List Expr) : Except Fault String := do
  let ds ← printList false Level.test decorators
  pure (String.join (ds.map fun d => fill indent ("@" ++ d)))

def documentation? : List Stmt → Option (Bool × Text.CodePoints)
  | .expr (.constant (.text marked value)) :: _ => some (marked, value)
  | _ => none

def printDocumentation (indent : Nat) (marked : Bool) (value : Text.CodePoints) : String :=
  fill indent ((if marked then "u" else "") ++ Text.sparing value Text.longQuotes)

def Stmt.kind : Stmt → String
  | .function isAsync .. => if isAsync then "AsyncFunctionDef" else "FunctionDef"
  | .classDef .. => "ClassDef"
  | .giveBack _ => "Return"
  | .delete _ => "Delete"
  | .assign .. => "Assign"
  | .update .. => "AugAssign"
  | .declare .. => "AnnAssign"
  | .forEach isAsync .. => if isAsync then "AsyncFor" else "For"
  | .whileTrue .. => "While"
  | .branch .. => "If"
  | .within isAsync .. => if isAsync then "AsyncWith" else "With"
  | .select .. => "Match"
  | .raise .. => "Raise"
  | .attempt grouped .. => if grouped then "TryStar" else "Try"
  | .require .. => "Assert"
  | .load _ => "Import"
  | .loadFrom .. => "ImportFrom"
  | .globals _ => "Global"
  | .nonlocals _ => "Nonlocal"
  | .expr _ => "Expr"
  | .pass => "Pass"
  | .stop => "Break"
  | .next => "Continue"
  | .lacking _ of => of.kind

mutual

def Stmt.print (indent : Nat) : Stmt → Except Fault String
  | .function isAsync _ name params body decorators result => do
    let ds ← printDecorators indent decorators
    let ps ← params.print false
    let r ← printOption false Level.test result
    let b ← printBody (indent + 1) body
    pure ("\n" ++ ds ++ fill indent ((if isAsync then "async def " else "def ") ++ name ++ "("
      ++ ps ++ ")" ++ behind " -> " r ++ ":") ++ b)
  | .classDef _ name bases keywords body decorators => do
    let ds ← printDecorators indent decorators
    let bs ← printList false Level.test bases
    let ks ← printKeywords false keywords
    let b ← printBody (indent + 1) body
    let args := bs ++ ks
    pure ("\n" ++ ds ++ fill indent ("class " ++ name
      ++ (if args.isEmpty then "" else "(" ++ commaSeparated args ++ ")") ++ ":") ++ b)
  | .giveBack value => do
    let v ← printOption false Level.test value
    pure (fill indent ("return" ++ behind " " v))
  | .delete targets => do
    let ts ← printList false Level.test targets
    pure (fill indent ("del " ++ commaSeparated ts))
  | .assign targets value => do
    let ts ← printList false Level.tuple targets
    let v ← value.print false Level.test
    pure (fill indent (String.join (ts.map (· ++ " = ")) ++ v))
  | .update target op value => do
    let t ← target.print false Level.test
    let v ← value.print false Level.test
    pure (fill indent (t ++ " " ++ op.symbol ++ "= " ++ v))
  | .declare target hint value simple => do
    let t ← target.print false Level.test
    let isName := match target with
      | .name _ => true
      | _ => false
    let h ← hint.print false Level.test
    let v ← printOption false Level.test value
    pure (fill indent (parenthesize (!simple && isName) t ++ ": " ++ h ++ behind " = " v))
  | .forEach isAsync target source body orelse => do
    let t ← target.print false Level.tuple
    let s ← source.print false Level.test
    let b ← printBlock (indent + 1) body
    let o ← printElse indent orelse
    pure (fill indent ((if isAsync then "async for " else "for ") ++ t ++ " in " ++ s ++ ":")
      ++ b ++ o)
  | .whileTrue test body orelse => do
    let t ← test.print false Level.test
    let b ← printBlock (indent + 1) body
    let o ← printElse indent orelse
    pure (fill indent ("while " ++ t ++ ":") ++ b ++ o)
  | .branch test body orelse => do
    let t ← test.print false Level.test
    let b ← printBlock (indent + 1) body
    let o ← printOtherwise indent orelse
    pure (fill indent ("if " ++ t ++ ":") ++ b ++ o)
  | .within isAsync items body => do
    let is ← items.mapM WithItem.print
    let b ← printBlock (indent + 1) body
    pure (fill indent ((if isAsync then "async with " else "with ") ++ commaSeparated is ++ ":")
      ++ b)
  | .select subject cases => do
    let s ← subject.print false Level.test
    let cs ← printCases (indent + 1) cases
    pure (fill indent ("match " ++ s ++ ":") ++ cs)
  | .raise error cause => do
    let e ← printOption false Level.test error
    let c ← printOption false Level.test cause
    pure (fill indent ("raise" ++ behind " " e ++ behind " from " c))
  | .attempt grouped body handlers orelse final => do
    let b ← printBlock (indent + 1) body
    let hs ← printHandlers grouped indent handlers
    let o ← printElse indent orelse
    let f ← printBlock (indent + 1) final
    pure (fill indent "try:" ++ b ++ hs ++ o
      ++ (if final.isEmpty then "" else fill indent "finally:" ++ f))
  | .require test message => do
    let t ← test.print false Level.test
    let m ← printOption false Level.test message
    pure (fill indent ("assert " ++ t ++ behind ", " m))
  | .load names => pure (fill indent ("import " ++ commaSeparated (names.map Alias.print)))
  | .loadFrom source names level =>
    pure (fill indent ("from " ++ String.ofList (List.replicate level '.') ++ source.getD ""
      ++ " import " ++ commaSeparated (names.map Alias.print)))
  | .globals names => pure (fill indent ("global " ++ commaSeparated names))
  | .nonlocals names => pure (fill indent ("nonlocal " ++ commaSeparated names))
  | .expr value => do
    let v ← value.print false Level.yield
    pure (fill indent v)
  | .pass => pure (fill indent "pass")
  | .stop => pure (fill indent "break")
  | .next => pure (fill indent "continue")
  | .lacking part of => throw (.noAttribute of.kind part)

def printBlock (indent : Nat) : List Stmt → Except Fault String
  | [] => pure ""
  | s :: rest => do
    let t ← s.print indent
    let ts ← printBlock indent rest
    pure (t ++ ts)

def printBody (indent : Nat) : List Stmt → Except Fault String
  | [] => pure ""
  | s :: rest => do
    let t ← match documentation? [s] with
      | some (marked, value) => pure (printDocumentation indent marked value)
      | none => s.print indent
    let ts ← printBlock indent rest
    pure (t ++ ts)

def printElse (indent : Nat) : List Stmt → Except Fault String
  | [] => pure ""
  | s :: rest => do
    let t ← s.print (indent + 1)
    let ts ← printBlock (indent + 1) rest
    pure (fill indent "else:" ++ t ++ ts)

/-- The other suite of a branch: a single branch in it continues the chain with `elif`. -/
def printOtherwise (indent : Nat) : List Stmt → Except Fault String
  | [] => pure ""
  | [.branch test body orelse] => do
    let t ← test.print false Level.test
    let b ← printBlock (indent + 1) body
    let o ← printOtherwise indent orelse
    pure (fill indent ("elif " ++ t ++ ":") ++ b ++ o)
  | s :: rest => do
    let t ← s.print (indent + 1)
    let ts ← printBlock (indent + 1) rest
    pure (fill indent "else:" ++ t ++ ts)

def Handler.print (grouped : Bool) (indent : Nat) : Handler → Except Fault String
  | .mk type name body => do
    let t ← printOption false Level.test type
    let b ← printBlock (indent + 1) body
    pure (fill indent ((if grouped then "except*" else "except") ++ behind " " t
      ++ behind " as " name ++ ":") ++ b)
  | .lacking part _ => throw (.noAttribute "ExceptHandler" part)

def printHandlers (grouped : Bool) (indent : Nat) : List Handler → Except Fault String
  | [] => pure ""
  | h :: rest => do
    let t ← h.print grouped indent
    let ts ← printHandlers grouped indent rest
    pure (t ++ ts)

def Case.print (indent : Nat) : Case → Except Fault String
  | .mk pattern guard body => do
    let p ← pattern.print Level.test
    let g ← printOption false Level.test guard
    let b ← printBlock (indent + 1) body
    pure (fill indent ("case " ++ p ++ behind " if " g ++ ":") ++ b)
  | .lacking part _ => throw (.noAttribute "match_case" part)

def printCases (indent : Nat) : List Case → Except Fault String
  | [] => pure ""
  | c :: rest => do
    let t ← c.print indent
    let ts ← printCases indent rest
    pure (t ++ ts)

end

def Module.print (m : Module) : Except Fault String := printBody 0 m.body

end CodeChart.Code
