import CodeChart.Code.Parser.Formatted

/-! The grammar of expressions. Every rule is given the readers that it needs of deeper
expressions, so the rules themselves do not recurse; `readExpr` ties them together and counts the
depth down. Targets of assignments are read as expressions and checked afterwards. -/
namespace CodeChart.Code

open Reader

inductive Goal where
  | expression
  | named
  | disjunction
  | inversion
  | bitOr
  | factor
  | starExpressions
  | yield
  deriving DecidableEq, Repr

abbrev Grammar := Goal → Reader Expr

mutual

def Expr.isTarget : Expr → Bool
  | .name _ => true
  | .member .. => true
  | .index .. => true
  | .tuple items => allTargets items
  | .list items => allTargets items
  | .starred value => value.isPlainTarget
  | _ => false

def Expr.isPlainTarget : Expr → Bool
  | .name _ => true
  | .member .. => true
  | .index .. => true
  | .tuple items => allTargets items
  | .list items => allTargets items
  | _ => false

def allTargets : List Expr → Bool
  | [] => true
  | e :: es => e.isTarget && allTargets es

end

mutual

def Expr.isDeletable : Expr → Bool
  | .name _ => true
  | .member .. => true
  | .index .. => true
  | .tuple items => allDeletable items
  | .list items => allDeletable items
  | _ => false

def allDeletable : List Expr → Bool
  | [] => true
  | e :: es => e.isDeletable && allDeletable es

end

def Expr.isPlace : Expr → Bool
  | .name _ => true
  | .member .. => true
  | .index .. => true
  | _ => false

def Expr.isStarred : Expr → Bool
  | .starred _ => true
  | _ => false

namespace Grammar

def starOr (p star : Reader Expr) : Reader Expr := do
  if (← nextIsOp "*") then
    op "*"
    .starred <$> star
  else p

/-- One target, checked. -/
def target (g : Grammar) : Reader Expr := do
  let e ← starOr (g .bitOr) (g .bitOr)
  if e.isTarget then pure e else failure

def targets (g : Grammar) : Reader Expr := do
  match (← commaListWithTail (target g)) with
  | ([e], false) => pure e
  | (es, _) => pure (.tuple es)

structure ParamsSoFar where
  positional : List Param := []
  ordinary : List Param := []
  rest : Option Param := none
  keywordOnly : List Param := []
  keywordRest : Option Param := none
  slash : Bool := false
  star : Bool := false
  defaulted : Bool := false

def ParamsSoFar.result (p : ParamsSoFar) : Params :=
  .mk p.positional p.ordinary p.rest p.keywordOnly p.keywordRest

def hint (hinted : Bool) (p : Reader Expr) : Reader (Option Expr) := do
  if hinted && (← nextIsOp ":") then
    op ":"
    some <$> p
  else pure none

def paramEntry (g : Grammar) (hinted : Bool) (p : ParamsSoFar) : Reader ParamsSoFar := do
  if p.keywordRest.isSome then failure
  match (← take) with
  | .op "/" =>
    if p.slash || p.star || p.ordinary.isEmpty then failure
    pure { p with positional := p.ordinary, ordinary := [], slash := true }
  | .op "*" =>
    if p.star then failure
    if (← nextIsOp ",") then
      -- a bare star needs a parameter behind it
      match (← peekSecond) with
      | .name _ => pure { p with star := true }
      | _ => failure
    else
      let id ← name
      let h ← hint hinted (starOr (g .expression) (g .bitOr))
      pure { p with star := true, rest := some (.mk id h none) }
  | .op "**" =>
    let id ← name
    let h ← hint hinted (g .expression)
    pure { p with keywordRest := some (.mk id h none) }
  | .name id =>
    let h ← hint hinted (g .expression)
    let default ← maybe (do op "="; g .expression)
    let param := Param.mk id h default
    if p.star then pure { p with keywordOnly := p.keywordOnly ++ [param] }
    else if p.defaulted && default.isNone then failure
    else
      pure { p with ordinary := p.ordinary ++ [param], defaulted := default.isSome }
  | _ => failure

/-- A parameter list, possibly empty, with a comma allowed at its end. -/
def params (g : Grammar) (hinted : Bool) (closing : String) : Reader Params := do
  if (← nextIsOp closing) then pure (ParamsSoFar.result {})
  else
    let first ← paramEntry g hinted {}
    let all ← extend (fun p => do op ","; paramEntry g hinted p) first
    let _ ← maybe (op ",")
    pure all.result

def clause (g : Grammar) : Reader Clause := do
  let isAsync ← maybe (word "async")
  let _ ← word "for"
  let t ← targets g
  let _ ← word "in"
  let source ← g .disjunction
  let conditions ← many (do let _ ← word "if"; g .disjunction)
  pure (.mk t source conditions isAsync.isSome)

def clauses (g : Grammar) : Reader (List Clause) := many1 (clause g)

def nextIsClause : Reader Bool := do
  pure ((← nextIsWord "for") || (← nextIsWord "async"))

def starNamed (g : Grammar) : Reader Expr := starOr (g .named) (g .bitOr)

def moreItems (g : Grammar) (first : Expr) : Reader (List Expr) := do
  let more ← many (do op ","; starNamed g)
  let _ ← maybe (op ",")
  pure (first :: more)

/-- Behind an opening parenthesis: a tuple, a group, a generator or a yield. -/
def parenthesis (g : Grammar) : Reader Expr := do
  if (← nextIsOp ")") then
    op ")"
    pure (.tuple [])
  else if (← nextIsWord "yield") then
    let e ← g .yield
    op ")"
    pure e
  else
    let first ← starNamed g
    if (← nextIsOp ",") then
      let items ← moreItems g first
      op ")"
      pure (.tuple items)
    else if first.isStarred then failure
    else if (← nextIsClause) then
      let cs ← clauses g
      op ")"
      pure (.generator first cs)
    else
      op ")"
      pure first

def bracket (g : Grammar) : Reader Expr := do
  if (← nextIsOp "]") then
    op "]"
    pure (.list [])
  else
    let first ← starNamed g
    if !first.isStarred && (← nextIsClause) then
      let cs ← clauses g
      op "]"
      pure (.listOf first cs)
    else
      let items ← moreItems g first
      op "]"
      pure (.list items)

def dictItem (g : Grammar) : Reader DictItem := do
  if (← nextIsOp "**") then
    op "**"
    DictItem.mk none <$> g .bitOr
  else
    let k ← g .expression
    op ":"
    DictItem.mk (some k) <$> g .expression

/-- Behind an opening brace: a dictionary, a set or a comprehension of either. -/
def brace (g : Grammar) : Reader Expr := do
  if (← nextIsOp "\x7d") then
    op "\x7d"
    pure (.dict [])
  else if (← nextIsOp "**") then
    let items ← commaListWithTail (dictItem g)
    op "\x7d"
    pure (.dict items.1)
  else
    let isNamed := match (← peek), (← peekSecond) with
      | .name _, .op ":=" => true
      | _, _ => false
    let first ← starNamed g
    if !isNamed && !first.isStarred && (← nextIsOp ":") then
      op ":"
      let value ← g .expression
      if (← nextIsClause) then
        let cs ← clauses g
        op "\x7d"
        pure (.dictOf first value cs)
      else
        let more ← many (do op ","; dictItem g)
        let _ ← maybe (op ",")
        op "\x7d"
        pure (.dict (.mk (some first) value :: more))
    else if !first.isStarred && (← nextIsClause) then
      let cs ← clauses g
      op "\x7d"
      pure (.setOf first cs)
    else
      let items ← moreItems g first
      op "\x7d"
      pure (.set items)

def textLiteral : Reader Literal := do
  match (← take) with
  | .text l => pure l
  | _ => failure

def fieldValue (g : Grammar) (code : List Char) : Option Expr := do
  let ts ← tokenize code
  let (e, _) ← (g .starExpressions).run ts
  pure e

def literals (g : Grammar) : Reader Expr := do
  let first ← textLiteral
  let rest ← many textLiteral
  match joinLiterals (fieldValue g) first rest with
  | some e => pure e
  | none => failure

def atom (g : Grammar) : Reader Expr := do
  match (← peek) with
  | .text _ => literals g
  | _ =>
    match (← take) with
    | .name id => pure (.name id)
    | .word "None" _ => pure (.constant .none)
    | .word "True" _ => pure (.constant (.bool true))
    | .word "False" _ => pure (.constant (.bool false))
    | .number value => pure (.constant value)
    | .op "..." => pure (.constant .ellipsis)
    | .op "(" => parenthesis g
    | .op "[" => bracket g
    | .op "\x7b" => brace g
    | _ => failure

/-- Arguments read so far. After a keyword no plain argument may follow, after a mapping no starred
one either. -/
structure ArgsSoFar where
  args : List Expr := []
  keywords : List Keyword := []
  named : Bool := false
  unpacked : Bool := false

def argEntry (g : Grammar) (a : ArgsSoFar) : Reader ArgsSoFar := do
  if (← nextIsOp "*") then
    op "*"
    if a.unpacked then failure
    let e ← g .expression
    pure { a with args := a.args ++ [.starred e] }
  else if (← nextIsOp "**") then
    op "**"
    let e ← g .expression
    pure { a with keywords := a.keywords ++ [.mk none e], named := true, unpacked := true }
  else
    match (← peek), (← peekSecond) with
    | .name id, .op "=" =>
      let _ ← take
      let _ ← take
      let e ← g .expression
      pure { a with keywords := a.keywords ++ [.mk (some id) e], named := true }
    | _, _ =>
      if a.named then failure
      let e ← g .named
      pure { a with args := a.args ++ [e] }

/-- Further arguments up to the closing parenthesis, which stays. -/
def moreArgs (g : Grammar) (first : ArgsSoFar) : Reader (List Expr × List Keyword) := do
  let all ← extend (fun a => do op ","; argEntry g a) first
  let _ ← maybe (op ",")
  pure (all.args, all.keywords)

def arguments (g : Grammar) : Reader (List Expr × List Keyword) := do
  if (← nextIsOp ")") then pure ([], [])
  else
    let first ← argEntry g {}
    moreArgs g first

/-- Behind the opening parenthesis of a call. A generator may be its only argument. -/
def callTail (g : Grammar) (callee : Expr) : Reader Expr := do
  if (← nextIsOp ")") then
    op ")"
    pure (.call callee [] [])
  else
    let first ← argEntry g {}
    match first.args with
    | [e] =>
      if !e.isStarred && (← nextIsClause) then
        let cs ← clauses g
        op ")"
        pure (.call callee [.generator e cs] [])
      else
        let (args, keywords) ← moreArgs g first
        op ")"
        pure (.call callee args keywords)
    | _ =>
      let (args, keywords) ← moreArgs g first
      op ")"
      pure (.call callee args keywords)

def sliceTail (g : Grammar) (lower : Option Expr) : Reader Expr := do
  op ":"
  let part : Reader (Option Expr) := maybe (g .expression)
  let upper ← part
  if (← nextIsOp ":") then
    op ":"
    let step ← part
    pure (.slice lower upper step)
  else pure (.slice lower upper none)

def sliceItem (g : Grammar) : Reader Expr := do
  if (← nextIsOp "*") then
    op "*"
    .starred <$> g .expression
  else if (← nextIsOp ":") then sliceTail g none
  else
    match (← peek), (← peekSecond) with
    | .name _, .op ":=" => g .named
    | _, _ =>
      let e ← g .expression
      if (← nextIsOp ":") then sliceTail g (some e) else pure e

def slices (g : Grammar) : Reader Expr := do
  match (← commaListWithTail (sliceItem g)) with
  | ([e], false) => pure (if e.isStarred then .tuple [e] else e)
  | (es, _) => pure (.tuple es)

def trailer (g : Grammar) (e : Expr) : Reader Expr := do
  match (← take) with
  | .op "." => .member e <$> name
  | .op "(" => callTail g e
  | .op "[" =>
    let k ← slices g
    op "]"
    pure (.index e k)
  | _ => failure

def primary (g : Grammar) : Reader Expr := do
  let e ← atom g
  extend (trailer g) e

def awaited (g : Grammar) : Reader Expr := do
  if (← nextIsWord "await") then
    let _ ← word "await"
    .await <$> primary g
  else primary g

def power (g : Grammar) : Reader Expr := do
  let e ← awaited g
  if (← nextIsOp "**") then
    op "**"
    .binary e .pow <$> g .factor
  else pure e

def factor (g : Grammar) : Reader Expr := do
  match (← peek) with
  | .op "+" => let _ ← take; .unary .plus <$> g .factor
  | .op "-" => let _ ← take; .unary .minus <$> g .factor
  | .op "~" => let _ ← take; .unary .invert <$> g .factor
  | _ => power g

def leftGrouped (operators : List (String × BinOp)) (p : Reader Expr) : Reader Expr := do
  let e ← p
  extend (fun left => do
    match (← take) with
    | .op s =>
      match operators.lookup s with
      | some o => .binary left o <$> p
      | none => failure
    | _ => failure) e

def term (g : Grammar) : Reader Expr :=
  leftGrouped [("*", .mult), ("/", .div), ("//", .floorDiv), ("%", .mod), ("@", .matMult)]
    (factor g)

def sum (g : Grammar) : Reader Expr := leftGrouped [("+", .add), ("-", .sub)] (term g)

def shift (g : Grammar) : Reader Expr :=
  leftGrouped [("<<", .leftShift), (">>", .rightShift)] (sum g)

def bitAnd (g : Grammar) : Reader Expr := leftGrouped [("&", .bitAnd)] (shift g)

def bitXor (g : Grammar) : Reader Expr := leftGrouped [("^", .bitXor)] (bitAnd g)

def bitOr (g : Grammar) : Reader Expr := leftGrouped [("|", .bitOr)] (bitXor g)

def compareOp : Reader CompareOp := do
  match (← take) with
  | .op "==" => pure .eq
  | .op "!=" => pure .notEq
  | .op "<" => pure .less
  | .op "<=" => pure .lessEq
  | .op ">" => pure .greater
  | .op ">=" => pure .greaterEq
  | .word "in" _ => pure .inside
  | .word "is" _ =>
    if (← nextIsWord "not") then
      let _ ← take
      pure .isNot
    else pure .is
  | .word "not" _ =>
    let _ ← word "in"
    pure .notInside
  | _ => failure

def comparison (g : Grammar) : Reader Expr := do
  let left ← bitOr g
  let rest ← many (do
    let o ← compareOp
    Comparison.mk o <$> bitOr g)
  pure (if rest.isEmpty then left else .compare left rest)

def inversion (g : Grammar) : Reader Expr := do
  if (← nextIsWord "not") then
    let _ ← word "not"
    .unary .not <$> g .inversion
  else comparison g

def truthChain (id : String) (o : BoolOp) (p : Reader Expr) : Reader Expr := do
  let first ← p
  let rest ← many (do let _ ← word id; p)
  pure (if rest.isEmpty then first else .boolean o (first :: rest))

def conjunction (g : Grammar) : Reader Expr := truthChain "and" .and (inversion g)

def disjunction (g : Grammar) : Reader Expr := truthChain "or" .or (conjunction g)

def expression (g : Grammar) : Reader Expr := do
  if (← nextIsWord "lambda") then
    let _ ← word "lambda"
    let ps ← params g false ":"
    op ":"
    .function ps <$> g .expression
  else
    let e ← disjunction g
    if (← nextIsWord "if") then
      let _ ← word "if"
      let test ← disjunction g
      let _ ← word "else"
      .choice test e <$> g .expression
    else pure e

/-- An expression that may name its value. -/
def named (g : Grammar) : Reader Expr := do
  match (← peek), (← peekSecond) with
  | .name id, .op ":=" =>
    let _ ← take
    let _ ← take
    .assign (.name id) <$> g .expression
  | _, _ => expression g

def starExpression (g : Grammar) : Reader Expr := starOr (expression g) (bitOr g)

def starExpressions (g : Grammar) : Reader Expr := do
  match (← commaListWithTail (starExpression g)) with
  | ([e], false) => pure e
  | (es, _) => pure (.tuple es)

def yieldExpr (g : Grammar) : Reader Expr := do
  let _ ← word "yield"
  if (← nextIsWord "from") then
    let _ ← word "from"
    .yieldFrom <$> g .expression
  else .yield <$> maybe (starExpressions g)

def rules (g : Grammar) : Grammar
  | .expression => expression g
  | .named => named g
  | .disjunction => disjunction g
  | .inversion => inversion g
  | .bitOr => bitOr g
  | .factor => factor g
  | .starExpressions => starExpressions g
  | .yield => yieldExpr g

end Grammar

/-- Reads an expression in which others nest at most `depth` deep. -/
def readExpr : Nat → Goal → List Token → Option (Expr × List Token)
  | 0, _, _ => none
  | depth + 1, goal, ts => (Grammar.rules (fun goal ts => readExpr depth goal ts) goal).run ts

end CodeChart.Code
