import CodeChart.Code.Piece

/-! Changes to pieces: a list of parts can be emptied and a part can be taken away. A part that is
optional is then absent; a piece without a required part says so when it is printed. -/
namespace CodeChart.Code

def Piece.stmt? : Piece → Option Stmt
  | .stmt s => some s
  | _ => none

def Piece.expr? : Piece → Option Expr
  | .expr e => some e
  | _ => none

def Piece.case? : Piece → Option Case
  | .case c => some c
  | _ => none

def Piece.pattern? : Piece → Option Pattern
  | .pattern p => some p
  | _ => none

def Piece.handler? : Piece → Option Handler
  | .handler h => some h
  | _ => none

def Piece.keyword? : Piece → Option Keyword
  | .keyword k => some k
  | _ => none

def Piece.param? : Piece → Option Param
  | .param p => some p
  | _ => none

/-- The pieces of a part. -/
def Part.toList : Part → List Piece
  | .piece p => [p]
  | .pieces ps => ps
  | _ => []

def Part.stmts (p : Part) : List Stmt := p.toList.filterMap Piece.stmt?

def Part.exprs (p : Part) : List Expr := p.toList.filterMap Piece.expr?

def Part.expr? (p : Part) : Option Expr := p.exprs.head?

def Params.setPart : Params → String → Part → Params
  | .mk _ o r k w, "posonlyargs", p => .mk (p.toList.filterMap Piece.param?) o r k w
  | .mk q _ r k w, "args", p => .mk q (p.toList.filterMap Piece.param?) r k w
  | .mk q o r _ w, "kwonlyargs", p => .mk q o r (p.toList.filterMap Piece.param?) w
  | .mk q o _ k w, "vararg", p => .mk q o (p.toList.findSome? Piece.param?) k w
  | .mk q o r k _, "kwarg", p => .mk q o r k (p.toList.findSome? Piece.param?)
  | .lacking part ps, a, p => .lacking part (ps.setPart a p)
  | ps, _, _ => ps

def Case.setPart : Case → String → Part → Case
  | .mk pat g b, "pattern", p => .mk ((p.toList.findSome? Piece.pattern?).getD pat) g b
  | .mk pat _ b, "guard", p => .mk pat p.expr? b
  | .mk pat g _, "body", p => .mk pat g p.stmts
  | .lacking part c, a, p => .lacking part (c.setPart a p)
  | c, _, _ => c

def Handler.setPart : Handler → String → Part → Handler
  | .mk _ n b, "type", p => .mk p.expr? n b
  | .mk t n _, "body", p => .mk t n p.stmts
  | .lacking part h, a, p => .lacking part (h.setPart a p)
  | h, _, _ => h

def Expr.setPart : Expr → String → Part → Expr
  | .member v f, "value", p => .member (p.expr?.getD v) f
  | .index v k, "value", p => .index (p.expr?.getD v) k
  | .index v k, "slice", p => .index v (p.expr?.getD k)
  | .starred v, "value", p => .starred (p.expr?.getD v)
  | .call f as ks, "func", p => .call (p.expr?.getD f) as ks
  | .call f _ ks, "args", p => .call f p.exprs ks
  | .call f as _, "keywords", p => .call f as (p.toList.filterMap Piece.keyword?)
  | .boolean op _, "values", p => .boolean op p.exprs
  | .binary l op r, "left", p => .binary (p.expr?.getD l) op r
  | .binary l op r, "right", p => .binary l op (p.expr?.getD r)
  | .unary op v, "operand", p => .unary op (p.expr?.getD v)
  | .compare l rest, "left", p => .compare (p.expr?.getD l) rest
  | .choice t b o, "test", p => .choice (p.expr?.getD t) b o
  | .choice t b o, "body", p => .choice t (p.expr?.getD b) o
  | .choice t b o, "orelse", p => .choice t b (p.expr?.getD o)
  | .function _ b, "args", .piece (.params qs) => .function qs b
  | .function ps b, "body", p => .function ps (p.expr?.getD b)
  | .set _, "elts", p => .set p.exprs
  | .list _, "elts", p => .list p.exprs
  | .tuple _, "elts", p => .tuple p.exprs
  | .await v, "value", p => .await (p.expr?.getD v)
  | .yield _, "value", p => .yield p.expr?
  | .yieldFrom v, "value", p => .yieldFrom (p.expr?.getD v)
  | .assign t v, "value", p => .assign t (p.expr?.getD v)
  | .joined _, "values", p => .joined p.exprs
  | .lacking part e, a, p => .lacking part (e.setPart a p)
  | e, _, _ => e

def Stmt.setPart : Stmt → String → Part → Stmt
  | .function a l n _ b ds r, "args", .piece (.params qs) => .function a l n qs b ds r
  | .function a l n ps _ ds r, "body", p => .function a l n ps p.stmts ds r
  | .function a l n ps b _ r, "decorator_list", p => .function a l n ps b p.exprs r
  | .function a l n ps b ds _, "returns", p => .function a l n ps b ds p.expr?
  | .classDef l n _ ks b ds, "bases", p => .classDef l n p.exprs ks b ds
  | .classDef l n bs _ b ds, "keywords", p =>
    .classDef l n bs (p.toList.filterMap Piece.keyword?) b ds
  | .classDef l n bs ks _ ds, "body", p => .classDef l n bs ks p.stmts ds
  | .classDef l n bs ks b _, "decorator_list", p => .classDef l n bs ks b p.exprs
  | .giveBack _, "value", p => .giveBack p.expr?
  | .delete _, "targets", p => .delete p.exprs
  | .assign _ v, "targets", p => .assign p.exprs v
  | .assign ts v, "value", p => .assign ts (p.expr?.getD v)
  | .update t op v, "target", p => .update (p.expr?.getD t) op v
  | .update t op v, "value", p => .update t op (p.expr?.getD v)
  | .declare t h v s, "target", p => .declare (p.expr?.getD t) h v s
  | .declare t h _ s, "value", p => .declare t h p.expr? s
  | .forEach a t s b o, "target", p => .forEach a (p.expr?.getD t) s b o
  | .forEach a t s b o, "iter", p => .forEach a t (p.expr?.getD s) b o
  | .forEach a t s _ o, "body", p => .forEach a t s p.stmts o
  | .forEach a t s b _, "orelse", p => .forEach a t s b p.stmts
  | .whileTrue t b o, "test", p => .whileTrue (p.expr?.getD t) b o
  | .whileTrue t _ o, "body", p => .whileTrue t p.stmts o
  | .whileTrue t b _, "orelse", p => .whileTrue t b p.stmts
  | .branch t b o, "test", p => .branch (p.expr?.getD t) b o
  | .branch t _ o, "body", p => .branch t p.stmts o
  | .branch t b _, "orelse", p => .branch t b p.stmts
  | .within a is _, "body", p => .within a is p.stmts
  | .select s cs, "subject", p => .select (p.expr?.getD s) cs
  | .select s _, "cases", p => .select s (p.toList.filterMap Piece.case?)
  | .raise _ c, "exc", p => .raise p.expr? c
  | .raise e _, "cause", p => .raise e p.expr?
  | .attempt g _ hs o f, "body", p => .attempt g p.stmts hs o f
  | .attempt g b _ o f, "handlers", p => .attempt g b (p.toList.filterMap Piece.handler?) o f
  | .attempt g b hs _ f, "orelse", p => .attempt g b hs p.stmts f
  | .attempt g b hs o _, "finalbody", p => .attempt g b hs o p.stmts
  | .require t m, "test", p => .require (p.expr?.getD t) m
  | .require t _, "msg", p => .require t p.expr?
  | .expr v, "value", p => .expr (p.expr?.getD v)
  | .lacking part s, a, p => .lacking part (s.setPart a p)
  | s, _, _ => s

def Piece.setPart : Piece → String → Part → Piece
  | .module _, "body", p => .module ⟨p.stmts⟩
  | .stmt s, a, p => .stmt (s.setPart a p)
  | .expr e, a, p => .expr (e.setPart a p)
  | .case c, a, p => .case (c.setPart a p)
  | .handler h, a, p => .handler (h.setPart a p)
  | .params ps, a, p => .params (ps.setPart a p)
  | .keyword (.mk n v), "value", p => .keyword (.mk n (p.expr?.getD v))
  | .lacking part q, a, p => .lacking part (q.setPart a p)
  | q, _, _ => q

def Piece.clear (p : Piece) (part : String) : Piece := p.setPart part (.pieces [])

def Piece.mayLack (p : Piece) (part : String) : Bool :=
  match p.kind, part with
  | "Return", "value" | "Yield", "value" | "AnnAssign", "value" => true
  | "FunctionDef", "returns" | "AsyncFunctionDef", "returns" => true
  | "Raise", "exc" | "Raise", "cause" | "Assert", "msg" => true
  | "match_case", "guard" | "ExceptHandler", "type" => true
  | "arguments", "vararg" | "arguments", "kwarg" => true
  | _, _ => false

def Piece.remove (p : Piece) (part : String) : Piece :=
  if p.mayLack part then p.setPart part .nothing
  else
    match p with
    | .stmt s => .stmt (.lacking part s)
    | .expr e => .expr (.lacking part e)
    | .case c => .case (.lacking part c)
    | .handler h => .handler (.lacking part h)
    | .params ps => .params (.lacking part ps)
    | q => .lacking part q

def Part.modifyAt (f : Piece → Piece) : List PathStep → Part → Part
  | [], .piece p => .piece (f p)
  | .named a :: rest, .piece p =>
    match p.part? a with
    | some q => .piece (p.setPart a (q.modifyAt f rest))
    | none => .piece p
  | .at i :: rest, .pieces ps =>
    match placeIn ps.length i with
    | some n => .pieces (ps.modify n fun p => ((Part.piece p).modifyAt f rest).toList.headD p)
    | none => .pieces ps
  | _, part => part

/-- Changes the part at the end of a path, which is named by the last step. -/
def Piece.editAt (f : Piece → String → Piece) (path : List PathStep) (p : Piece) : Piece :=
  match path.getLast? with
  | some (.named a) =>
    ((Part.piece p).modifyAt (fun q => f q a) path.dropLast).toList.headD p
  | _ => p

end CodeChart.Code
