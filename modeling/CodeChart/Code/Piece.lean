import CodeChart.Code.Printer.Statement
import CodeChart.Text.Blank

/-! Any part of a program: a module, a statement, an expression or one of the smaller forms. A piece
has a text, the first line of which serves as the wording of a condition, and named parts. -/
namespace CodeChart.Code

inductive Piece where
  | module (of : Module)
  | stmt (of : Stmt)
  | expr (of : Expr)
  | pattern (of : Pattern)
  | case (of : Case)
  | handler (of : Handler)
  | params (of : Params)
  | param (of : Param)
  | keyword (of : Keyword)
  | clause (of : Clause)
  | alias (of : Alias)
  | withItem (of : WithItem)
  /-- A piece one of whose required parts has been taken away. -/
  | lacking (part : String) (of : Piece)

instance : Inhabited Piece := ⟨.stmt .pass⟩

def Pattern.kind : Pattern → String
  | .value _ => "MatchValue"
  | .singleton _ => "MatchSingleton"
  | .sequence _ => "MatchSequence"
  | .star _ => "MatchStar"
  | .mapping .. => "MatchMapping"
  | .ofClass .. => "MatchClass"
  | .capture .. => "MatchAs"
  | .alternatives _ => "MatchOr"

namespace Piece

def kind : Piece → String
  | .module _ => "Module"
  | .stmt s => s.kind
  | .expr e => e.kind
  | .pattern p => p.kind
  | .case _ => "match_case"
  | .handler _ => "ExceptHandler"
  | .params _ => "arguments"
  | .param _ => "arg"
  | .keyword _ => "keyword"
  | .clause _ => "comprehension"
  | .alias _ => "alias"
  | .withItem _ => "withitem"
  | .lacking _ of => of.kind

def print : Piece → Except Fault String
  | .module m => m.print
  | .stmt s => s.print 0
  | .expr e => e.print false Level.test
  | .pattern p => p.print Level.test
  | .case c => c.print 0
  | .handler h => h.print false 0
  | .params p => p.print false
  | .param p => p.print false
  | .keyword k => k.print false
  | .clause c => c.print false
  | .alias a => pure a.print
  | .withItem w => w.print
  | .lacking part of => throw (.noAttribute of.kind part)

/-- The text of a piece without blanks around it. -/
def text (p : Piece) : Except Fault String := Text.strip <$> p.print

/-- The wording of a condition from a text: its first line without the colons at its end. -/
def headerOf (text : String) : String :=
  match Text.firstLine? text with
  | some line => Text.dropTrailing (· == ':') line
  | none => "True"

def header (p : Piece) : Except Fault String := headerOf <$> p.text

end Piece

inductive Part where
  | piece (of : Piece)
  | pieces (of : List Piece)
  /-- A name, or nothing where the name is optional. -/
  | word (of : Option String)
  | constant (of : Constant)
  | nothing

def Part.ofOption (wrap : α → Piece) : Option α → Part
  | some a => .piece (wrap a)
  | none => .nothing

def Expr.part? : Expr → String → Option Part
  | .constant c, "value" => some (.constant c)
  | .name id, "id" => some (.word (some id))
  | .member v _, "value" => some (.piece (.expr v))
  | .member _ f, "attr" => some (.word (some f))
  | .index v _, "value" => some (.piece (.expr v))
  | .index _ k, "slice" => some (.piece (.expr k))
  | .slice l _ _, "lower" => some (.ofOption .expr l)
  | .slice _ u _, "upper" => some (.ofOption .expr u)
  | .slice _ _ s, "step" => some (.ofOption .expr s)
  | .starred v, "value" => some (.piece (.expr v))
  | .call f _ _, "func" => some (.piece (.expr f))
  | .call _ as _, "args" => some (.pieces (as.map .expr))
  | .call _ _ ks, "keywords" => some (.pieces (ks.map .keyword))
  | .boolean _ vs, "values" => some (.pieces (vs.map .expr))
  | .binary l _ _, "left" => some (.piece (.expr l))
  | .binary _ _ r, "right" => some (.piece (.expr r))
  | .unary _ o, "operand" => some (.piece (.expr o))
  | .compare l _, "left" => some (.piece (.expr l))
  | .compare _ rs, "comparators" =>
    some (.pieces (rs.map fun
      | .mk _ r => .expr r))
  | .function ps _, "args" => some (.piece (.params ps))
  | .function _ b, "body" => some (.piece (.expr b))
  | .choice t _ _, "test" => some (.piece (.expr t))
  | .choice _ b _, "body" => some (.piece (.expr b))
  | .choice _ _ o, "orelse" => some (.piece (.expr o))
  | .dict items, "values" =>
    some (.pieces (items.map fun
      | .mk _ v => .expr v))
  | .set es, "elts" => some (.pieces (es.map .expr))
  | .list es, "elts" => some (.pieces (es.map .expr))
  | .tuple es, "elts" => some (.pieces (es.map .expr))
  | .listOf e _, "elt" => some (.piece (.expr e))
  | .listOf _ cs, "generators" => some (.pieces (cs.map .clause))
  | .setOf e _, "elt" => some (.piece (.expr e))
  | .setOf _ cs, "generators" => some (.pieces (cs.map .clause))
  | .generator e _, "elt" => some (.piece (.expr e))
  | .generator _ cs, "generators" => some (.pieces (cs.map .clause))
  | .dictOf k _ _, "key" => some (.piece (.expr k))
  | .dictOf _ v _, "value" => some (.piece (.expr v))
  | .dictOf _ _ cs, "generators" => some (.pieces (cs.map .clause))
  | .await v, "value" => some (.piece (.expr v))
  | .yield v, "value" => some (.ofOption .expr v)
  | .yieldFrom v, "value" => some (.piece (.expr v))
  | .assign t _, "target" => some (.piece (.expr t))
  | .assign _ v, "value" => some (.piece (.expr v))
  | .joined ps, "values" => some (.pieces (ps.map .expr))
  | .field v _ _, "value" => some (.piece (.expr v))
  | .field _ _ f, "format_spec" => some (.ofOption .expr f)
  | .lacking part of, a => if a = part then none else of.part? a
  | _, _ => none

def Stmt.part? : Stmt → String → Option Part
  | .function _ _ n _ _ _ _, "name" => some (.word (some n))
  | .function _ _ _ ps _ _ _, "args" => some (.piece (.params ps))
  | .function _ _ _ _ b _ _, "body" => some (.pieces (b.map .stmt))
  | .function _ _ _ _ _ ds _, "decorator_list" => some (.pieces (ds.map .expr))
  | .function _ _ _ _ _ _ r, "returns" => some (.ofOption .expr r)
  | .classDef _ n _ _ _ _, "name" => some (.word (some n))
  | .classDef _ _ bs _ _ _, "bases" => some (.pieces (bs.map .expr))
  | .classDef _ _ _ ks _ _, "keywords" => some (.pieces (ks.map .keyword))
  | .classDef _ _ _ _ b _, "body" => some (.pieces (b.map .stmt))
  | .classDef _ _ _ _ _ ds, "decorator_list" => some (.pieces (ds.map .expr))
  | .giveBack v, "value" => some (.ofOption .expr v)
  | .delete ts, "targets" => some (.pieces (ts.map .expr))
  | .assign ts _, "targets" => some (.pieces (ts.map .expr))
  | .assign _ v, "value" => some (.piece (.expr v))
  | .update t _ _, "target" => some (.piece (.expr t))
  | .update _ _ v, "value" => some (.piece (.expr v))
  | .declare t _ _ _, "target" => some (.piece (.expr t))
  | .declare _ h _ _, "annotation" => some (.piece (.expr h))
  | .declare _ _ v _, "value" => some (.ofOption .expr v)
  | .forEach _ t _ _ _, "target" => some (.piece (.expr t))
  | .forEach _ _ s _ _, "iter" => some (.piece (.expr s))
  | .forEach _ _ _ b _, "body" => some (.pieces (b.map .stmt))
  | .forEach _ _ _ _ o, "orelse" => some (.pieces (o.map .stmt))
  | .whileTrue t _ _, "test" => some (.piece (.expr t))
  | .whileTrue _ b _, "body" => some (.pieces (b.map .stmt))
  | .whileTrue _ _ o, "orelse" => some (.pieces (o.map .stmt))
  | .branch t _ _, "test" => some (.piece (.expr t))
  | .branch _ b _, "body" => some (.pieces (b.map .stmt))
  | .branch _ _ o, "orelse" => some (.pieces (o.map .stmt))
  | .within _ is _, "items" => some (.pieces (is.map .withItem))
  | .within _ _ b, "body" => some (.pieces (b.map .stmt))
  | .select s _, "subject" => some (.piece (.expr s))
  | .select _ cs, "cases" => some (.pieces (cs.map .case))
  | .raise e _, "exc" => some (.ofOption .expr e)
  | .raise _ c, "cause" => some (.ofOption .expr c)
  | .attempt _ b _ _ _, "body" => some (.pieces (b.map .stmt))
  | .attempt _ _ hs _ _, "handlers" => some (.pieces (hs.map .handler))
  | .attempt _ _ _ o _, "orelse" => some (.pieces (o.map .stmt))
  | .attempt _ _ _ _ f, "finalbody" => some (.pieces (f.map .stmt))
  | .require t _, "test" => some (.piece (.expr t))
  | .require _ m, "msg" => some (.ofOption .expr m)
  | .load ns, "names" => some (.pieces (ns.map .alias))
  | .loadFrom m _ _, "module" => some (.word m)
  | .loadFrom _ ns _, "names" => some (.pieces (ns.map .alias))
  | .expr v, "value" => some (.piece (.expr v))
  | .lacking part of, a => if a = part then none else of.part? a
  | _, _ => none

def Pattern.part? : Pattern → String → Option Part
  | .value e, "value" => some (.piece (.expr e))
  | .singleton c, "value" => some (.constant c)
  | .sequence ps, "patterns" => some (.pieces (ps.map .pattern))
  | .star n, "name" => some (.word n)
  | .mapping ks _ _, "keys" => some (.pieces (ks.map .expr))
  | .mapping _ ps _, "patterns" => some (.pieces (ps.map .pattern))
  | .mapping _ _ r, "rest" => some (.word r)
  | .ofClass c _ _ _, "cls" => some (.piece (.expr c))
  | .ofClass _ ps _ _, "patterns" => some (.pieces (ps.map .pattern))
  | .ofClass _ _ _ ns, "kwd_patterns" => some (.pieces (ns.map .pattern))
  | .capture p _, "pattern" => some (.ofOption .pattern p)
  | .capture _ n, "name" => some (.word n)
  | .alternatives ps, "patterns" => some (.pieces (ps.map .pattern))
  | _, _ => none

def Case.part? : Case → String → Option Part
  | .mk p _ _, "pattern" => some (.piece (.pattern p))
  | .mk _ g _, "guard" => some (.ofOption .expr g)
  | .mk _ _ b, "body" => some (.pieces (b.map .stmt))
  | .lacking part of, a => if a = part then none else of.part? a
  | _, _ => none

def Handler.part? : Handler → String → Option Part
  | .mk t _ _, "type" => some (.ofOption .expr t)
  | .mk _ n _, "name" => some (.word n)
  | .mk _ _ b, "body" => some (.pieces (b.map .stmt))
  | .lacking part of, a => if a = part then none else of.part? a
  | _, _ => none

def Params.part? : Params → String → Option Part
  | .mk p _ _ _ _, "posonlyargs" => some (.pieces (p.map .param))
  | .mk _ o _ _ _, "args" => some (.pieces (o.map .param))
  | .mk _ _ r _ _, "vararg" => some (.ofOption .param r)
  | .mk _ _ _ k _, "kwonlyargs" => some (.pieces (k.map .param))
  | .mk _ _ _ _ r, "kwarg" => some (.ofOption .param r)
  | .lacking part of, a => if a = part then none else of.part? a
  | _, _ => none

def Piece.part? : Piece → String → Option Part
  | .module m, "body" => some (.pieces (m.body.map .stmt))
  | .stmt s, a => s.part? a
  | .expr e, a => e.part? a
  | .pattern p, a => p.part? a
  | .case c, a => c.part? a
  | .handler h, a => h.part? a
  | .params ps, a => ps.part? a
  | .param p, "arg" => some (.word (some p.name))
  | .param p, "annotation" => some (.ofOption .expr p.hint)
  | .keyword (.mk n _), "arg" => some (.word n)
  | .keyword (.mk _ v), "value" => some (.piece (.expr v))
  | .clause (.mk t _ _ _), "target" => some (.piece (.expr t))
  | .clause (.mk _ s _ _), "iter" => some (.piece (.expr s))
  | .clause (.mk _ _ cs _), "ifs" => some (.pieces (cs.map .expr))
  | .alias a, "name" => some (.word (some a.name))
  | .alias a, "asname" => some (.word a.asName)
  | .withItem w, "context_expr" => some (.piece (.expr w.context))
  | .withItem w, "optional_vars" => some (.ofOption .expr w.target)
  | .lacking part of, a => if a = part then none else of.part? a
  | _, _ => none

/-- A step on the way to a part: a named part, or a place in a list. Places below zero count from
the end. -/
inductive PathStep where
  | named (part : String)
  | at (index : Int)
  deriving DecidableEq, Repr

/-- The place in a list of the given length that an index means. -/
def placeIn (length : Nat) (index : Int) : Option Nat :=
  let place := if index < 0 then index + length else index
  if 0 ≤ place ∧ place < length then some place.toNat else none

/-- The kind of what stands under a name, as diagnostics name it. -/
def Constant.kind : Constant → String
  | .none => "NoneType"
  | .bool _ => "bool"
  | .ellipsis => "ellipsis"
  | .int _ => "int"
  | .float _ => "float"
  | .imaginary _ => "complex"
  | .text .. => "str"
  | .bytes _ => "bytes"

def Part.kind : Part → String
  | .piece p => p.kind
  | .pieces _ => "list"
  | .word (some _) => "str"
  | .word none => "NoneType"
  | .constant c => c.kind
  | .nothing => "NoneType"

def Part.follow : Part → List PathStep → Except Fault Part
  | p, [] => pure p
  | .piece p, .named a :: rest =>
    match p.part? a with
    | some part => part.follow rest
    | none => throw (.noAttribute p.kind a)
  | .pieces ps, .at i :: rest =>
    match (placeIn ps.length i).bind (ps[·]?) with
    | some p => (Part.piece p).follow rest
    | none => throw .indexOutOfRange
  | p, .named a :: _ => throw (.noAttribute p.kind a)
  | p, .at _ :: _ => throw (.notIndexable p.kind)

end CodeChart.Code
