import CodeChart.Code.Piece
import Mathlib.Tactic.Common

/-! Code as text. Writing fails where a field of a formatted string needs a backslash and where a
number has too many digits; whole code is written without any other fault. An expression is known
here by its text only: it is writable if its printer has no other fault. -/
namespace CodeChart

/-- The faults of code that has no text. -/
def Fault.isUnwritable : Fault → Bool
  | .backslashInField => true
  | .tooManyDigits _ => true
  | _ => false

namespace Code

variable {α β : Type}

def Writes (x : Except Fault α) : Prop := ∀ fault, x = .error fault → fault.isUnwritable = true

namespace Writes

theorem pure (a : α) : Writes (Pure.pure a) := by
  rintro fault ⟨⟩

theorem bind {x : Except Fault α} {k : α → Except Fault β} (h : Writes x) (hk : ∀ a, Writes (k a)) :
    Writes (x >>= k) := by
  cases x with
  | error fault' =>
    rintro fault ⟨⟩
    exact h _ rfl
  | ok a => exact hk a

theorem of_bind {x : Except Fault α} {k : α → Except Fault β} (h : Writes (x >>= k)) :
    Writes x := by
  rintro fault rfl
  exact h fault rfl

theorem of_pair {γ δ : Type} {x : Except Fault α} {y : Except Fault β} {f : α → β → γ}
    {g : α → β → δ} (h : Writes (x >>= fun a => y >>= fun b => Pure.pure (f a b))) :
    Writes (x >>= fun a => y >>= fun b => Pure.pure (g a b)) := by
  cases x with
  | error fault' =>
    rintro fault ⟨⟩
    exact h _ rfl
  | ok a =>
    have hy : Writes (y >>= fun b => Pure.pure (f a b)) := h
    exact hy.of_bind.bind fun b => pure (g a b)

theorem throw {fault : Fault} (h : fault.isUnwritable = true) :
    Writes (throw fault : Except Fault α) := by
  rintro _ ⟨⟩
  exact h

theorem mapM {f : α → Except Fault β} {as : List α} (h : ∀ a ∈ as, Writes (f a)) :
    Writes (as.mapM f) := by
  induction as with
  | nil => exact pure []
  | cons a as ih =>
    rw [List.mapM_cons]
    refine bind (h a List.mem_cons_self) fun b => bind (ih fun a ha => ?_) fun bs => pure _
    exact h a (List.mem_cons_of_mem _ ha)

end Writes

def Expr.Writable (e : Expr) : Prop := ∀ sparing need, Writes (e.print sparing need)

/-- An expression that may stand in a formatted string. -/
def Expr.PartWritable (e : Expr) : Prop := Writes e.printPart

def Keyword.Writable : Keyword → Prop
  | .mk _ value => value.Writable

def Comparison.Writable : Comparison → Prop
  | .mk _ right => right.Writable

def DictItem.Writable : DictItem → Prop
  | .mk key value => (∀ e ∈ key, e.Writable) ∧ value.Writable

def Clause.Writable : Clause → Prop
  | .mk target source conditions _ =>
    target.Writable ∧ source.Writable ∧ ∀ e ∈ conditions, e.Writable

def Param.Writable : Param → Prop
  | .mk _ hint default => (∀ e ∈ hint, e.Writable) ∧ ∀ e ∈ default, e.Writable

def Params.Writable : Params → Prop
  | .mk positional ordinary rest keywordOnly keywordRest =>
    (∀ p ∈ positional, p.Writable) ∧ (∀ p ∈ ordinary, p.Writable) ∧ (∀ p ∈ rest, p.Writable) ∧
      (∀ p ∈ keywordOnly, p.Writable) ∧ ∀ p ∈ keywordRest, p.Writable
  | .lacking _ _ => False

section

variable {sparing : Bool} {need : Nat}

theorem writes_option {e? : Option Expr} (h : ∀ e ∈ e?, e.Writable) :
    Writes (printOption sparing need e?) := by
  cases e? with
  | none => exact .pure none
  | some e => exact (h e rfl sparing need).bind fun t => .pure (some t)

theorem writes_list {es : List Expr} (h : ∀ e ∈ es, e.Writable) :
    Writes (printList sparing need es) := by
  induction es with
  | nil => exact .pure []
  | cons e es ih =>
    obtain ⟨he, hes⟩ := List.forall_mem_cons.1 h
    exact (he sparing need).bind fun _ => (ih hes).bind fun _ => .pure _

theorem writes_rising {es : List Expr} (h : ∀ e ∈ es, e.Writable) :
    Writes (printRising sparing need es) := by
  induction es generalizing need with
  | nil => exact .pure []
  | cons e es ih =>
    obtain ⟨he, hes⟩ := List.forall_mem_cons.1 h
    exact (he sparing need).bind fun _ => (ih hes).bind fun _ => .pure _

theorem writes_keywords {ks : List Keyword} (h : ∀ k ∈ ks, k.Writable) :
    Writes (printKeywords sparing ks) := by
  induction ks with
  | nil => exact .pure []
  | cons k ks ih =>
    obtain ⟨hk, hks⟩ := List.forall_mem_cons.1 h
    obtain ⟨name, value⟩ := k
    exact ((hk sparing _).bind fun _ => .pure _).bind fun _ => (ih hks).bind fun _ => .pure _

theorem writes_comparisons {cs : List Comparison} (h : ∀ c ∈ cs, c.Writable) :
    Writes (printComparisons sparing cs) := by
  induction cs with
  | nil => exact .pure []
  | cons c cs ih =>
    obtain ⟨hc, hcs⟩ := List.forall_mem_cons.1 h
    obtain ⟨op, right⟩ := c
    exact (hc sparing _).bind fun _ => (ih hcs).bind fun _ => .pure _

theorem writes_items {is : List DictItem} (h : ∀ i ∈ is, i.Writable) :
    Writes (printItems sparing is) := by
  induction is with
  | nil => exact .pure []
  | cons i is ih =>
    obtain ⟨hi, his⟩ := List.forall_mem_cons.1 h
    obtain ⟨key, value⟩ := i
    exact (writes_option hi.1).bind fun _ => (hi.2 sparing _).bind fun _ =>
      (ih his).bind fun _ => .pure _

theorem writes_clauses {cs : List Clause} (h : ∀ c ∈ cs, c.Writable) :
    Writes (printClauses sparing cs) := by
  induction cs with
  | nil => exact .pure []
  | cons c cs ih =>
    obtain ⟨hc, hcs⟩ := List.forall_mem_cons.1 h
    obtain ⟨target, source, conditions, isAsync⟩ := c
    obtain ⟨htarget, hsource, hconditions⟩ := hc
    have hclause : Writes (Clause.print sparing (.mk target source conditions isAsync)) :=
      (htarget sparing _).bind fun _ => (hsource sparing _).bind fun _ =>
        (writes_list hconditions).bind fun _ => .pure _
    exact hclause.bind fun _ => (ih hcs).bind fun _ => .pure _

theorem writes_param {p : Param} (h : p.Writable) : Writes (p.print sparing) := by
  obtain ⟨name, hint, default⟩ := p
  exact (writes_option h.1).bind fun _ => (writes_option h.2).bind fun _ => .pure _

theorem writes_paramList {ps : List Param} (h : ∀ p ∈ ps, p.Writable) :
    Writes (printParamList sparing ps) := by
  induction ps with
  | nil => exact .pure []
  | cons p ps ih =>
    obtain ⟨hp, hps⟩ := List.forall_mem_cons.1 h
    exact (writes_param hp).bind fun _ => (ih hps).bind fun _ => .pure _

theorem writes_paramOption {p? : Option Param} (h : ∀ p ∈ p?, p.Writable) :
    Writes (printParamOption sparing p?) := by
  cases p? with
  | none => exact .pure none
  | some p => exact (writes_param (h p rfl)).bind fun _ => .pure _

theorem writes_params {ps : Params} (h : ps.Writable) : Writes (ps.print sparing) := by
  cases ps with
  | mk positional ordinary rest keywordOnly keywordRest =>
    obtain ⟨hpositional, hordinary, hrest, hkeyword, hkeywordRest⟩ := h
    exact (writes_paramList hpositional).bind fun _ => (writes_paramList hordinary).bind fun _ =>
      (writes_paramOption hrest).bind fun _ => (writes_paramList hkeyword).bind fun _ =>
        (writes_paramOption hkeywordRest).bind fun _ => .pure _
  | lacking part of => exact h.elim

end

theorem writes_constant (sparing : Bool) (c : Constant) : Writes (c.print sparing) := by
  cases c with
  | int value =>
    change Writes (printWhole value)
    unfold printWhole
    dsimp only
    split
    · exact .throw rfl
    · exact .pure _
  | _ => exact .pure _

namespace Expr.Writable

variable {e value left right test body orelse target key callee : Expr} {es : List Expr}

theorem constant (c : Constant) : (Expr.constant c).Writable :=
  fun sparing _ => writes_constant sparing c

theorem name (id : String) : (Expr.name id).Writable := fun _ _ => .pure id

theorem member (h : value.Writable) (field : String) : (Expr.member value field).Writable :=
  fun sparing _ => (h sparing _).bind fun _ => .pure _

theorem tuple (h : ∀ e ∈ es, e.Writable) : (Expr.tuple es).Writable :=
  fun _ _ => (writes_list h).bind fun _ => .pure _

theorem index (h : value.Writable) (hk : key.Writable) : (Expr.index value key).Writable := by
  intro sparing need
  rw [Expr.print]
  refine (h sparing _).bind fun _ => ?_
  split
  · rename_i item items
    have hitems : Writes (printList sparing Level.test (item :: items)) := (hk sparing need).of_bind
    exact hitems.of_pair
  · exact (hk sparing _).bind fun _ => .pure _

theorem slice {lower upper step : Option Expr} (hl : ∀ e ∈ lower, e.Writable)
    (hu : ∀ e ∈ upper, e.Writable) (hs : ∀ e ∈ step, e.Writable) :
    (Expr.slice lower upper step).Writable :=
  fun _ _ => (writes_option hl).bind fun _ => (writes_option hu).bind fun _ =>
    (writes_option hs).bind fun _ => .pure _

theorem starred (h : value.Writable) : (Expr.starred value).Writable :=
  fun sparing _ => (h sparing _).bind fun _ => .pure _

theorem call {ks : List Keyword} (h : callee.Writable) (hargs : ∀ e ∈ es, e.Writable)
    (hkeywords : ∀ k ∈ ks, k.Writable) : (Expr.call callee es ks).Writable :=
  fun sparing _ => (h sparing _).bind fun _ => (writes_list hargs).bind fun _ =>
    (writes_keywords hkeywords).bind fun _ => .pure _

theorem boolean (op : BoolOp) (h : ∀ e ∈ es, e.Writable) : (Expr.boolean op es).Writable :=
  fun _ _ => (writes_rising h).bind fun _ => .pure _

theorem binary (hl : left.Writable) (op : BinOp) (hr : right.Writable) :
    (Expr.binary left op right).Writable :=
  fun sparing _ => (hl sparing _).bind fun _ => (hr sparing _).bind fun _ => .pure _

theorem unary (op : UnaryOp) (h : value.Writable) : (Expr.unary op value).Writable :=
  fun sparing _ => (h sparing _).bind fun _ => .pure _

theorem compare {cs : List Comparison} (hl : left.Writable) (hc : ∀ c ∈ cs, c.Writable) :
    (Expr.compare left cs).Writable :=
  fun sparing _ => (hl sparing _).bind fun _ => (writes_comparisons hc).bind fun _ => .pure _

theorem function {ps : Params} (hp : ps.Writable) (hb : body.Writable) :
    (Expr.function ps body).Writable :=
  fun sparing _ => (writes_params hp).bind fun _ => (hb sparing _).bind fun _ => .pure _

theorem choice (ht : test.Writable) (hb : body.Writable) (ho : orelse.Writable) :
    (Expr.choice test body orelse).Writable :=
  fun sparing _ => (hb sparing _).bind fun _ => (ht sparing _).bind fun _ =>
    (ho sparing _).bind fun _ => .pure _

theorem dict {is : List DictItem} (h : ∀ i ∈ is, i.Writable) : (Expr.dict is).Writable :=
  fun _ _ => (writes_items h).bind fun _ => .pure _

theorem set (h : ∀ e ∈ es, e.Writable) : (Expr.set es).Writable :=
  fun _ _ => (writes_list h).bind fun _ => .pure _

theorem list (h : ∀ e ∈ es, e.Writable) : (Expr.list es).Writable :=
  fun _ _ => (writes_list h).bind fun _ => .pure _

section

variable {cs : List Clause} (hc : ∀ c ∈ cs, c.Writable)
include hc

theorem listOf (h : e.Writable) : (Expr.listOf e cs).Writable :=
  fun sparing _ => (h sparing _).bind fun _ => (writes_clauses hc).bind fun _ => .pure _

theorem setOf (h : e.Writable) : (Expr.setOf e cs).Writable :=
  fun sparing _ => (h sparing _).bind fun _ => (writes_clauses hc).bind fun _ => .pure _

theorem generator (h : e.Writable) : (Expr.generator e cs).Writable :=
  fun sparing _ => (h sparing _).bind fun _ => (writes_clauses hc).bind fun _ => .pure _

theorem dictOf (hk : key.Writable) (h : e.Writable) : (Expr.dictOf key e cs).Writable :=
  fun sparing _ => (hk sparing _).bind fun _ => (h sparing _).bind fun _ =>
    (writes_clauses hc).bind fun _ => .pure _

end

theorem await (h : value.Writable) : (Expr.await value).Writable :=
  fun sparing _ => (h sparing _).bind fun _ => .pure _

theorem yield {value : Option Expr} (h : ∀ e ∈ value, e.Writable) : (Expr.yield value).Writable :=
  fun _ _ => (writes_option h).bind fun _ => .pure _

theorem yieldFrom (h : value.Writable) : (Expr.yieldFrom value).Writable :=
  fun sparing _ => (h sparing _).bind fun _ => .pure _

theorem assign (ht : target.Writable) (hv : value.Writable) : (Expr.assign target value).Writable :=
  fun sparing _ => (ht sparing _).bind fun _ => (hv sparing _).bind fun _ => .pure _

end Expr.Writable

theorem writes_parts {es : List Expr} (h : ∀ e ∈ es, e.PartWritable) : Writes (printParts es) := by
  induction es with
  | nil => exact .pure []
  | cons e es ih =>
    obtain ⟨he, hes⟩ := List.forall_mem_cons.1 h
    exact Writes.bind he fun _ => (ih hes).bind fun _ => .pure _

theorem writes_format {format : Option Expr} (h : ∀ e ∈ format, e.PartWritable) :
    Writes (printFormat format) := by
  cases format with
  | none => exact .pure none
  | some e => exact Writes.bind (h e rfl) fun _ => .pure _

theorem writes_fieldValue {x : Except Fault String} (h : Writes x) : Writes (fieldValueText x) := by
  refine h.bind fun value => ?_
  split
  · exact .throw rfl
  · exact .pure value

theorem Expr.Writable.joined {es : List Expr} (h : ∀ e ∈ es, e.PartWritable) :
    (Expr.joined es).Writable :=
  fun _ _ => (writes_parts h).bind fun _ => .pure _

theorem Expr.Writable.field {value : Expr} {conversion : Option Char} {format : Option Expr}
    (hv : value.Writable) (hf : ∀ e ∈ format, e.PartWritable) :
    (Expr.field value conversion format).Writable :=
  fun _ _ => (writes_fieldValue (hv true _)).bind fun _ => (writes_format hf).bind fun _ => .pure _

namespace Expr.PartWritable

theorem text (marked : Bool) (points : Text.CodePoints) :
    (Expr.constant (.text marked points)).PartWritable := Writes.pure _

theorem field {value : Expr} {conversion : Option Char} {format : Option Expr} (hv : value.Writable)
    (hf : ∀ e ∈ format, e.PartWritable) : (Expr.field value conversion format).PartWritable :=
  (writes_fieldValue (hv true _)).bind fun _ => (writes_format hf).bind fun _ => .pure _

theorem joined {es : List Expr} (h : ∀ e ∈ es, e.PartWritable) : (Expr.joined es).PartWritable :=
  (writes_parts h).bind fun _ => .pure _

end Expr.PartWritable

def Pattern.Writable (p : Pattern) : Prop := ∀ need, Writes (p.print need)

theorem writes_patterns {need : Nat} {ps : List Pattern} (h : ∀ p ∈ ps, p.Writable) :
    Writes (printPatterns need ps) := by
  induction ps with
  | nil => exact .pure []
  | cons p ps ih =>
    obtain ⟨hp, hps⟩ := List.forall_mem_cons.1 h
    exact (hp need).bind fun _ => (ih hps).bind fun _ => .pure _

namespace Pattern.Writable

variable {ps qs : List Pattern}

theorem value {e : Expr} (h : e.Writable) : (Pattern.value e).Writable := fun _ => h false _

theorem singleton (c : Constant) : (Pattern.singleton c).Writable :=
  fun _ => writes_constant false c

theorem sequence (h : ∀ p ∈ ps, p.Writable) : (Pattern.sequence ps).Writable :=
  fun _ => (writes_patterns h).bind fun _ => .pure _

theorem star (name : Option String) : (Pattern.star name).Writable := fun _ => .pure _

theorem mapping {keys : List Expr} (hk : ∀ e ∈ keys, e.Writable) (h : ∀ p ∈ ps, p.Writable)
    (rest : Option String) : (Pattern.mapping keys ps rest).Writable :=
  fun _ => (writes_list hk).bind fun _ => (writes_patterns h).bind fun _ => .pure _

theorem ofClass {callee : Expr} (hc : callee.Writable) (hp : ∀ p ∈ ps, p.Writable)
    (names : List String) (hn : ∀ p ∈ qs, p.Writable) :
    (Pattern.ofClass callee ps names qs).Writable :=
  fun _ => (hc false _).bind fun _ => (writes_patterns hp).bind fun _ =>
    (writes_patterns hn).bind fun _ => .pure _

theorem bare (name : Option String) : (Pattern.capture none name).Writable := fun _ => .pure _

theorem capture {p : Pattern} (h : p.Writable) (name : String) :
    (Pattern.capture (some p) (some name)).Writable :=
  fun _ => (h _).bind fun _ => .pure _

theorem alternatives (h : ∀ p ∈ ps, p.Writable) : (Pattern.alternatives ps).Writable :=
  fun _ => (writes_patterns h).bind fun _ => .pure _

end Pattern.Writable

def WithItem.Writable (w : WithItem) : Prop := w.context.Writable ∧ ∀ e ∈ w.target, e.Writable

mutual

/-- Nothing has been taken away from a statement, and all of its expressions are writable. -/
def Stmt.Whole : Stmt → Prop
  | .function _ _ _ params body decorators result =>
    params.Writable ∧ WholeAll body ∧ (∀ e ∈ decorators, e.Writable) ∧ ∀ e ∈ result, e.Writable
  | .classDef _ _ bases keywords body decorators =>
    (∀ e ∈ bases, e.Writable) ∧ (∀ k ∈ keywords, k.Writable) ∧ WholeAll body ∧
      ∀ e ∈ decorators, e.Writable
  | .giveBack value => ∀ e ∈ value, e.Writable
  | .delete targets => ∀ e ∈ targets, e.Writable
  | .assign targets value => (∀ e ∈ targets, e.Writable) ∧ value.Writable
  | .update target _ value => target.Writable ∧ value.Writable
  | .declare target hint value _ => target.Writable ∧ hint.Writable ∧ ∀ e ∈ value, e.Writable
  | .forEach _ target source body orelse =>
    target.Writable ∧ source.Writable ∧ WholeAll body ∧ WholeAll orelse
  | .whileTrue test body orelse => test.Writable ∧ WholeAll body ∧ WholeAll orelse
  | .branch test body orelse => test.Writable ∧ WholeAll body ∧ WholeAll orelse
  | .within _ items body => (∀ w ∈ items, w.Writable) ∧ WholeAll body
  | .select subject cases => subject.Writable ∧ WholeCases cases
  | .raise error cause => (∀ e ∈ error, e.Writable) ∧ ∀ e ∈ cause, e.Writable
  | .attempt _ body handlers orelse final =>
    WholeAll body ∧ WholeHandlers handlers ∧ WholeAll orelse ∧ WholeAll final
  | .require test message => test.Writable ∧ ∀ e ∈ message, e.Writable
  | .expr value => value.Writable
  | .lacking _ _ => False
  | _ => True

def WholeAll : List Stmt → Prop
  | [] => True
  | s :: rest => s.Whole ∧ WholeAll rest

def Handler.Whole : Handler → Prop
  | .mk type _ body => (∀ e ∈ type, e.Writable) ∧ WholeAll body
  | .lacking _ _ => False

def WholeHandlers : List Handler → Prop
  | [] => True
  | h :: rest => h.Whole ∧ WholeHandlers rest

def Case.Whole : Case → Prop
  | .mk pattern guard body => pattern.Writable ∧ (∀ e ∈ guard, e.Writable) ∧ WholeAll body
  | .lacking _ _ => False

def WholeCases : List Case → Prop
  | [] => True
  | c :: rest => c.Whole ∧ WholeCases rest

end

theorem wholeAll_iff {ss : List Stmt} : WholeAll ss ↔ ∀ s ∈ ss, s.Whole := by
  induction ss with
  | nil => simp [WholeAll]
  | cons s rest ih => simp [WholeAll, ih]

theorem wholeCases_iff {cs : List Case} : WholeCases cs ↔ ∀ c ∈ cs, c.Whole := by
  induction cs with
  | nil => simp [WholeCases]
  | cons c rest ih => simp [WholeCases, ih]

theorem wholeHandlers_iff {hs : List Handler} : WholeHandlers hs ↔ ∀ h ∈ hs, h.Whole := by
  induction hs with
  | nil => simp [WholeHandlers]
  | cons h rest ih => simp [WholeHandlers, ih]

theorem writes_decorators {indent : Nat} {es : List Expr} (h : ∀ e ∈ es, e.Writable) :
    Writes (printDecorators indent es) := (writes_list h).bind fun _ => .pure _

theorem writes_withItems {ws : List WithItem} (h : ∀ w ∈ ws, w.Writable) :
    Writes (ws.mapM WithItem.print) :=
  .mapM fun w hw => ((h w hw).1 false _).bind fun _ => (writes_option (h w hw).2).bind fun _ =>
    .pure _

mutual

theorem writes_stmt (indent : Nat) (s : Stmt) (h : s.Whole) : Writes (s.print indent) := by
  cases s with
  | function isAsync line name params body decorators result =>
    obtain ⟨hparams, hbody, hdecorators, hresult⟩ := h
    exact (writes_decorators hdecorators).bind fun _ => (writes_params hparams).bind fun _ =>
      (writes_option hresult).bind fun _ => (writes_body (indent + 1) body hbody).bind fun _ =>
        .pure _
  | classDef line name bases keywords body decorators =>
    obtain ⟨hbases, hkeywords, hbody, hdecorators⟩ := h
    exact (writes_decorators hdecorators).bind fun _ => (writes_list hbases).bind fun _ =>
      (writes_keywords hkeywords).bind fun _ => (writes_body (indent + 1) body hbody).bind fun _ =>
        .pure _
  | giveBack value => exact (writes_option h).bind fun _ => .pure _
  | delete targets => exact (writes_list h).bind fun _ => .pure _
  | assign targets value =>
    exact (writes_list h.1).bind fun _ => (h.2 false _).bind fun _ => .pure _
  | update target op value => exact (h.1 false _).bind fun _ => (h.2 false _).bind fun _ => .pure _
  | declare target hint value simple =>
    exact (h.1 false _).bind fun _ => (h.2.1 false _).bind fun _ =>
      (writes_option h.2.2).bind fun _ => .pure _
  | forEach isAsync target source body orelse =>
    obtain ⟨htarget, hsource, hbody, horelse⟩ := h
    exact (htarget false _).bind fun _ => (hsource false _).bind fun _ =>
      (writes_block (indent + 1) body hbody).bind fun _ =>
        (writes_else indent orelse horelse).bind fun _ => .pure _
  | whileTrue test body orelse =>
    obtain ⟨htest, hbody, horelse⟩ := h
    exact (htest false _).bind fun _ => (writes_block (indent + 1) body hbody).bind fun _ =>
      (writes_else indent orelse horelse).bind fun _ => .pure _
  | branch test body orelse =>
    obtain ⟨htest, hbody, horelse⟩ := h
    exact (htest false _).bind fun _ => (writes_block (indent + 1) body hbody).bind fun _ =>
      (writes_otherwise indent orelse horelse).bind fun _ => .pure _
  | within isAsync items body =>
    exact (writes_withItems h.1).bind fun _ =>
      (writes_block (indent + 1) body h.2).bind fun _ => .pure _
  | select subject cases =>
    exact (h.1 false _).bind fun _ => (writes_cases (indent + 1) cases h.2).bind fun _ => .pure _
  | raise error cause =>
    exact (writes_option h.1).bind fun _ => (writes_option h.2).bind fun _ => .pure _
  | attempt grouped body handlers orelse final =>
    obtain ⟨hbody, hhandlers, horelse, hfinal⟩ := h
    exact (writes_block (indent + 1) body hbody).bind fun _ =>
      (writes_handlers grouped indent handlers hhandlers).bind fun _ =>
        (writes_else indent orelse horelse).bind fun _ =>
          (writes_block (indent + 1) final hfinal).bind fun _ => .pure _
  | require test message =>
    exact (h.1 false _).bind fun _ => (writes_option h.2).bind fun _ => .pure _
  | expr value => exact (h false _).bind fun _ => .pure _
  | lacking part s => exact h.elim
  | _ => exact .pure _

theorem writes_block (indent : Nat) (ss : List Stmt) (h : WholeAll ss) :
    Writes (printBlock indent ss) := by
  cases ss with
  | nil => exact .pure _
  | cons s rest =>
    exact (writes_stmt indent s h.1).bind fun _ => (writes_block indent rest h.2).bind fun _ =>
      .pure _

theorem writes_body (indent : Nat) (ss : List Stmt) (h : WholeAll ss) :
    Writes (printBody indent ss) := by
  cases ss with
  | nil => exact .pure _
  | cons s rest =>
    rw [printBody]
    split
    · exact (writes_block indent rest h.2).bind fun _ => .pure _
    · exact (writes_stmt indent s h.1).bind fun _ => (writes_block indent rest h.2).bind fun _ =>
        .pure _

theorem writes_else (indent : Nat) (ss : List Stmt) (h : WholeAll ss) :
    Writes (printElse indent ss) := by
  cases ss with
  | nil => exact .pure _
  | cons s rest =>
    exact (writes_stmt (indent + 1) s h.1).bind fun _ =>
      (writes_block (indent + 1) rest h.2).bind fun _ => .pure _

theorem writes_otherwise (indent : Nat) (ss : List Stmt) (h : WholeAll ss) :
    Writes (printOtherwise indent ss) := by
  cases ss with
  | nil => exact .pure _
  | cons s rest =>
    have hs := writes_stmt (indent + 1) s h.1
    have hrest := writes_block (indent + 1) rest h.2
    have helse : Writes (printElse indent (s :: rest)) :=
      hs.bind fun _ => hrest.bind fun _ => .pure _
    cases rest with
    | cons s' rest => cases s <;> exact helse
    | nil =>
      cases s with
      | branch test body orelse =>
        obtain ⟨⟨htest, hbody, horelse⟩, -⟩ := h
        exact (htest false _).bind fun _ => (writes_block (indent + 1) body hbody).bind fun _ =>
          (writes_otherwise indent orelse horelse).bind fun _ => .pure _
      | _ => exact helse

theorem writes_handler (grouped : Bool) (indent : Nat) (handler : Handler) (h : handler.Whole) :
    Writes (handler.print grouped indent) := by
  cases handler with
  | mk type name body =>
    exact (writes_option h.1).bind fun _ => (writes_block (indent + 1) body h.2).bind fun _ =>
      .pure _
  | lacking part of => exact h.elim

theorem writes_handlers (grouped : Bool) (indent : Nat) (hs : List Handler) (h : WholeHandlers hs) :
    Writes (printHandlers grouped indent hs) := by
  cases hs with
  | nil => exact .pure _
  | cons handler rest =>
    exact (writes_handler grouped indent handler h.1).bind fun _ =>
      (writes_handlers grouped indent rest h.2).bind fun _ => .pure _

theorem writes_case (indent : Nat) (c : Case) (h : c.Whole) : Writes (c.print indent) := by
  cases c with
  | mk pattern guard body =>
    exact (h.1 _).bind fun _ => (writes_option h.2.1).bind fun _ =>
      (writes_block (indent + 1) body h.2.2).bind fun _ => .pure _
  | lacking part of => exact h.elim

theorem writes_cases (indent : Nat) (cs : List Case) (h : WholeCases cs) :
    Writes (printCases indent cs) := by
  cases cs with
  | nil => exact .pure _
  | cons c rest =>
    exact (writes_case indent c h.1).bind fun _ => (writes_cases indent rest h.2).bind fun _ =>
      .pure _

end

end Code

end CodeChart
