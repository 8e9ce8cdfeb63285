import CodeChart.Code.Parser.Basic
import CodeChart.Code.Token.Escape
import CodeChart.Code.Token.Lexer

/-! Formatted strings: literal text with fields in braces. A doubled brace is a literal one. A
field holds an expression, which ends at the first `!`, `:`, `=` or closing brace outside brackets
and quotes, then perhaps an equals sign that repeats the expression's text, a conversion and a
format, which may hold fields of its own. -/
namespace CodeChart.Code

structure Stretch where
  text : List Char
  /-- Whether it ended at a doubled brace, which belongs to it. -/
  doubled : Bool
  rest : List Char

def isBrace (c : Char) : Bool := c == '\x7b' || c == '\x7d'

/-- Literal text up to a field, a closing brace or the end. Braces are doubled only outside
formats, where `nested` is false; there a single closing brace is an error. The braces around the
name of a character belong to the text; `naming` says that it stands there. -/
def stretch (raw nested : Bool) : Bool → List Char → Option Stretch
  | _, [] => some ⟨[], false, []⟩
  | true, c :: rest =>
    (stretch raw nested (c != '\x7d') rest).map fun s => { s with text := c :: s.text }
  | false, '\\' :: c :: rest =>
    if raw then
      (stretch raw nested false (c :: rest)).map fun s => { s with text := '\\' :: s.text }
    else if isBrace c then
      (atBrace c rest).map fun s => { s with text := '\\' :: s.text }
    else
      (stretch raw nested (c == 'N' && rest.head? == some '\x7b') rest).map fun s =>
        { s with text := '\\' :: c :: s.text }
  | false, c :: rest =>
    if isBrace c then atBrace c rest
    else (stretch raw nested false rest).map fun s => { s with text := c :: s.text }
where
  atBrace (c : Char) (rest : List Char) : Option Stretch :=
    if nested then some ⟨[], false, c :: rest⟩
    else if rest.head? == some c then some ⟨[c], true, rest.drop 1⟩
    else if c == '\x7d' then none
    else some ⟨[], false, c :: rest⟩

/-- Where the scan of a field's expression stands: inside a literal, in which brackets, and how many
characters belong to the symbol before. -/
structure FieldScan where
  quote : Option Char
  long : Bool
  opened : List Char
  skip : Nat

inductive FieldStep where
  | fail
  | stop
  | go (next : FieldScan)

/-- What one character does, given those behind it. -/
def FieldScan.step (st : FieldScan) (c : Char) (rest : List Char) : FieldStep :=
  if c == '\\' then .fail
  else if st.skip != 0 then .go { st with skip := st.skip - 1 }
  else
    let tripled := [c, c].isPrefixOf rest
    match st.quote with
    | some q =>
      if c != q || (st.long && !tripled) then .go st
      else .go { st with quote := none, long := false, skip := if st.long then 2 else 0 }
    | none =>
      if isQuote c then
        .go { st with quote := some c, long := tripled, skip := if tripled then 2 else 0 }
      else if c == '(' || c == '[' || c == '\x7b' then .go { st with opened := c :: st.opened }
      else if c == '#' then .fail
      else if st.opened.isEmpty && ['!', ':', '\x7d', '=', '<', '>'].contains c then
        if rest.head? == some '=' && c != ':' && c != '\x7d' then .go { st with skip := 1 }
        else if c == '<' || c == '>' then .go st
        else .stop
      else if c == ')' || c == ']' || c == '\x7d' then
        match st.opened with
        | o :: outer => if closes o c then .go { st with opened := outer } else .fail
        | [] => .fail
      else .go st

def fieldExpression : FieldScan → List Char → Option (List Char × List Char)
  | _, [] => none
  | st, c :: rest =>
    match st.step c rest with
    | .fail => none
    | .stop => some ([], c :: rest)
    | .go next => (fieldExpression next rest).map fun (e, r) => (c :: e, r)

inductive Segment where
  | literal (points : Text.CodePoints)
  | field (of : Expr)

def mergeSegments (marked : Bool) (segments : List Segment) : List Expr :=
  let flush (points : Text.CodePoints) (rest : List Expr) : List Expr :=
    if points.isEmpty then rest else .constant (.text marked points) :: rest
  let (points, parts) := segments.foldr (fun s (points, parts) =>
    match s with
    | .literal more => (more ++ points, parts)
    | .field e => ([], e :: flush points parts)) (([] : Text.CodePoints), ([] : List Expr))
  flush points parts

def isFieldBlank (c : Char) : Bool :=
  c == ' ' || c == '\t' || c == '\n' || c == '\x0c' || c == '\r' || c == '\x0b'

/-- The segments of a formatted string from here on, and what is left at a closing brace of the
field around it. `depth` counts the fields around; `expression` reads a field's expression, which
stands in parentheses. -/
def segments (expression : List Char → Option Expr) (l : Literal) :
    Nat → Nat → List Char → Option (List Segment × List Char)
  | 0, _, _ => none
  | n + 1, depth, cs => do
    let s ← stretch l.raw (depth != 0) false cs
    let points ← l.points? s.text
    if s.doubled then
      let (more, rest) ← segments expression l n depth s.rest
      pure (.literal points :: more, rest)
    else
      match s.rest with
      | '\x7b' :: inside =>
        guard (depth < 2)
        let (code, rest) ← fieldExpression ⟨none, false, [], 0⟩ inside
        guard (code.any fun c => !(c == ' ' || c == '\t' || c == '\n' || c == '\x0c'))
        let value ← expression (['('] ++ code ++ [')'])
        let (repeated, rest) := match rest with
          | '=' :: after =>
            (some (code ++ '=' :: after.takeWhile isFieldBlank), after.dropWhile isFieldBlank)
          | _ => (none, rest)
        let (conversion, rest) ← match rest with
          | '!' :: c :: after =>
            if c == 's' || c == 'r' || c == 'a' then pure (some c, after) else none
          | ['!'] => none
          | _ => pure (none, rest)
        let (format, rest) ← match rest with
          | ':' :: after => do
            let (inner, rest) ← segments expression l n (depth + 1) after
            pure (some (Expr.joined (mergeSegments l.marked inner)), rest)
          | _ => pure (none, rest)
        match rest with
        | '\x7d' :: after =>
          let conversion := match conversion with
            | none => if repeated.isSome && format.isNone then some 'r' else none
            | some c => some c
          let (more, rest) ← segments expression l n depth after
          let echo := match repeated with
            | some text => [.literal (text.map Char.toNat)]
            | none => []
          pure ([.literal points] ++ echo ++ [.field (.field value conversion format)] ++ more,
            rest)
        | _ => none
      | rest =>
        if depth = 0 && !rest.isEmpty then none else pure ([.literal points], rest)

def Literal.segments? (expression : List Char → Option Expr) (l : Literal) :
    Option (List Segment) :=
  if l.formatted then
    (segments expression l (l.body.length + 2) 0 l.body).map Prod.fst
  else (l.points? l.body).map fun points => [.literal points]

/-- Neighbouring literals make one constant, or one formatted string if any of them is formatted.
Text and bytes do not mix; the mark of the first literal counts. -/
def joinLiterals (expression : List Char → Option Expr) (first : Literal) (rest : List Literal) :
    Option Expr := do
  let all := first :: rest
  guard (rest.all fun l => l.isBytes == first.isBytes)
  if first.isBytes then
    let parts ← all.mapM fun l => l.points? l.body
    pure (.constant (.bytes parts.flatten))
  else
    let parts ← all.mapM fun l => l.segments? expression
    let merged := mergeSegments first.marked parts.flatten
    if all.any (·.formatted) then pure (.joined merged)
    else
      match merged with
      | [e] => pure e
      | _ => pure (.constant (.text first.marked []))

end CodeChart.Code
