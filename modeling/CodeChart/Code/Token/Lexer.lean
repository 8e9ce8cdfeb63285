import CodeChart.Code.Token.Number

/-! From characters to tokens. Lines end a statement unless a bracket is open or a backslash stands
before the break; the blanks at the start of a line open and close blocks. Columns are counted
twice, with tabs to the next multiple of eight and with tabs of one, and both counts have to
agree. -/
namespace CodeChart.Code

/-- Line breaks of every style become one character. A break of two characters at the very end
leaves an empty line behind it. -/
def normalizeBreaks : List Char → List Char
  | [] => []
  | ['\r', '\n'] => ['\n', '\n']
  | '\r' :: '\n' :: rest => '\n' :: normalizeBreaks rest
  | '\r' :: rest => '\n' :: normalizeBreaks rest
  | c :: rest => c :: normalizeBreaks rest

def endLastLine (cs : List Char) : List Char :=
  if cs.getLast? == some '\n' then cs else cs ++ ['\n']

structure LexState where
  line : Nat
  /-- Whether the next character begins a line. -/
  fresh : Bool
  /-- Open brackets, innermost first. -/
  opened : List Char
  /-- Columns of the open blocks by both counts, innermost first. -/
  columns : List (Nat × Nat)
  deriving Inhabited

def LexState.start : LexState := ⟨1, true, [], [(0, 0)]⟩

/-- A column by both counts of a tab. A backslash fixes the column of the line; `breaks` counts the
lines that were joined so. -/
structure Margin where
  column : Nat := 0
  narrow : Nat := 0
  fixed : Nat := 0
  breaks : Nat := 0

def measure : Margin → List Char → Option (Margin × List Char)
  | m, ' ' :: rest => measure { m with column := m.column + 1, narrow := m.narrow + 1 } rest
  | m, '\t' :: rest =>
    measure { m with column := (m.column / 8 + 1) * 8, narrow := m.narrow + 1 } rest
  | m, '\x0c' :: rest => measure { m with column := 0, narrow := 0 } rest
  | m, '\\' :: '\n' :: rest =>
    if rest.isEmpty then none
    else
      let fixed := if m.fixed = 0 then m.column else m.fixed
      measure { m with fixed, breaks := m.breaks + 1 } rest
  | _, '\\' :: _ => none
  | m, rest => some (m, rest)

def closeBlocks (column : Nat) : List (Nat × Nat) → List Token × List (Nat × Nat)
  | [] => ([], [])
  | (c, n) :: outer =>
    if column < c then
      let (ts, left) := closeBlocks column outer
      (.dedent :: ts, left)
    else ([], (c, n) :: outer)

/-- The block marks in front of a line that starts at the given columns. -/
def indentation (column narrow : Nat) (columns : List (Nat × Nat)) :
    Option (List Token × List (Nat × Nat)) :=
  match columns with
  | [] => none
  | (c, n) :: _ =>
    if column = c then if narrow = n then some ([], columns) else none
    else if c < column then
      if narrow ≤ n || 100 ≤ columns.length then none
      else some ([.indent], (column, narrow) :: columns)
    else
      match closeBlocks column columns with
      | (ts, (c, n) :: outer) =>
        if column = c && narrow = n then some (ts, (c, n) :: outer) else none
      | (_, []) => none

def skipComment (cs : List Char) : List Char := cs.dropWhile (· != '\n')

/-- The characters of a literal in single quotes, and what follows the closing one. -/
def shortText (quote : Char) : List Char → Option (List Char × List Char)
  | [] => none
  | '\\' :: c :: rest => (shortText quote rest).map fun (b, r) => ('\\' :: c :: b, r)
  | c :: rest =>
    if c = quote then some ([], rest)
    else if c = '\n' then none
    else (shortText quote rest).map fun (b, r) => (c :: b, r)

/-- The characters of a literal in triple quotes, and what follows the closing ones. -/
def longText (quote : Char) : List Char → Option (List Char × List Char)
  | [] => none
  | '\\' :: c :: rest => (longText quote rest).map fun (b, r) => ('\\' :: c :: b, r)
  | c :: rest =>
    if c = quote && [quote, quote].isPrefixOf rest then some ([], rest.drop 2)
    else (longText quote rest).map fun (b, r) => (c :: b, r)

def quotedText (cs : List Char) : Option (List Char × List Char) :=
  match cs with
  | a :: b :: c :: rest =>
    if a = b && b = c then longText a rest
    else if a = b then some ([], c :: rest)
    else shortText a (b :: c :: rest)
  | [a, b] => if a = b then some ([], []) else none
  | _ => none

def isQuote (c : Char) : Bool := c == '\'' || c == '"'

def literalLetters : List String := ["b", "r", "u", "f", "br", "rb", "fr", "rf"]

def literal? (cs : List Char) : Option (Literal × List Char) :=
  let letters := cs.takeWhile fun c => Text.isAsciiLetter c.toNat
  let rest := cs.dropWhile fun c => Text.isAsciiLetter c.toNat
  let kind := String.ofList (letters.map Char.toLower)
  if rest.head?.any isQuote && (letters.isEmpty || literalLetters.contains kind) then
    (quotedText rest).map fun (body, after) =>
      ({ isBytes := kind.toList.contains 'b', raw := kind.toList.contains 'r'
         formatted := kind.toList.contains 'f', marked := letters == ['u'], body }, after)
  else none

def startsLiteral (cs : List Char) : Bool :=
  let letters := cs.takeWhile fun c => Text.isAsciiLetter c.toNat
  let rest := cs.dropWhile fun c => Text.isAsciiLetter c.toNat
  rest.head?.any isQuote
    && (letters.isEmpty || literalLetters.contains (String.ofList (letters.map Char.toLower)))

def closes (opening closing : Char) : Bool :=
  (opening == '(' && closing == ')') || (opening == '[' && closing == ']')
    || (opening == '\x7b' && closing == '\x7d')

def brackets (opened : List Char) (symbol : String) : Option (List Char) :=
  match symbol.toList with
  | [c] =>
    if c == '(' || c == '[' || c == '\x7b' then
      if 200 ≤ opened.length then none else some (c :: opened)
    else if c == ')' || c == ']' || c == '\x7d' then
      match opened with
      | o :: outer => if closes o c then some outer else none
      | [] => none
    else some opened
  | _ => some opened

/-- One step: the tokens it yields, the state after it and what is left. -/
abbrev LexStep := List Token × LexState × List Char

def LexState.advance (st : LexState) (lines : Nat) : LexState := { st with line := st.line + lines }

def lexToken (st : LexState) (cs : List Char) : Option LexStep :=
  match cs with
  | [] => some ([], st, [])
  | ' ' :: rest | '\t' :: rest | '\x0c' :: rest => some ([], st, rest)
  | '#' :: rest => some ([], st, skipComment rest)
  | '\n' :: rest =>
    if st.opened.isEmpty then some ([.newline], { st.advance 1 with fresh := true }, rest)
    else some ([], st.advance 1, rest)
  | '\\' :: '\n' :: rest => if rest.isEmpty then none else some ([], st.advance 1, rest)
  | '\\' :: _ => none
  | c :: rest =>
    if startsLiteral cs then
      (literal? cs).map fun (l, after) => ([.text l], st.advance (l.body.count '\n'), after)
    else if isDecimalDigit c || (c == '.' && rest.head?.any isDecimalDigit) then
      (number? cs).map fun (n, after) => ([.number n], st, after)
    else if isNameLike c then
      let more := rest.takeWhile isNameLike
      let after := rest.dropWhile isNameLike
      if h : (Text.isNameStart c.toNat && (c :: more).all fun c => Text.isNamePart c.toNat)
        = true then
        let id := String.ofList (c :: more)
        have spelled : Text.IsName id := Text.isName_ofList (Bool.and_eq_true_iff.1 h).2
        some ([if reservedWords.contains id then .word id st.line else @Token.name id spelled],
          st, after)
      else none
    else do
      let (symbol, after) ← operator? cs
      let opened ← brackets st.opened symbol
      pure ([.op symbol], { st with opened }, after)

/-- The start of a line: empty lines and comments leave no trace. -/
def lexLine (st : LexState) (cs : List Char) : Option LexStep := do
  let (m, rest) ← measure {} cs
  let st := st.advance m.breaks
  match rest with
  | [] => pure ([], st, [])
  | '#' :: _ => pure ([], st.advance 1, (skipComment rest).drop 1)
  | '\n' :: after => pure ([], st.advance 1, after)
  | _ =>
    let (column, narrow) := if m.fixed = 0 then (m.column, m.narrow) else (m.fixed, m.fixed)
    let (marks, columns) ← indentation column narrow st.columns
    let (ts, st, after) ← lexToken { st with fresh := false, columns } rest
    pure (marks ++ ts, st, after)

def lexStep (st : LexState) (cs : List Char) : Option LexStep :=
  if st.fresh then lexLine st cs else lexToken st cs

/-- The tokens at the end of a text, which close the open blocks. -/
def lexEnd (st : LexState) : Option (List Token) :=
  if st.opened.isEmpty then
    some (List.replicate (st.columns.length - 1) Token.dedent ++ [.finish])
  else none

/-- Tokens of a text whose lines are all ended, in at most one step for each character of `steps`.
Every step takes at least one character. -/
def lexWithin : List Char → LexState → List Char → Option (List Token)
  | _, st, [] => lexEnd st
  | [], _, _ :: _ => none
  | _ :: steps, st, c :: cs => do
    let (ts, next, rest) ← lexStep st (c :: cs)
    let more ← lexWithin steps next rest
    pure (ts ++ more)

def lex (cs : List Char) : Option (List Token) := lexWithin cs .start cs

/-- The tokens of a source text, in which no zero character may stand. -/
def tokenize (source : List Char) : Option (List Token) :=
  if source.contains '\x00' then none
  else lex (endLastLine (normalizeBreaks source))

end CodeChart.Code
