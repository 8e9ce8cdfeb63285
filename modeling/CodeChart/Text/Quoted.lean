import CodeChart.Text.Blank
import CodeChart.Text.Printable

/-! Quoted text. A literal is written between single quotes unless it holds a single quote and no
double quote; what cannot be shown is written as an escape. A second form spends effort to avoid
backslashes: it tries the four kinds of quote in turn and may use raw line breaks inside triple
quotes. Text is a list of code points, so that a lone surrogate has a written form too. -/
namespace CodeChart.Text

abbrev CodePoints := List Nat

def codePoints (s : String) : CodePoints := s.toList.map Char.toNat

def ofCodePoints (cs : CodePoints) : String := String.ofList (cs.map Char.ofNat)

/-- The escape of a code point by number: two, four or eight hexadecimal digits. -/
def numericEscape (c : Nat) : String :=
  if c < 0x100 then "\\x" ++ hex 2 c
  else if c < 0x10000 then "\\u" ++ hex 4 c
  else "\\U" ++ hex 8 c

/-- A code point that is not a quote, as it stands inside a literal. -/
def escaped (c : Nat) : String :=
  if c = 92 then "\\\\"
  else if c = 10 then "\\n"
  else if c = 13 then "\\r"
  else if c = 9 then "\\t"
  else if isPrintable c then String.singleton (Char.ofNat c)
  else numericEscape c

/-- The quote of a literal: single, unless that would need an escape and double would not. -/
def literalQuote (cs : CodePoints) : Char :=
  if cs.contains 39 && !cs.contains 34 then '"' else '\''

def literalBody (quote : Char) (cs : CodePoints) : String :=
  String.join (cs.map fun c =>
    if c = quote.toNat then String.ofList ['\\', quote] else escaped c)

def quoted (cs : CodePoints) : String :=
  let q := literalQuote cs
  String.singleton q ++ literalBody q cs ++ String.singleton q

/-- A literal of bytes: everything outside printable ASCII is escaped. -/
def quotedBytes (bs : List Nat) : String :=
  let q := literalQuote bs
  let body := String.join (bs.map fun b =>
    if b = q.toNat then String.ofList ['\\', q]
    else if b < 128 then escaped b else numericEscape b)
  "b" ++ String.singleton q ++ body ++ String.singleton q

def tripleDouble : String := "\"\"\""

def tripleSingle : String := "'''"

def allQuotes : List String := ["'", "\"", tripleDouble, tripleSingle]

def longQuotes : List String := [tripleDouble, tripleSingle]

def occursIn (part : List Char) : List Char → Bool
  | [] => part.isEmpty
  | c :: rest => part.isPrefixOf (c :: rest) || occursIn part rest

/-- A stable reordering that moves what satisfies `p` to the end. -/
def demote (p : α → Bool) (xs : List α) : List α :=
  xs.filter (fun x => !p x) ++ xs.filter p

/-- The inside of a literal that avoids backslashes, with the quotes that can close it, best
first. `rawBreaks` keeps line breaks and tabs as they are. When no quote fits, the plain literal's
inside is used with a quote of the same character. -/
def sparingBody (cs : CodePoints) (quotes : List String) (rawBreaks : Bool) :
    String × List String :=
  let body := String.join (cs.map fun c =>
    if rawBreaks && (c = 10 || c = 9) then String.singleton (Char.ofNat c) else escaped c)
  let fitting := quotes.filter fun q =>
    (!body.toList.contains '\n' || longQuotes.contains q) && !occursIn q.toList body.toList
  match fitting with
  | [] =>
    let q := literalQuote cs
    let quote := (quotes.find? fun x => x.toList.contains q).getD (String.singleton q)
    (literalBody q cs, [quote])
  | _ =>
    match body.toList.getLast? with
    | none => (body, fitting)
    | some last =>
      let ranked := demote (fun q => q.toList.head? == some last) fitting
      if (ranked.head?.bind fun q => q.toList.head?) == some last then
        (String.ofList (body.toList.dropLast ++ ['\\', last]), ranked)
      else (body, ranked)

/-- A literal that avoids backslashes, in the first of `quotes` that fits. -/
def sparing (cs : CodePoints) (quotes : List String) : String :=
  let (body, fitting) := sparingBody cs quotes true
  let q := fitting.headD "'"
  q ++ body ++ q

end CodeChart.Text
