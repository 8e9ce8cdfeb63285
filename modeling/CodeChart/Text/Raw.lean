import CodeChart.Fault
import CodeChart.Text.Quoted
import CodeChart.Text.Ranges

/-! Text as the system hands it over. Arguments and file names are bytes that are read as UTF-8; a
byte that is part of no character is kept as it is. Such text can be compared, cut and used to name
a file, but it can be encoded only if all of it are characters. -/
namespace CodeChart.Text

/-- A character, or a byte from 0x80 on that is part of none. -/
inductive Sign where
  | char (c : Char)
  | stray (above : Fin 128)
  deriving DecidableEq, Repr

abbrev Raw := List Sign

/-- The bytes of a text in UTF-8. -/
def utf8 (text : String) : List UInt8 := text.toUTF8.data.toList

namespace Sign

/-- Stray bytes stand where the low surrogates are. -/
def codePoint : Sign → Nat
  | .char c => c.toNat
  | .stray k => 0xDC80 + k

def char? : Sign → Option Char
  | .char c => some c
  | .stray _ => none

def isStray (s : Sign) : Bool := s.char?.isNone

def isDecimal : Sign → Bool
  | .char c => inRanges decimalDigits c.toNat
  | .stray _ => false

/-- A sign as diagnostics show it. -/
def shown : Sign → List Char
  | .char c => [c]
  | .stray k => (numericEscape (Sign.stray k).codePoint).toList

end Sign

namespace Raw

def ofText (text : String) : Raw := text.toList.map .char

def codePoints (raw : Raw) : CodePoints := raw.map Sign.codePoint

def text? (raw : Raw) : Option String := String.ofList <$> raw.mapM Sign.char?

def shown (raw : Raw) : String := String.ofList (raw.flatMap Sign.shown)

/-- The fault of a text that cannot be encoded: it tells of the first run of stray bytes. -/
def fault (raw : Raw) : Fault :=
  let start := raw.findIdx Sign.isStray
  let run := (raw.drop start).takeWhile Sign.isStray
  .unencodable ((run.map Sign.codePoint).headD 0) start (start + run.length - 1)

/-- The bytes of a raw text, unless some byte of it is stray. -/
def encode (raw : Raw) : Except Fault (List UInt8) :=
  match raw.text? with
  | some text => pure (utf8 text)
  | none => throw raw.fault

def cut (mark : Sign) : Raw → List Raw
  | [] => [[]]
  | s :: rest =>
    if s = mark then [] :: cut mark rest
    else
      match cut mark rest with
      | first :: more => (s :: first) :: more
      | [] => [[s]]

def afterLast (mark : Sign) (raw : Raw) : Raw :=
  (raw.reverse.takeWhile (· ≠ mark)).reverse

end Raw

end CodeChart.Text
