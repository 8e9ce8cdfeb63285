import CodeChart.Fault
import CodeChart.Text.Blank

/-! Text encodings. A guess names an encoding with a degree of confidence; a guess that is not sure,
or names none, stands for UTF-8. Where the guess comes from, and what encodings there are beside the
ones known here, is for a reader to say. -/
namespace CodeChart.Text

inductive Encoding where
  | ascii
  | latin1
  | utf8
  /-- UTF-8 after an optional mark. -/
  | utf8Marked
  /-- Two-byte units; a mark decides their order, which is otherwise little-endian. -/
  | utf16
  /-- Four-byte units; a mark decides their order, which is otherwise little-endian. -/
  | utf32
  deriving DecidableEq, Repr

/-- The number that some bytes stand for, the first being the least significant. -/
def littleEndian (bytes : List UInt8) : Nat := bytes.foldr (fun b n => b.toNat + 256 * n) 0

def unitValue (bigEndian : Bool) (bytes : List UInt8) : Nat :=
  littleEndian (if bigEndian then bytes.reverse else bytes)

/-- The two-byte units of some bytes; an odd byte is left over by none. -/
def units16 (bigEndian : Bool) : List UInt8 → Option (List Nat)
  | [] => some []
  | a :: b :: rest => (unitValue bigEndian [a, b] :: ·) <$> units16 bigEndian rest
  | [_] => none

def units32 (bigEndian : Bool) : List UInt8 → Option (List Nat)
  | [] => some []
  | a :: b :: c :: d :: rest =>
    (unitValue bigEndian [a, b, c, d] :: ·) <$> units32 bigEndian rest
  | _ => none

def isHighSurrogate (u : Nat) : Bool := 0xD800 ≤ u && u < 0xDC00

def isLowSurrogate (u : Nat) : Bool := 0xDC00 ≤ u && u < 0xE000

/-- The character of a code point, unless it is a surrogate or too large. -/
def scalar? (u : Nat) : Option Char :=
  if h : u.isValidChar then some (Char.ofNatAux u h) else none

def ofUnits16 : List Nat → Option (List Char)
  | [] => some []
  | [u] => (fun c => [c]) <$> scalar? u
  | u :: v :: rest =>
    if isHighSurrogate u then
      if isLowSurrogate v then do
        let c ← scalar? (0x10000 + (u - 0xD800) * 0x400 + (v - 0xDC00))
        (c :: ·) <$> ofUnits16 rest
      else none
    else do
      let c ← scalar? u
      (c :: ·) <$> ofUnits16 (v :: rest)

def decode16 (bigEndian : Bool) (bytes : List UInt8) : Option String := do
  return String.ofList (← ofUnits16 (← units16 bigEndian bytes))

def decode32 (bigEndian : Bool) (bytes : List UInt8) : Option String := do
  return String.ofList (← (← units32 bigEndian bytes).mapM scalar?)

/-- The mark of UTF-8. -/
def utf8Mark : List UInt8 := [0xEF, 0xBB, 0xBF]

def decodeUtf8 (bytes : List UInt8) : Option String := String.fromUTF8? ⟨bytes.toArray⟩

def Encoding.decode? (e : Encoding) (bytes : List UInt8) : Option String :=
  match e with
  | .ascii =>
    if bytes.all (· < 128) then some (String.ofList (bytes.map fun b => Char.ofNat b.toNat))
    else none
  | .latin1 => some (String.ofList (bytes.map fun b => Char.ofNat b.toNat))
  | .utf8 => decodeUtf8 bytes
  | .utf8Marked =>
    decodeUtf8 (if utf8Mark.isPrefixOf bytes then bytes.drop utf8Mark.length else bytes)
  | .utf16 =>
    match bytes with
    | 0xFF :: 0xFE :: rest => decode16 false rest
    | 0xFE :: 0xFF :: rest => decode16 true rest
    | all => decode16 false all
  | .utf32 =>
    match bytes with
    | 0xFF :: 0xFE :: 0 :: 0 :: rest => decode32 false rest
    | 0 :: 0 :: 0xFE :: 0xFF :: rest => decode32 true rest
    | all => decode32 false all

def plainName (name : String) : String :=
  String.ofList (name.toList.map fun c => if c == '_' || c == ' ' then '-' else c.toLower)

def Encoding.ofName? (name : String) : Option Encoding :=
  match plainName name with
  | "ascii" | "us-ascii" | "646" => some .ascii
  | "iso-8859-1" | "iso8859-1" | "latin-1" | "latin1" | "latin" | "l1" | "cp819" | "8859" =>
    some .latin1
  | "utf-8" | "utf8" | "u8" | "utf" | "cp65001" => some .utf8
  | "utf-8-sig" | "utf8-sig" => some .utf8Marked
  | "utf-16" | "utf16" | "u16" => some .utf16
  | "utf-32" | "utf32" | "u32" => some .utf32
  | _ => none

/-- A confidence of `digits · 10 ^ (-places)`. -/
structure Confidence where
  digits : Nat
  places : Nat
  deriving DecidableEq, Repr

/-- Nine tenths or more. -/
def Confidence.isSure (c : Confidence) : Bool := 9 * Nat.pow 10 c.places ≤ 10 * c.digits

structure Guess where
  name : Option String
  confidence : Confidence
  deriving DecidableEq, Repr

/-- The name that a guess is taken for. -/
def Guess.taken (g : Guess) : String :=
  if g.confidence.isSure then g.name.getD "UTF-8" else "UTF-8"

/-- What an encoding that is not known here makes of some bytes. -/
abbrev Codecs := String → List UInt8 → Except Fault String

/-- The text of bytes under a guess. No bytes are no text, whatever the guess. -/
def Guess.decode (codecs : Codecs) (g : Guess) (bytes : List UInt8) : Except Fault String :=
  if bytes.isEmpty then pure ""
  else
    match Encoding.ofName? g.taken with
    | none => codecs g.taken bytes
    | some e =>
      match e.decode? bytes with
      | some text => pure text
      | none => throw .undecodable

/-- How bytes are read: a detector that guesses their encoding, and the codecs beside those known
here. -/
structure Reader where
  detect : List UInt8 → Guess
  codecs : Codecs

def Reader.decode (reader : Reader) (bytes : List UInt8) : Except Fault String :=
  (reader.detect bytes).decode reader.codecs bytes

/-- The guess by the mark at the start of the bytes. -/
def Guess.byMark (bytes : List UInt8) : Guess :=
  let named (name : String) : Guess := ⟨some name, ⟨1, 0⟩⟩
  match bytes with
  | 0xEF :: 0xBB :: 0xBF :: _ => named "UTF-8-SIG"
  | 0xFF :: 0xFE :: 0 :: 0 :: _ => named "UTF-32"
  | 0 :: 0 :: 0xFE :: 0xFF :: _ => named "UTF-32"
  | 0xFE :: 0xFF :: 0 :: 0 :: _ => named "X-ISO-10646-UCS-4-3412"
  | 0 :: 0 :: 0xFF :: 0xFE :: _ => named "X-ISO-10646-UCS-4-2143"
  | 0xFF :: 0xFE :: _ => named "UTF-16"
  | 0xFE :: 0xFF :: _ => named "UTF-16"
  | _ => ⟨none, ⟨0, 0⟩⟩

/-- The reader that runs where there is no other: it looks at marks only. -/
def Reader.byMark : Reader where
  detect := Guess.byMark
  codecs name _ := throw (.unknownEncoding name)

end CodeChart.Text
