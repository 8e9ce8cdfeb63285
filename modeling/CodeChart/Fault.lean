import CodeChart.Text.Blank

/-! Everything that can go wrong, as causes. The wording of a cause is fixed in one place,
`Fault.message`; code that cannot be read and bytes that cannot be decoded have no wording of
their own. -/
namespace CodeChart

inductive Fault where
  /-- The code does not follow the grammar. -/
  | badCode
  /-- The bytes are not text in the chosen encoding. -/
  | undecodable
  /-- Places `first` to `last` of a text hold bytes that are part of no character. -/
  | unencodable (point first last : Nat)
  | unknownEncoding (name : String)
  /-- Nothing stands at the requested field. -/
  | nothingToChart (field : String)
  /-- A construction was asked of a thing that cannot carry it. -/
  | unmet
  | noAttribute (owner name : String)
  | notIterable (owner : String)
  | notIndexable (owner : String)
  /-- Texts to be joined with nothing in the place of one. -/
  | notText (place : Nat)
  /-- A field of a formatted string cannot be written without a backslash. -/
  | backslashInField
  /-- A whole number has more decimal digits than are written. -/
  | tooManyDigits (limit : Nat)
  | indexOutOfRange
  | noSuchFile (path : String)
  | isDirectory (path : String)
  | notDirectory (path : String)
  /-- No file can have a name with a zero character in it. -/
  | zeroInName
  /-- Groups that lead into each other without end. -/
  | endless
  deriving DecidableEq, Repr, Inhabited

/-- The text of a cause; `path` texts arrive quoted. -/
def Fault.message : Fault → String
  | .badCode => ""
  | .undecodable => ""
  | .unencodable point first last =>
    "'utf-8' codec can't encode "
      ++ (if first = last then
          "character '\\u" ++ Text.hex 4 point ++ "' in position " ++ toString first
        else "characters in position " ++ toString first ++ "-" ++ toString last)
      ++ ": surrogates not allowed"
  | .unknownEncoding name => "unknown encoding: " ++ name
  | .nothingToChart field =>
    field ++ ": nothing to parse. Check given code and field please."
  | .unmet => ""
  | .noAttribute owner name =>
    "'" ++ owner ++ "' object has no attribute '" ++ name ++ "'"
  | .notIterable owner => "'" ++ owner ++ "' object is not iterable"
  | .notIndexable owner => "'" ++ owner ++ "' object is not subscriptable"
  | .notText place =>
    "sequence item " ++ toString place ++ ": expected str instance, NoneType found"
  | .backslashInField => "Unable to avoid backslash in f-string expression part"
  | .tooManyDigits limit =>
    "Exceeds the limit (" ++ toString limit ++ " digits) for integer string conversion; "
      ++ "use sys.set_int_max_str_digits() to increase the limit"
  | .indexOutOfRange => "list index out of range"
  | .noSuchFile path => "[Errno 2] No such file or directory: " ++ path
  | .isDirectory path => "[Errno 21] Is a directory: " ++ path
  | .notDirectory path => "[Errno 20] Not a directory: " ++ path
  | .zeroInName => "embedded null byte"
  | .endless => "maximum recursion depth exceeded"

end CodeChart
