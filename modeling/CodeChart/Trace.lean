/-! Trace messages, which are written only while tracing is on. -/
namespace CodeChart

/-- The text of a trace message: a mark and the words, with a divider between and an ending. -/
def traceText (on : Bool) (words : List String) (divider ending : String) : String :=
  if on then divider.intercalate ("DBG" :: words) ++ ending else ""

end CodeChart
