import CodeChart.Chart.OfCode
import CodeChart.Code.Field
import CodeChart.Graph.Drawing

/-! Charts of source text. -/
namespace CodeChart.Chart

open CodeChart.Graph Code

/-- What is to be drawn: a field of some code, its body or the definition as a whole. -/
structure Source where
  code : String
  field : String := ""
  inner : Bool := true
  options : Options := {}

/-- The code at a field of a module: its body, or the definition as a whole. -/
def fieldPieces (m : Module) (field : String) (inner : Bool) : Except Fault (List Piece) :=
  let place := (m.lookup field).place
  if place.body.isEmpty then throw (.nothingToChart field)
  else pure (if inner then place.body.map .stmt else [place.piece])

/-- The code of a source, cut to its field. -/
def Source.pieces (source : Source) : Except Fault (List Piece) := do
  fieldPieces (← Module.parse source.code) source.field source.inner

/-- The chart of a list of pieces. -/
def chartOf (options : Options) (pieces : List Piece) : Action Nat := do
  let (head, _) ← groupEnds (← ofPieces options pieces)
  newChart head

/-- The chart of a source. -/
def Source.chart (source : Source) : Action Nat := do
  chartOf source.options (← ofExcept source.pieces)

/-- The text of the chart of a source. -/
def Source.draw (source : Source) : Action String := do
  chartText (← source.chart)

end CodeChart.Chart
