import CodeChart.Fault
import CodeChart.Text.Identifier
import CodeChart.Text.Quoted
import CodeChart.Text.Raw
import CodeChart.Decimal.Binary64
import CodeChart.Code.Stmt
import CodeChart.Code.Printer.Statement
import CodeChart.Code.Parser.Statement
import CodeChart.Code.Piece
import CodeChart.Graph.Drawing
import CodeChart.Chart.Source
import CodeChart.Session.Step
import CodeChart.Text.Encoding
import CodeChart.Page
import CodeChart.Trace
import CodeChart.CommandLine.Directory
import CodeChart.CommandLine.Program
import CodeChart.Main
import CodeChart.Workload.Basic
import CodeChart.Proofs.Assembly
import CodeChart.Proofs.WellFormed
import CodeChart.Proofs.Liveness
import CodeChart.Proofs.Runs
import CodeChart.Proofs.Simplified
import CodeChart.Proofs.Totality
import CodeChart.Proofs.Interleaving
import CodeChart.Proofs.Cycles
import CodeChart.Proofs.Options
import CodeChart.Proofs.Stability
import CodeChart.Proofs.Numbering
import CodeChart.Proofs.Fields
import CodeChart.Proofs.Outcomes
import CodeChart.Proofs.Decoding
import CodeChart.Proofs.Legible
import CodeChart.Proofs.Pages
import CodeChart.Proofs.Alignment
import CodeChart.Proofs.Directions
import CodeChart.Proofs.Wordings
import CodeChart.Proofs.Leaves
import CodeChart.Proofs.Traversal
import CodeChart.Proofs.Utf8
import CodeChart.Proofs.OpenExits
import CodeChart.Proofs.Reconnection
import CodeChart.Proofs.Accounts
import CodeChart.Proofs.Delivery
import CodeChart.Proofs.Building
