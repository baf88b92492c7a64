import FirstMatch.Integer
import FirstMatch.Main
import FirstMatch.Table.Printer
import FirstMatch.Workbench
import FirstMatch.Proofs.Denotation
import FirstMatch.Proofs.Double.Equality
import FirstMatch.Proofs.Json.Equality
import FirstMatch.Proofs.Congruence
import FirstMatch.Proofs.Double.Shortest
import FirstMatch.Proofs.Json.Numeral
import FirstMatch.Proofs.Json.Text
import FirstMatch.Proofs.Json.Canonical
import FirstMatch.Proofs.Json.Floats
import FirstMatch.Proofs.Json.RoundTrip
import FirstMatch.Proofs.Table.Floats
import FirstMatch.Proofs.Table.Decode
import FirstMatch.Proofs.Table.RoundTrip
import FirstMatch.Proofs.Double.Finite
import FirstMatch.Proofs.Json.Accepted
import FirstMatch.Proofs.Table.Accepted
import FirstMatch.Proofs.Table.Stability
import FirstMatch.Proofs.Double.Nearest
import FirstMatch.Proofs.Dispatch.History
import FirstMatch.Proofs.Selection
import FirstMatch.Proofs.Dispatch.Construction
import FirstMatch.Proofs.Dispatch.Builder
import FirstMatch.Proofs.Dispatch.Order
import FirstMatch.Proofs.Dispatch.Range
import FirstMatch.Proofs.Table.Spelled
import FirstMatch.Proofs.Table.Tagged
import FirstMatch.Proofs.Table.Placement
import FirstMatch.Proofs.Table.Written
import FirstMatch.Proofs.Dispatch.Log
import FirstMatch.Proofs.Double.Whole
import FirstMatch.Proofs.Double.Rational
import FirstMatch.Proofs.Double.ExactInteger
import FirstMatch.Proofs.Arithmetic
import FirstMatch.Proofs.Comparison
import FirstMatch.Proofs.Value
import FirstMatch.Proofs.Equals
import FirstMatch.Proofs.Dispatch.Precedence
import FirstMatch.Proofs.Table.Depth
import FirstMatch.Proofs.Table.Nesting
import FirstMatch.Proofs.Dispatch.Cascade
import FirstMatch.Proofs.Dispatch.Rearrangement
import FirstMatch.Proofs.Table.Complete
import FirstMatch.Proofs.Chain
import FirstMatch.Proofs.NegationNormal
import FirstMatch.Proofs.Stringified
import FirstMatch.Proofs.CommandLine.Input
import FirstMatch.Proofs.CommandLine.Line
import FirstMatch.Proofs.CommandLine.Tasks
import FirstMatch.Proofs.CommandLine.File
