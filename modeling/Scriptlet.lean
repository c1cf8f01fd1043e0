import Scriptlet.Main
import Scriptlet.Number.Bits
import Scriptlet.Interpreter
import Scriptlet.Proofs.Parser.Soundness
import Scriptlet.Proofs.Lines
import Scriptlet.Proofs.Parser.Lines
import Scriptlet.Proofs.Token.Layout
import Scriptlet.Proofs.Printer
import Scriptlet.Proofs.Parser.RoundTrip
import Scriptlet.Proofs.Evaluation.Isolation
import Scriptlet.Proofs.Scope.Refinement
import Scriptlet.Proofs.Stepping.State
import Scriptlet.Proofs.Stepping.Evaluator
import Scriptlet.Proofs.Stepping.Depth
import Scriptlet.Proofs.Evaluation.Provenance
import Scriptlet.Proofs.Evaluation.Termination
import Scriptlet.Proofs.Evaluation.Agreement
import Scriptlet.Proofs.Evaluation.Coincidence
import Scriptlet.Proofs.Script.Layout
import Scriptlet.Proofs.Token.Decomposition
import Scriptlet.Proofs.Stepping.Output
import Scriptlet.Proofs.Stepping.Lockstep
import Scriptlet.Proofs.Stepping.DepthLimit
import Scriptlet.Proofs.Script.BoundedSink
import Scriptlet.Proofs.Token.Junction
import Scriptlet.Proofs.Parser.Concatenation
import Scriptlet.Proofs.Parser.Progress
import Scriptlet.Proofs.Parser.WellFormed
import Scriptlet.Proofs.Stepping.Contents
import Scriptlet.Proofs.Stepping.WellFormed
import Scriptlet.Proofs.Stepping.Identity
import Scriptlet.Proofs.Evaluation.Fuel
import Scriptlet.Proofs.Script.Session
import Scriptlet.Proofs.Token.Rendering
import Scriptlet.Proofs.Number.Exact
import Scriptlet.Proofs.Number.Remainder
import Scriptlet.Proofs.Parser.Completeness
import Scriptlet.Proofs.Table.Canonical
import Scriptlet.Proofs.Number.Comparison
import Scriptlet.Proofs.Table.Load
import Scriptlet.Proofs.Table.Hash
import Scriptlet.Proofs.Script.Unrolling
import Scriptlet.Proofs.Token.Places
import Scriptlet.Proofs.Token.Cursor
import Scriptlet.Proofs.Parser.Definite
import Scriptlet.Proofs.Parser.Nodes
import Scriptlet.Proofs.Parser.Refusals
import Scriptlet.Proofs.Script.ErrorLines
import Scriptlet.Proofs.Evaluation.Connectives
import Scriptlet.Proofs.Number.Conversion
import Scriptlet.Proofs.Number.Fixed
import Scriptlet.Proofs.Script.Literal
import Scriptlet.Proofs.Script.Decimal
