import Descent.Act
import Descent.Binary
import Descent.Convert
import Descent.Decimal.Layout
import Descent.Decimal.Significant
import Descent.Decimal.Styled
import Descent.Diagnostics
import Descent.Document.Array
import Descent.Document.Element
import Descent.Document.Element.Name
import Descent.Document.Method
import Descent.Document.Schema
import Descent.Document.State
import Descent.Document.Store
import Descent.Fault
import Descent.Fault.Message
import Descent.Json.Printer
import Descent.Json.Reader
import Descent.LineSearch.Backtracking
import Descent.LineSearch.Ray
import Descent.LineSearch.Wolfe
import Descent.Linear.Elimination
import Descent.Linear.Rotations
import Descent.Logging.Conversion
import Descent.Logging.Event
import Descent.Logging.Format
import Descent.Logging.Registry
import Descent.Machine
import Descent.Method.Basic
import Descent.Method.Construct
import Descent.Number
import Descent.Objective.Basic
import Descent.Objective.Laboratory
import Descent.Operator.Basic
import Descent.Operator.Differences
import Descent.Operator.Problem
import Descent.Proofs.Act.Course
import Descent.Proofs.Act.Keeps
import Descent.Proofs.Act.Related
import Descent.Proofs.Act.Result
import Descent.Proofs.Act.Run
import Descent.Proofs.Act.Triple
import Descent.Proofs.Binary
import Descent.Proofs.Decimal.Shortest
import Descent.Proofs.Document.Array
import Descent.Proofs.Document.Checkpoint
import Descent.Proofs.Document.Conforms
import Descent.Proofs.Document.Diagnostics
import Descent.Proofs.Document.Flaws
import Descent.Proofs.Document.Gate
import Descent.Proofs.Document.Measured
import Descent.Proofs.Document.Method
import Descent.Proofs.Document.Outcome
import Descent.Proofs.Document.Parameters
import Descent.Proofs.Document.Restored
import Descent.Proofs.Document.RoundTrip
import Descent.Proofs.Document.Saved
import Descent.Proofs.Document.Schema
import Descent.Proofs.Document.State
import Descent.Proofs.Document.Strict
import Descent.Proofs.Document.Typed
import Descent.Proofs.Exact.Differences
import Descent.Proofs.Exact.Quantity
import Descent.Proofs.Exact.Scalar
import Descent.Proofs.Exact.Space
import Descent.Proofs.Exact.Surface
import Descent.Proofs.Json.Numbers
import Descent.Proofs.Json.Reals
import Descent.Proofs.Json.RoundTrip
import Descent.Proofs.Json.Strings
import Descent.Proofs.Json.Writer
import Descent.Proofs.LineSearch.Beside
import Descent.Proofs.LineSearch.Best
import Descent.Proofs.LineSearch.Decrease
import Descent.Proofs.LineSearch.Faithful
import Descent.Proofs.LineSearch.First
import Descent.Proofs.LineSearch.Found
import Descent.Proofs.LineSearch.Noted
import Descent.Proofs.LineSearch.Once
import Descent.Proofs.LineSearch.Refusals
import Descent.Proofs.LineSearch.Rules
import Descent.Proofs.LineSearch.Tried
import Descent.Proofs.LineSearch.Zoom
import Descent.Proofs.Logging.Loggers
import Descent.Proofs.Logging.Uniform
import Descent.Proofs.Method.Checked
import Descent.Proofs.Method.Construct
import Descent.Proofs.Operator.Problem
import Descent.Proofs.Operator.Refusals
import Descent.Proofs.Operator.Transcript
import Descent.Proofs.Quadratic.Boundary
import Descent.Proofs.Quadratic.Cauchy
import Descent.Proofs.Quadratic.Conjugate
import Descent.Proofs.Quadratic.Converges
import Descent.Proofs.Quadratic.Dogleg
import Descent.Proofs.Quadratic.Downward
import Descent.Proofs.Quadratic.Exactness
import Descent.Proofs.Quadratic.Forcing
import Descent.Proofs.Quadratic.Iteration
import Descent.Proofs.Quadratic.Model
import Descent.Proofs.Quadratic.Newton
import Descent.Proofs.Quadratic.OneStep
import Descent.Proofs.Quadratic.Promise
import Descent.Proofs.Quadratic.Radius
import Descent.Proofs.Quadratic.Subproblem
import Descent.Proofs.Quantity
import Descent.Proofs.Run.Abort
import Descent.Proofs.Run.Account
import Descent.Proofs.Run.Accounted
import Descent.Proofs.Run.Alike
import Descent.Proofs.Run.Beside
import Descent.Proofs.Run.Billed
import Descent.Proofs.Run.Breaks
import Descent.Proofs.Run.Calls
import Descent.Proofs.Run.Capabilities
import Descent.Proofs.Run.Component
import Descent.Proofs.Run.Consulted
import Descent.Proofs.Run.Converged
import Descent.Proofs.Run.Cut
import Descent.Proofs.Run.Downhill
import Descent.Proofs.Run.Faithful
import Descent.Proofs.Run.Faults
import Descent.Proofs.Run.Finite
import Descent.Proofs.Run.Forward
import Descent.Proofs.Run.Fresh
import Descent.Proofs.Run.Lower
import Descent.Proofs.Run.Maintained
import Descent.Proofs.Run.Observed
import Descent.Proofs.Run.Parts
import Descent.Proofs.Run.Progress
import Descent.Proofs.Run.Radius
import Descent.Proofs.Run.Reached
import Descent.Proofs.Run.Refused
import Descent.Proofs.Run.Restart
import Descent.Proofs.Run.Target
import Descent.Proofs.Run.Truncated
import Descent.Proofs.Run.Trusting
import Descent.Proofs.Run.Twin
import Descent.Proofs.Run.Unchecked
import Descent.Proofs.Run.Unobserved
import Descent.Proofs.Scalar.Order
import Descent.Proofs.Scalar.Reduction
import Descent.Proofs.Scalar.Rounded
import Descent.Proofs.Scalar.Sign
import Descent.Proofs.Scalar.Whole
import Descent.Proofs.Solver.Abstains
import Descent.Proofs.Solver.Alike
import Descent.Proofs.Solver.Beside
import Descent.Proofs.Solver.Breaks
import Descent.Proofs.Solver.Faithful
import Descent.Proofs.Solver.Finite
import Descent.Proofs.Solver.Forgets
import Descent.Proofs.Solver.PaidOnce
import Descent.Proofs.Solver.Progress
import Descent.Proofs.Solver.Refusals
import Descent.Proofs.Solver.Stops
import Descent.Proofs.Solver.Trial
import Descent.Proofs.Solver.Twin
import Descent.Proofs.Space
import Descent.Proofs.State.Alike
import Descent.Proofs.State.Best
import Descent.Proofs.State.Faithful
import Descent.Proofs.State.Merge
import Descent.Proofs.State.Sound
import Descent.Proofs.State.Twin
import Descent.Quantity
import Descent.Reason
import Descent.Run.Executor
import Descent.Run.Observer
import Descent.Run.Session
import Descent.Run.Summary
import Descent.Scalar
import Descent.Settings.Config
import Descent.Settings.Laboratory
import Descent.Settings.Rig
import Descent.Settings.State
import Descent.Settings.StoredArray
import Descent.Solver.Basic
import Descent.Solver.ConjugateGradient
import Descent.Solver.NewtonCG
import Descent.Solver.Scripted
import Descent.Solver.SteepestDescent
import Descent.Solver.TrustRegion
import Descent.Space
import Descent.State
import Descent.Subproblem.Cauchy
import Descent.Subproblem.Dogleg
import Descent.Subproblem.Region
import Descent.Tensor.Basic
import Descent.Tensor.OfValue
import Descent.Tensor.Optional
import Descent.Tensor.Solve
import Descent.Text.Alphanumeric
import Descent.Text.Character
import Descent.Text.Numeral
import Descent.Text.Printable
import Descent.Text.Quoted
import Descent.Value
