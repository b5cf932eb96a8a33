import Descent.Fault.Message
import Descent.Run.Executor

/-!
# The outcome of a run in words
-/

namespace Descent

/-- The lines of an outcome: who ran, the best cost and when it was met, how long it took, why it
stopped and what was evaluated. -/
def Outcome.summary {V M : Type} [Scalar Float] (o : Outcome Float V M) : List String := [
  "OptimizationResult:",
  "    solver:        " ++ o.solver,
  "    cost (best):   " ++ o.state.bestCost.line,
  "    iters (best):  " ++ o.state.lastBestIter.line,
  "    iters (total): " ++ o.state.curIter.line,
  "    termination:   " ++ o.state.reason.message,
  "    evaluations:   " ++ o.counts.text " "]

end Descent
