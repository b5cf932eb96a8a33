/-!
# Why a run stopped

Every reason but `Reason.notTerminated` is final.
-/

namespace Descent

/-- Why a run stopped, if it did. -/
inductive Reason where
  | notTerminated
  | maxItersReached
  | targetCostReached
  | converged
  | aborted
  deriving DecidableEq, Repr, Inhabited

namespace Reason

/-- Every reason. -/
def all : List Reason := [notTerminated, maxItersReached, targetCostReached, converged, aborted]

/-- Whether the reason is final. -/
def isTerminal : Reason → Bool
  | notTerminated => false
  | _ => true

/-- The reason as it is written in a document. -/
def label : Reason → String
  | notTerminated => "not_terminated"
  | maxItersReached => "max_iters_reached"
  | targetCostReached => "target_cost_reached"
  | converged => "converged"
  | aborted => "aborted"

/-- The reason in capitals. -/
def title : Reason → String
  | notTerminated => "NOT_TERMINATED"
  | maxItersReached => "MAX_ITERS_REACHED"
  | targetCostReached => "TARGET_COST_REACHED"
  | converged => "CONVERGED"
  | aborted => "ABORTED"

/-- The reason in a sentence. -/
def message : Reason → String
  | notTerminated => "Not terminated"
  | maxItersReached => "Maximum number of iterations reached"
  | targetCostReached => "Target cost value reached"
  | converged => "Solver converged"
  | aborted => "Aborted"

/-- The reason a document writes as `text`. -/
def ofLabel? (text : String) : Option Reason := all.find? (·.label == text)

end Reason

end Descent
