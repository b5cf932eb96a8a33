import Descent.Fault.Message
import Descent.Logging.Registry
import Descent.Run.Observer

/-!
# Events as log records

What a run reports, as the records that its loggers are given.
-/

namespace Descent

/-- A value as a count in a line; what is no number and what is not finite is none. -/
def Value.countText? (v : Value Float) : Option String :=
  match v.number? with
  | some n => if n.isFinite then some (toString n.truncate) else none
  | none => none

/-- A value in a summary: six significant digits of a measured value. -/
def Value.briefText : Value Float → String
  | .real x => Binary.briefText x
  | v => v.line

namespace Event

/-- The message of a summary. -/
def summaryMessage (iteration cost best : Value Float) (kv : List (String × Value Float)) :
    Option String := do
  let extra := " ".intercalate (kv.map fun f => f.1 ++ "=" ++ f.2.briefText)
  return "iter " ++ (← iteration.countText?) ++ ": cost=" ++ cost.briefText ++ " best_cost=" ++
    best.briefText ++ " " ++ extra

/-- The record of an event, if it can be put into words; a summary at what is no level is never
recorded. -/
def record? : Event Float → Option LogRecord
  | started solver ceiling => do
    return ⟨Registry.executorName, ⟨20, false⟩,
      .text ("Starting " ++ solver ++ " (max_iters=" ++ (← ceiling.countText?) ++ ")"), none⟩
  | iterated iteration cost best reason => do
    return ⟨Registry.executorName, ⟨10, false⟩,
      .text ("iter " ++ (← iteration.countText?) ++ ": cost=" ++ cost.line ++ " best_cost=" ++
        best.line ++ " reason=" ++ reason.label), none⟩
  | finished solver iterations reason best => do
    return ⟨Registry.executorName, ⟨20, false⟩,
      .text (solver ++ " finished after " ++ (← iterations.countText?) ++ " iterations: " ++
        reason.message ++ " (best cost " ++ best.line ++ ")"), none⟩
  | aborted solver iteration fault => do
    return ⟨Registry.executorName, warningLevel,
      .text (solver ++ " aborted at iteration " ++ (← iteration.countText?)), some fault.line⟩
  | observerFailed observer iteration fault => do
    return ⟨Registry.executorName, ⟨40, false⟩,
      .text ("Observer " ++ observer ++ " failed at iteration " ++ (← iteration.countText?)),
      some fault.line⟩
  | summary level iteration cost best kv => do
    return ⟨Registry.observersName, ← Rank.ofValue? level,
      .text (← summaryMessage iteration cost best kv), none⟩

end Event

namespace Registry

/-- The text written for events in the order in which they were reported. -/
def writeEvents (g : Registry) (events : List (Event Float)) : String :=
  String.join (events.map fun e => (e.record?.map g.write).getD "")

end Registry

end Descent
