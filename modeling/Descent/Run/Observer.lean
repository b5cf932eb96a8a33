import Descent.State

/-!
# Reports and observers

A run reports each of its turns as an `Event`; how events become lines of text, and which of them
are written at all, is decided elsewhere (`Descent.Logging`).

An observer is told of iterations as they complete and answers with what it reports; it is given
a copy of the state and has no way to change the run.  When it is told is decided by its mode
(`ObserverMode.wants`).
-/

namespace Descent

/-- A turn of a run, as it is reported. -/
inductive Event (R : Type) where
  | started (solver : String) (ceiling : Value R)
  | iterated (iteration cost best : Value R) (reason : Reason)
  | finished (solver : String) (iterations : Value R) (reason : Reason) (best : Value R)
  | aborted (solver : String) (iteration : Value R) (fault : Fault R)
  | observerFailed (observer : String) (iteration : Value R) (fault : Fault R)
  /-- The line of a logging observer, at a level of its own. -/
  | summary (level iteration cost best : Value R) (kv : List (String × Value R))

/-- When an observer is notified. -/
inductive ObserverMode where
  | always
  | never
  | every
  | newBest
  deriving DecidableEq, Repr, Inhabited

namespace ObserverMode

/-- The mode of a name. -/
def ofLabel? (text : String) : Option ObserverMode :=
  if text == "always" then some always
  else if text == "never" then some never
  else if text == "every" then some every
  else if text == "new_best" then some newBest
  else none

/-- Whether an observer of this mode is notified of an iteration; `period` matters to `every`
only, and cannot be zero there. -/
def wants {R : Type} [Scalar R] (mode : ObserverMode) (period iteration : Value R)
    (newBest : Bool) : Except (Fault R) Bool :=
  match mode with
  | always => .ok true
  | never => .ok false
  | every => iteration.isMultipleOf period
  | ObserverMode.newBest => .ok newBest

end ObserverMode

/-- What is told of the iterations of a run. -/
structure Observer (R V M : Type) [Scalar R] where
  /-- How the observer is shown when it fails. -/
  label : String
  /-- What the observer reports on an iteration, and the fault with which it fails, if it does. -/
  notify : State R V M → Value R → List (Event R) × Option (Fault R)

/-- An observer with when to notify it. -/
structure ObserverEntry (R V M : Type) [Scalar R] where
  observer : Observer R V M
  mode : ObserverMode := .always
  period : Value R := .int 1

/-- A notification that was made: the position of the observer among those added, the iteration
and the state it was given. -/
structure Notice (R V M : Type) [Scalar R] where
  position : Nat
  iteration : Value R
  snapshot : State R V M

namespace Observer

variable {R V M : Type} [Scalar R]

/-- The observer that keeps the states it is given: what it was told of is what it holds. -/
def history : Observer R V M := ⟨"HistoryObserver", fun _ _ => ([], none)⟩

/-- The observer that reports a summary of each iteration at a level. -/
def logging (level : Value R) : Observer R V M where
  label := "LoggingObserver"
  notify := fun s iteration => ([.summary level iteration s.cost s.bestCost s.kv], none)

end Observer

end Descent
