import Descent.Value

/-!
# What can go wrong

A refused call names its cause.  The causes this library detects itself each have a message of
their own (`Descent.Fault.Message`); those met in the values it is given - an operand of the
wrong type, shapes that do not fit, a number out of range - are told apart by kind, and carry no
message but a `Detail` for the log; and what an operator, a solver or an observer raises is passed
on as it is (`Fault.raised`).
-/

namespace Descent

/-- The two kinds of document. -/
inductive DocumentKind where
  | state
  | solver
  deriving DecidableEq, Repr

/-- How two arrays were to be put together. -/
inductive Pairing where
  /-- Entry by entry. -/
  | entries
  /-- In an inner product. -/
  | inner
  /-- In a product of matrices. -/
  | product
  deriving DecidableEq, Repr

/-- What a log says of values that do not fit a call. -/
inductive Detail (R : Type) where
  | unsaid
  /-- Values of two kinds that have no order. -/
  | unordered (symbol left right : String)
  /-- Values of two kinds that an operation does not take. -/
  | uncombined (symbol left right : String)
  /-- A text or a list, and something else to be put after it. -/
  | unjoined (left right : String)
  /-- A value of a kind that is no number. -/
  | notReal (typeName : String)
  /-- A value of a kind that stands for no number. -/
  | notMeasured (typeName : String)
  /-- A value of a kind that stands for no integer. -/
  | notWhole (typeName : String)
  /-- A value of a kind that has no items. -/
  | notListed (typeName : String)
  /-- Something that is no array where a system wants its matrix. -/
  | notMatrix (typeName : String)
  /-- A fault of a kind that is not made of a text alone. -/
  | unmade (kind : String)
  /-- A text that stands for no number. -/
  | unreadable (text : String)
  /-- A value that is no reason to stop. -/
  | notReason (value : Value R)
  /-- A value of a kind that has nothing of a name. -/
  | lacks (typeName member : String)
  /-- A power beyond the range of measured values. -/
  | powerRange
  /-- An integer beyond the range of measured values. -/
  | integerRange
  /-- A root of a negative number. -/
  | rootRange
  /-- A decomposition that did not converge. -/
  | unconverged
  /-- Arrays of shapes that cannot be put together. -/
  | shapes (pairing : Pairing) (left right : List Nat)
  deriving Repr

/-- Why a call was refused. -/
inductive Fault (R : Type) where
  -- run configuration
  | paramMissing
  | ceilingNegative
  | targetUnknown
  | configuredLate
  | runTwice
  | observerPeriod
  | nothingRequired (solver : String)
  | missingCapabilities (solver : Value R) (missing : List String)
  -- constructors of methods
  | sufficientDecreaseRange
  | shrinkRange
  | firstStepSign
  | wolfeOrder
  | gradientToleranceSign
  | tolerancesSign
  | initialRadius
  | radiusBound
  | acceptanceRange
  -- steps
  | notDescent
  | differenceStep
  | radiusRefused (radius : R)
  | subproblemUnset (solver : String)
  | notFinite (what : String) (value : Option (Number R))
  -- state invariants
  | iterationNegative (iteration : Value R)
  | iterationBeyond (iteration ceiling : Value R)
  | iterationSkipped (before after : Value R)
  | costBelowBest (cost best : Value R)
  | bestIncreased (before after : Value R)
  | bestWithoutParam
  -- documents
  | notADocument (kind : DocumentKind)
  | version (found : Value R)
  | wrongKind (expected : DocumentKind) (found : Value R)
  | fieldMissing (field : String)
  | fieldNotNumber (field : String)
  | fieldNotCount (field : String)
  | fieldNotArray (field : String)
  | arrayKeyMissing (field key : String)
  | arrayBackend (field : String) (found : Value R)
  | arrayShape (field : String) (found : Value R)
  | arraySize (field : String) (found : Nat) (expected : Int)
  | reasonUnknown (found : Value R)
  | timeNotNumber
  | diagnosticsNotObject
  | solverTypeMissing
  | solverParamsMissing
  | solverTypeUnknown (name : String)
  | notEncodable (typeName : String)
  | noCodec (typeName : String)
  -- values that do not fit the call
  | wrongType (detail : Detail R := .unsaid)
  | wrongValue (detail : Detail R := .unsaid)
  | wrongShape (detail : Detail R := .unsaid)
  | missingKey
  | missingAttribute (detail : Detail R := .unsaid)
  | missingItem
  | outOfRange (detail : Detail R := .unsaid)
  | divisionByZero
  | singular (detail : Detail R := .unsaid)
  | malformedText
  -- from outside
  | raised (kind message : String)
  | exhausted
  deriving Repr

namespace Fault

variable {R : Type}

/-- The name of the kind of a fault, by which callers tell faults apart. -/
def kind : Fault R → String
  | .missingCapabilities _ _ => "CapabilityError"
  | .notFinite _ _ => "NumericalError"
  | .configuredLate | .runTwice | .wrongShape _ => "RuntimeError"
  | .notEncodable _ | .noCodec _ | .wrongType _ => "TypeError"
  | .missingKey => "KeyError"
  | .missingAttribute _ => "AttributeError"
  | .missingItem => "IndexError"
  | .outOfRange _ => "OverflowError"
  | .divisionByZero => "ZeroDivisionError"
  | .singular _ => "LinAlgError"
  | .malformedText => "JSONDecodeError"
  | .exhausted => "Exhausted"
  | .raised kind _ => kind
  | _ => "ValueError"

/-- The refusal of an operator that lacks capabilities, which are named in order. -/
def lacking (solver : Value R) (missing : List String) : Fault R :=
  .missingCapabilities solver (missing.mergeSort fun a b => decide (a ≤ b))

/-- The kinds of what is raised that interrupt a run. -/
def interruptKinds : List String :=
  ["KeyboardInterrupt", "SystemExit", "GeneratorExit", "BaseException"]

/-- Whether a fault interrupts a run at once, without the run recording it as a failure. -/
def isInterrupt : Fault R → Bool
  | .raised kind _ => interruptKinds.contains kind
  | .exhausted => true
  | _ => false

end Fault

variable {R : Type} [Scalar R]

/-- A number as a value of the arithmetic; an integer may be too large to be one. -/
def Number.toReal : Number R → Except (Fault R) R
  | .real x => .ok x
  | .int n =>
    match Scalar.ofInt? n with
    | some x => .ok x
    | none => .error (.outOfRange .integerRange)

/-- Two numbers combined: exactly if they are integers, as measured values otherwise. -/
def Number.combine (whole : Int → Int → Int) (measured : R → R → R) :
    Number R → Number R → Except (Fault R) (Number R)
  | .int m, .int n => .ok (.int (whole m n))
  | a, b => do
    let x ← a.toReal
    let y ← b.toReal
    return .real (measured x y)

/-- The sum of two numbers. -/
def Number.add (a b : Number R) : Except (Fault R) (Number R) := combine (· + ·) (· + ·) a b

/-- The difference of two numbers. -/
def Number.sub (a b : Number R) : Except (Fault R) (Number R) := combine (· - ·) (· - ·) a b

/-- The product of two numbers. -/
def Number.mul (a b : Number R) : Except (Fault R) (Number R) := combine (· * ·) (· * ·) a b

/-- The number without its sign. -/
def Number.magnitude : Number R → Number R
  | .int n => .int n.natAbs
  | .real x => .real (Scalar.magnitude x)

/-- The quotient of two values; there is none by zero. -/
def Scalar.quotient (x y : R) : Except (Fault R) R :=
  if Scalar.isZero y then .error .divisionByZero else .ok (x / y)

/-- A power computed as `y` from the base `x`: refused if it leaves the range the base is in. -/
def Scalar.power (x y : R) : Except (Fault R) R :=
  if Scalar.isFinite x && !Scalar.isFinite y then .error (.outOfRange .powerRange) else .ok y

/-- The square of a value. -/
def Scalar.square (x : R) : Except (Fault R) R := Scalar.power x (x * x)

/-- The cube of a value.  It rounds twice, where a power that is taken at once rounds once, so the
two may differ in the last bit, and at the very end of the range in whether they leave it. -/
def Scalar.cube (x : R) : Except (Fault R) R := Scalar.power x (x * x * x)

end Descent
