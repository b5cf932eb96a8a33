import Descent.Decimal.Layout
import Descent.Fault

/-!
# The messages of faults

`Fault.message` is the text a fault carries, if it carries one: those detected in the values of a
call do not.  `Fault.line` is the fault as one line of a log.
-/

namespace Descent

/-- The version every document names. -/
def documentVersion : String := "iterconduit-json-1.0"

/-- A value as it is written into a line. -/
def Value.line (v : Value Float) : String := v.plain Binary.text

/-- A number as text. -/
def Number.text : Number Float → String
  | .int n => toString n
  | .real x => Binary.text x

/-- The name of a kind of document. -/
def DocumentKind.label : DocumentKind → String
  | .state => "state"
  | .solver => "solver"

namespace Shapes

/-- A shape in parentheses, a single length being followed by a comma. -/
def tuple (ns : List Nat) : String :=
  "(" ++ ", ".intercalate (ns.map toString) ++ (if ns.length = 1 then ",)" else ")")

/-- A shape in parentheses without blanks. -/
def denseTuple (ns : List Nat) : String :=
  "(" ++ ",".intercalate (ns.map toString) ++ (if ns.length = 1 then ",)" else ")")

/-- The lengths of a shape between crosses. -/
def crossed (ns : List Nat) : String := "x".intercalate (ns.map toString)

/-- The lengths of the last axis, and of the one before it or one, of the two factors of a product
of matrices. -/
def inside (left right : List Nat) : Nat × Nat :=
  (left.getLastD 0, if right.length = 1 then right.getLastD 0 else right.reverse.getD 1 0)

/-- The last axis, counted from `axis` down, at which two shapes do not fit, with its lengths; the
shapes are given from their last axes on. -/
def lastMisfit : Nat → List Nat → List Nat → Option (Nat × Nat × Nat)
  | axis, m :: s, n :: t =>
    if m = n ∨ m = 1 ∨ n = 1 then lastMisfit (axis - 1) s t else some (axis, m, n)
  | _, _, _ => none

/-- What is wrong with the shapes of arrays put together, in the words of the first backend. -/
def arrayText (pairing : Pairing) (left right : List Nat) : Option String :=
  match pairing with
  | .entries =>
    some ("operands could not be broadcast together with shapes " ++ denseTuple left ++ " " ++
      denseTuple right ++ " ")
  | .inner =>
    some ("shapes " ++ tuple left ++ " and " ++ tuple right ++ " not aligned: " ++
      toString (left.headD 0) ++ " (dim 0) != " ++ toString (right.headD 0) ++ " (dim 0)")
  | .product =>
    let signature := "gufunc signature (n?,k),(k,m?)->(n?,m?)"
    let core := "gufunc core with signature (n?,k),(k,m?)->(n?,m?)"
    let flat (operand : Nat) :=
      "matmul: Input operand " ++ toString operand ++ " does not have enough dimensions (has 0, " ++
        core ++ " requires 1)"
    if left.isEmpty then some (flat 0)
    else if right.isEmpty then some (flat 1)
    else
      let (k, n) := inside left right
      if k = n then none
      else
        some ("matmul: Input operand 1 has a mismatch in its core dimension 0, with " ++
          signature ++ " (size " ++ toString n ++ " is different from " ++ toString k ++ ")")

/-- What is wrong with two vectors, in the words of the second backend. -/
def innerText (m n : Nat) : String :=
  "inconsistent tensor size, expected tensor [" ++ toString m ++ "] and src [" ++ toString n ++
    "] to have the same number of elements, but got " ++ toString m ++ " and " ++ toString n ++
    " elements respectively"

/-- What is wrong with two matrices, in the words of the second backend. -/
def matrixText (left right : List Nat) : String :=
  "mat1 and mat2 shapes cannot be multiplied (" ++ crossed left ++ " and " ++ crossed right ++ ")"

/-- What is wrong with the shapes of arrays put together, in the words of the second backend. -/
def tensorText (pairing : Pairing) (left right : List Nat) : Option String :=
  match pairing with
  | .entries =>
    (lastMisfit (max left.length right.length - 1) left.reverse right.reverse).map
      fun (axis, m, n) =>
        "The size of tensor a (" ++ toString m ++ ") must match the size of tensor b (" ++
          toString n ++ ") at non-singleton dimension " ++ toString axis
  | .inner => some (innerText (left.headD 0) (right.headD 0))
  | .product =>
    match left, right with
    | [], _ | _, [] =>
      some ("both arguments to matmul need to be at least 1D, but they are " ++
        toString left.length ++ "D and " ++ toString right.length ++ "D")
    | [m], [n] => some (innerText m n)
    | [m, k], [n] =>
      some ("size mismatch, got input (" ++ toString m ++ "), mat (" ++ crossed [m, k] ++
        "), vec (" ++ toString n ++ ")")
    | [k], [n, m] => some (matrixText [1, k] [n, m])
    | [m, k], [n, l] => some (matrixText [m, k] [n, l])
    | _, _ => none

end Shapes

/-- What the kinds of faults that are not made of a text alone ask for. -/
def Detail.demands : List (String × String) := [
  ("CapabilityError",
    "CapabilityError.__init__() missing 1 required positional argument: 'missing'"),
  ("UnicodeDecodeError", "function takes exactly 5 arguments (1 given)"),
  ("UnicodeEncodeError", "function takes exactly 5 arguments (1 given)"),
  ("UnicodeTranslateError", "function takes exactly 4 arguments (1 given)"),
  ("ExceptionGroup", "BaseExceptionGroup.__new__() takes exactly 2 arguments (1 given)"),
  ("BaseExceptionGroup", "BaseExceptionGroup.__new__() takes exactly 2 arguments (1 given)")]

/-- A detail in words, if there is anything to say. -/
def Detail.text : Detail Float → Option String
  | .unsaid => none
  | .unordered symbol left right =>
    some ("'" ++ symbol ++ "' not supported between instances of '" ++ left ++ "' and '" ++
      right ++ "'")
  | .uncombined symbol left right =>
    some ("unsupported operand type(s) for " ++ symbol ++ ": '" ++ left ++ "' and '" ++ right ++
      "'")
  | .unjoined left right =>
    some ("can only concatenate " ++ left ++ " (not \"" ++ right ++ "\") to " ++ left)
  | .notReal typeName => some ("must be real number, not " ++ typeName)
  | .notMeasured typeName =>
    some ("float() argument must be a string or a real number, not '" ++ typeName ++ "'")
  | .notWhole typeName =>
    some ("'" ++ typeName ++ "' object cannot be interpreted as an integer")
  | .notListed typeName => some ("'" ++ typeName ++ "' object is not iterable")
  | .notMatrix typeName =>
    some ("linalg_solve(): argument 'A' (position 1) must be Tensor, not " ++ typeName)
  | .unmade kind => List.lookup kind Detail.demands
  | .unreadable text => some ("could not convert string to float: " ++ Text.quoted text)
  | .notReason value => some (value.shown Binary.text ++ " is not a valid TerminationReason")
  | .lacks typeName member =>
    some ("'" ++ typeName ++ "' object has no attribute '" ++ member ++ "'")
  | .powerRange => some "(34, 'Numerical result out of range')"
  | .integerRange => some "int too large to convert to float"
  | .rootRange => some "math domain error"
  | .unconverged => some "SVD did not converge in Linear Least Squares"
  | .shapes pairing left right => Shapes.arrayText pairing left right

namespace Fault

/-- A value as it is shown in a message. -/
def shown (v : Value Float) : String := v.shown Binary.text

/-- The text of a fault that has one. -/
def message : Fault Float → Option String
  | .paramMissing => some "An initial parameter vector is required."
  | .ceilingNegative => some "max_iters must be non-negative."
  | .targetUnknown => some "target_cost must not be NaN."
  | .configuredLate => some "Executor can only be configured before it runs."
  | .runTwice => some "Executor.run() can only be called once."
  | .observerPeriod => some "every must be at least 1."
  | .nothingRequired solver =>
    some ("Solver " ++ Text.quoted solver ++ " declares no required capabilities.")
  | .missingCapabilities solver missing =>
    some ("Solver " ++ shown solver ++
      " requires operator capabilities that are not implemented: " ++
      ", ".intercalate missing ++ ".")
  | .sufficientDecreaseRange => some "Armijo constant c must lie in (0, 1)"
  | .shrinkRange => some "rho must lie in (0, 1)"
  | .firstStepSign => some "alpha0 must be positive"
  | .wolfeOrder => some "Require 0 < c1 < c2 < 1 for Wolfe conditions."
  | .gradientToleranceSign => some "tol_grad must be non-negative."
  | .tolerancesSign => some "Tolerances must be non-negative."
  | .initialRadius => some "radius must be positive and finite."
  | .radiusBound => some "max_radius must be at least the initial radius."
  | .acceptanceRange => some "eta must lie in [0, 0.25)."
  | .notDescent => some "Search direction must be a descent direction."
  | .differenceStep => some "eps must be positive"
  | .radiusRefused radius =>
    some ("Trust-region radius must be positive and finite, got " ++ Binary.text radius ++ ".")
  | .subproblemUnset solver =>
    some (solver ++ " requires radius, gradient and Hessian to be set.")
  | .notFinite what value =>
    some (what ++ " is not finite: " ++ (value.map Number.text).getD "<array>")
  | .iterationNegative n => some ("Iteration counter is negative: " ++ n.line ++ ".")
  | .iterationBeyond n ceiling =>
    some ("Iteration counter " ++ n.line ++ " exceeds the ceiling " ++ ceiling.line ++ ".")
  | .iterationSkipped before after =>
    some ("Iteration counter advanced from " ++ before.line ++ " to " ++ after.line ++ ".")
  | .costBelowBest cost best =>
    some ("Current cost " ++ cost.line ++ " is below the best cost " ++ best.line ++ ".")
  | .bestIncreased before after =>
    some ("Best cost increased from " ++ before.line ++ " to " ++ after.line ++ ".")
  | .bestWithoutParam => some "A best cost is recorded without a best parameter."
  | .notADocument .state => some "State document must be a JSON object."
  | .notADocument .solver => some "Solver document must be a JSON object."
  | .version found =>
    some ("Unsupported version " ++ shown found ++ ", expected " ++
      Text.quoted documentVersion ++ ".")
  | .wrongKind expected found =>
    some ("Expected a " ++ expected.label ++ " document, got kind " ++ shown found ++ ".")
  | .fieldMissing field => some ("Missing required field '" ++ field ++ "'.")
  | .fieldNotNumber field => some ("Field '" ++ field ++ "' must be a number.")
  | .fieldNotCount field => some ("Field '" ++ field ++ "' must be a non-negative integer.")
  | .fieldNotArray field => some ("Field '" ++ field ++ "' must be an encoded array or null.")
  | .arrayKeyMissing field key =>
    some ("Encoded array '" ++ field ++ "' is missing '" ++ key ++ "'.")
  | .arrayBackend field found =>
    some ("Encoded array '" ++ field ++ "' has unknown backend " ++ shown found ++ ".")
  | .arrayShape field found =>
    some ("Encoded array '" ++ field ++ "' has an invalid shape " ++ shown found ++ ".")
  | .arraySize field found expected =>
    some ("Encoded array '" ++ field ++ "' has " ++ toString found ++ " entries, expected " ++
      toString expected ++ ".")
  | .reasonUnknown found => some ("Unknown termination reason " ++ shown found ++ ".")
  | .timeNotNumber => some "Field 'time' must be a number or null."
  | .diagnosticsNotObject => some "Field 'kv' must be an object."
  | .solverTypeMissing => some "Solver document requires a string 'type'."
  | .solverParamsMissing => some "Solver document requires a 'params' object."
  | .solverTypeUnknown name => some ("Unknown solver type " ++ Text.quoted name ++ ".")
  | .notEncodable typeName =>
    some ("Cannot encode value of type " ++ typeName ++
      "; only NumPy arrays and torch tensors are supported.")
  | .noCodec typeName => some ("No JSON codec registered for " ++ typeName ++ ".")
  | .raised "KeyError" text => some (Text.quoted text)
  | .raised _ text => some text
  | .wrongType _ | .wrongValue _ | .wrongShape _ | .missingKey | .missingAttribute _
  | .missingItem | .outOfRange _ | .divisionByZero | .singular _ | .malformedText
  | .exhausted => none

/-- What a log says of a fault that has no text. -/
def remark : Fault Float → Option String
  | .wrongShape (.shapes pairing left right) => Shapes.tensorText pairing left right
  | .wrongType d | .wrongValue d | .wrongShape d | .missingAttribute d | .outOfRange d
  | .singular d => d.text
  | .missingItem => some "list index out of range"
  | .divisionByZero => some "float division by zero"
  | _ => none

/-- A fault as one line of a log. -/
def line (f : Fault Float) : String :=
  f.kind ++ ((f.message.or f.remark).map (": " ++ ·)).getD ""

end Fault

end Descent
