import Descent.Fault

/-!
# Quantities kept as they are given

A count, a cost or a setting is kept as the value it was given, and whether it is a number shows
only when it is compared or computed with.  On numbers the operations below are those of `Number`;
of other values only texts are ordered, and everything else is refused by its kind.
-/

namespace Descent.Value

variable {R : Type} [Scalar R]

/-- A value to compare and compute with. -/
def toNumber (v : Value R) : Except (Fault R) (Number R) :=
  match v.number? with
  | some n => .ok n
  | none => .error .wrongType

/-- Two values compared: as numbers, or as texts. -/
def compareBy (symbol : String) (numbers : Number R → Number R → Bool)
    (texts : String → String → Bool) (a b : Value R) : Except (Fault R) Bool :=
  match a, b with
  | .text s, .text t => .ok (texts s t)
  | a, b =>
    match a.number?, b.number? with
    | some m, some n => .ok (numbers m n)
    | _, _ => .error (.wrongType (.unordered symbol a.typeName b.typeName))

/-- Whether a value lies strictly below another one. -/
def lt (a b : Value R) : Except (Fault R) Bool :=
  compareBy "<" Number.lt (fun s t => decide (s < t)) a b

/-- Whether a value lies strictly above another one. -/
def gt (a b : Value R) : Except (Fault R) Bool :=
  compareBy ">" (fun m n => n.lt m) (fun s t => decide (t < s)) a b

/-- Whether a value lies at or below another one. -/
def le (a b : Value R) : Except (Fault R) Bool :=
  compareBy "<=" Number.le (fun s t => decide (s ≤ t)) a b

/-- Whether a value lies at or above another one. -/
def ge (a b : Value R) : Except (Fault R) Bool :=
  compareBy ">=" (fun m n => n.le m) (fun s t => decide (t ≤ s)) a b

/-- Whether two values are the same: equal as numbers, or alike. -/
def same [BEq R] (a b : Value R) : Bool :=
  match a.number?, b.number? with
  | some m, some n => m.same n
  | _, _ => a == b

/-- The next integer, or the value one higher; `symbol` is how the refusal calls the operation. -/
def succ (symbol : String) (v : Value R) : Except (Fault R) (Value R) :=
  match v, v.number? with
  | _, some n => .ok (ofNumber n.succ)
  | .list _, _ =>
    .error (.wrongType (if symbol = "+=" then .notListed "int" else .unjoined v.typeName "int"))
  | .text _, _ => .error (.wrongType (.unjoined v.typeName "int"))
  | _, none => .error (.wrongType (.uncombined symbol v.typeName "int"))

/-- Two values combined as numbers; `symbol` is how the refusal calls the operation. -/
def combineBy (symbol : String) (f : Number R → Number R → Except (Fault R) (Number R))
    (a b : Value R) : Except (Fault R) (Value R) :=
  match a.number?, b.number? with
  | some m, some n => do return ofNumber (← f m n)
  | _, _ => .error (.wrongType (.uncombined symbol a.typeName b.typeName))

/-- The sum of two values. -/
def add (a b : Value R) : Except (Fault R) (Value R) := combineBy "+" Number.add a b

/-- The difference of two values. -/
def sub (a b : Value R) : Except (Fault R) (Value R) := combineBy "-" Number.sub a b

/-- The product of two values. -/
def mul (a b : Value R) : Except (Fault R) (Value R) := combineBy "*" Number.mul a b

/-- A value converted to a measured value; texts are read. -/
def toReal (v : Value R) : Except (Fault R) R :=
  match v, v.number? with
  | _, some n => n.toReal
  | .text s, none =>
    match Scalar.ofText? s with
    | some x => .ok x
    | none => .error (.wrongValue (.unreadable s))
  | _, none => .error (.wrongType (.notMeasured v.typeName))

/-- A number as a measured value; an integer may be too large to be one. -/
def measured (v : Value R) : Except (Fault R) R :=
  match v.number? with
  | some n => n.toReal
  | none => .error (.wrongType (.notReal v.typeName))

/-- Whether a value is the unknown one. -/
def isNaN (v : Value R) : Except (Fault R) Bool := do return Scalar.isNaN (← v.measured)

/-- Whether a value is finite. -/
def isFinite (v : Value R) : Except (Fault R) Bool := do return Scalar.isFinite (← v.measured)

/-- Whether a measured value is a whole multiple of another one.  The unknown value is none, and
of an infinite one only zero is. -/
def isMultipleOfReal (x period : R) : Except (Fault R) Bool :=
  if Scalar.isZero period then .error .divisionByZero
  else if !Scalar.isFinite x || Scalar.isNaN period then .ok false
  else if Scalar.isFinite period then .ok (Scalar.isMultiple x period)
  else .ok (Scalar.isZero x)

/-- Whether a value is a whole multiple of a period, which must not be zero. -/
def isMultipleOf (v period : Value R) : Except (Fault R) Bool :=
  match v.number?, period.number? with
  | some (.int n), some (.int k) =>
    if k = 0 then .error .divisionByZero else .ok (n % k == 0)
  | some m, some n => do isMultipleOfReal (← m.toReal) (← n.toReal)
  | _, _ => .error (.wrongType (.uncombined "%" v.typeName period.typeName))

end Descent.Value
