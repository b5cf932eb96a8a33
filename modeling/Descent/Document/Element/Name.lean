import Descent.Document.Element

/-!
# Names of entry types

Each backend knows the types of array entries by names of its own.  In the first one a type may
also be named by a letter, or by a letter and the bytes of an entry, and the order of the bytes
put before it: `"f8"`, `">i4"`, `"U12"`.
-/

namespace Descent.ElementType

/-- The integer types. -/
def integers : List ElementType :=
  [8, 16, 32, 64].flatMap fun bits => [integer true bits, integer false bits]

/-- The types that both backends know by their own names. -/
def common : List ElementType :=
  bool :: integers ++ [floating 16, floating 32, floating 64, complex 64, complex 128]

/-- The types of one letter. -/
def letters : List (Char × ElementType) := [
  ('?', bool), ('b', integer true 8), ('B', integer false 8), ('h', integer true 16),
  ('H', integer false 16), ('i', integer true 32), ('I', integer false 32),
  ('l', integer true 64), ('L', integer false 64), ('q', integer true 64),
  ('Q', integer false 64), ('p', integer true 64), ('P', integer false 64),
  ('n', integer true 64), ('N', integer false 64), ('e', floating 16), ('f', floating 32),
  ('d', floating 64), ('g', floating 128), ('F', complex 64), ('D', complex 128),
  ('G', complex 256), ('O', object), ('S', bytes 0), ('U', text 0), ('c', bytes 1), ('V', raw),
  ('M', raw), ('m', raw)]

/-- The type of a letter and a number of bytes, or of characters in a text. -/
def sized? (letter : Char) (size : Nat) : Option ElementType :=
  match letter with
  | 'b' => if size = 1 then some bool else none
  | 'i' => if [1, 2, 4, 8].contains size then some (integer true (8 * size)) else none
  | 'u' => if [1, 2, 4, 8].contains size then some (integer false (8 * size)) else none
  | 'f' => if [2, 4, 8, 16].contains size then some (floating (8 * size)) else none
  | 'c' => if [8, 16, 32].contains size then some (complex (8 * size)) else none
  | 'O' => if [4, 8].contains size then some object else none
  | 'M' | 'm' => if size = 8 then some raw else none
  | 'S' => some (bytes size)
  | 'U' => some (text size)
  | 'V' => some raw
  | _ => none

/-- The type of a letter, or of a letter and a number. -/
def ofLetters? : List Char → Option ElementType
  | [] => none
  | [c] => List.lookup c letters
  | c :: '+' :: ds | c :: ds =>
    if !ds.isEmpty && ds.all Text.isDigit then
      sized? c (Decimal.ofDigits (ds.map Text.digitValue))
    else none

/-- Whether the entries of a type have bytes that can be kept in either order. -/
def hasOrder : ElementType → Bool
  | integer _ bits => bits != 8
  | floating _ | complex _ | text _ => true
  | _ => false

/-- The units of points in time and of durations. -/
def timeUnits : List String :=
  ["Y", "M", "W", "D", "h", "m", "s", "ms", "us", "ns", "ps", "fs", "as", "generic"]

/-- Whether letters name a point in time or a duration in some number of a unit. -/
def isTime (cs : List Char) : Bool :=
  ["M8[", "m8[", "datetime64[", "timedelta64["].any fun start =>
    start.toList.isPrefixOf cs && cs.getLast? == some ']' &&
      timeUnits.contains
        (String.ofList (((cs.drop start.length).dropLast).dropWhile Text.isDigit))

/-- The type of letters that an order of bytes may precede. -/
def ofCode? : List Char → Option ElementType
  | '>' :: cs => (ofLetters? cs).map fun t => if t.hasOrder then swapped t else t
  | '<' :: cs | '=' :: cs | '|' :: cs => ofLetters? cs
  | cs => if isTime cs then some raw else ofLetters? cs

/-- Names of types in the first backend that are not common ones. -/
def numpyNames : List (String × ElementType) := [
  ("bool_", bool), ("byte", integer true 8), ("ubyte", integer false 8),
  ("short", integer true 16), ("ushort", integer false 16), ("intc", integer true 32),
  ("uintc", integer false 32), ("int", integer true 64), ("uint", integer false 64),
  ("int_", integer true 64), ("intp", integer true 64), ("uintp", integer false 64),
  ("long", integer true 64), ("ulong", integer false 64), ("longlong", integer true 64),
  ("ulonglong", integer false 64), ("half", floating 16), ("single", floating 32),
  ("double", floating 64), ("float", floating 64), ("longdouble", floating 128),
  ("float128", floating 128), ("csingle", complex 64), ("cdouble", complex 128),
  ("complex", complex 128), ("clongdouble", complex 256), ("complex256", complex 256),
  ("object", object), ("object_", object), ("str", text 0), ("str_", text 0),
  ("unicode", text 0), ("bytes", bytes 0), ("bytes_", bytes 0), ("a", bytes 0), ("void", raw),
  ("datetime64", raw), ("timedelta64", raw)]

/-- Names of types in the second backend that are not common ones. -/
def torchNames : List (String × ElementType) :=
  NarrowFormat.all.map (fun f => (f.label, narrow f)) ++ [
    ("half", floating 16), ("float", floating 32), ("double", floating 64), ("bfloat16", brain),
    ("short", integer true 16), ("int", integer true 32), ("long", integer true 64),
    ("cfloat", complex 64), ("cdouble", complex 128), ("chalf", complex 32),
    ("complex32", complex 32)]

/-- Names in the second backend of what is no type. -/
def torchOthers : List String := [
  "tensor", "dtype", "Tensor", "nn", "ones", "zeros", "empty", "full", "eye", "arange", "linspace",
  "rand", "randn", "device", "cuda", "cpu", "layout", "strided", "Size", "optim", "utils",
  "linalg", "random", "jit", "add", "sub", "mul", "div", "matmul", "dot", "norm", "sum", "mean",
  "max", "min", "abs", "sqrt", "exp", "log", "sin", "cos", "tan", "inf", "nan", "pi", "e",
  "is_tensor", "no_grad", "save", "load", "manual_seed", "stack", "cat", "where", "finfo", "iinfo",
  "typename", "types", "functional", "Generator", "FloatTensor", "DoubleTensor", "LongTensor",
  "float_power", "bool_", "any", "all", "version", "__name__", "__version__", "__doc__"]

/-- The type the first backend knows by a name. -/
def ofNumpyName? (text : String) : Option ElementType :=
  (common.find? (·.label == text)).or ((List.lookup text numpyNames).or (ofCode? text.toList))

/-- The type the second backend knows by a name; a name of nothing there is told from a name of
something else. -/
def ofTorchName (text : String) : Except (Fault Float) ElementType :=
  match (common.find? (·.label == text)).or (List.lookup text torchNames) with
  | some t => .ok t
  | none => .error (if torchOthers.contains text then .wrongType else .missingAttribute)

/-- The type a backend knows by a name. -/
def ofName (backend : Backend) (text : String) : Except (Fault Float) ElementType :=
  match backend with
  | .torch => ofTorchName text
  | .numpy =>
    match ofNumpyName? text with
    | some t => .ok t
    | none => .error .wrongType

end Descent.ElementType
