import Descent.Act
import Descent.Logging.Format

/-!
# Loggers

Loggers have names with dots in them; a record that a logger lets pass goes to its own handlers
and, as long as loggers propagate, to those of the loggers whose names its name extends.  A logger
of level zero takes the level of the nearest of those that has another one.

The library's loggers all lie below `iterconduit`.  `Registry.obtain` makes them with one handler
each and the settings in force; `Registry.setLevel` and `Registry.configure` change the settings
of those made before and of those made later.
-/

namespace Descent

/-- A level in force: an integer, which may have been given as a truth value. -/
structure Rank where
  number : Int
  isTruth : Bool := false
  deriving DecidableEq, Repr

/-- Where a record may be written: a level, the format of its lines unless it writes none, and the
stream that the lines go to, by its name. -/
structure Handler where
  level : Rank
  format : Option String
  stream : String
  deriving DecidableEq, Repr

/-- A logger. -/
structure Logger where
  name : String
  level : Rank := ⟨0, false⟩
  handlers : List Handler := []
  propagate : Bool := true
  deriving DecidableEq, Repr

/-- A level as it is given: one that can be in force, a text that is no level, or something
else. -/
inductive Level where
  | rank (r : Rank)
  | text
  | other
  deriving DecidableEq, Repr

/-- The level of a record that warns. -/
def warningLevel : Rank := ⟨30, false⟩

/-- The format of lines unless told otherwise. -/
def defaultFormat : String := "[%(levelname)s] %(name)s: %(message)s"

/-- The stream that lines go to unless told otherwise. -/
def defaultStream : String := "stderr"

/-- The loggers, those obtained from the library in the order in which they were, and the settings
of loggers to come. -/
structure Registry where
  loggers : List Logger := []
  cached : List String := []
  defaultLevel : Level := .rank warningLevel
  format : String := defaultFormat
  stream : String := defaultStream
  deriving Repr

namespace Rank

/-- The level in force that a value is, if it is one. -/
def ofValue? : Value Float → Option Rank
  | .int n => some ⟨n, false⟩
  | .bool b => some ⟨if b then 1 else 0, true⟩
  | _ => none

/-- A level in force as a value. -/
def toValue (r : Rank) : Value Float := if r.isTruth then .bool (r.number != 0) else .int r.number

/-- The name of a level in a line. -/
def label (r : Rank) : String :=
  if r.number = 50 then "CRITICAL"
  else if r.number = 40 then "ERROR"
  else if r.number = 30 then "WARNING"
  else if r.number = 20 then "INFO"
  else if r.number = 10 then "DEBUG"
  else if r.number = 0 then "NOTSET"
  else "Level " ++ r.toValue.plain Binary.text

end Rank

namespace Level

/-- The names of levels. -/
def names : List (String × Int) := [
  ("CRITICAL", 50), ("FATAL", 50), ("ERROR", 40), ("WARN", 30), ("WARNING", 30), ("INFO", 20),
  ("DEBUG", 10), ("NOTSET", 0)]

/-- A character in capitals, where that is a basic letter. -/
def capital (c : Char) : List Char :=
  let n := c.toNat
  if n = 0x131 then ['I']
  else if n = 0x17f then ['S']
  else if n = 0xdf then ['S', 'S']
  else if n = 0xfb00 then ['F', 'F']
  else if n = 0xfb01 then ['F', 'I']
  else if n = 0xfb02 then ['F', 'L']
  else if n = 0xfb03 then ['F', 'F', 'I']
  else if n = 0xfb04 then ['F', 'F', 'L']
  else if n = 0xfb05 || n = 0xfb06 then ['S', 'T']
  else [c.toUpper]

/-- A text in capitals. -/
def capitals (s : String) : String := String.ofList (s.toList.flatMap capital)

/-- The level that a text stands for; what is no name of a level stands for a warning. -/
def ofText (s : String) : Level :=
  let name := capitals s
  match List.lookup name names with
  | some n => .rank ⟨n, false⟩
  | none =>
    if name == "BASIC_FORMAT" then .text
    else if name == "_STYLES" then .other
    else .rank warningLevel

/-- The level that a value stands for. -/
def ofValue : Value Float → Level
  | .text s => ofText s
  | v =>
    match Rank.ofValue? v with
    | some r => .rank r
    | none => .other

/-- A level to be in force. -/
def toRank : Level → Except (Fault Float) Rank
  | rank r => .ok r
  | text => .error .wrongValue
  | other => .error .wrongType

end Level

/-- A message on its way to the handlers. -/
structure LogRecord where
  logger : String
  level : Rank
  message : Value Float
  /-- The line that tells of a fault. -/
  trace : Option String := none

/-- What the fields of a line may hold, by name. -/
def LogRecord.items (r : LogRecord) : List (String × Value Float) := [
  ("message", .text (r.message.plain Binary.text)), ("msg", r.message), ("name", .text r.logger),
  ("levelname", .text r.level.label), ("levelno", r.level.toValue), ("args", .text "()"),
  ("exc_info", .null), ("exc_text", .null), ("stack_info", .null),
  ("threadName", .text "MainThread"), ("processName", .text "MainProcess")]

/-- The text a handler writes for a record, if it can. -/
def Handler.write (h : Handler) (r : LogRecord) : String :=
  match h.format.bind (Logging.Format.apply · r.items) with
  | none => ""
  | some line =>
    let line := match r.trace with
      | none => line
      | some trace => if line.endsWith "\n" then line ++ trace else line ++ "\n" ++ trace
    line ++ "\n"

namespace Registry

/-- The name of the library's own logger. -/
def packageName : String := "iterconduit"

/-- The logger of runs. -/
def executorName : String := "iterconduit.core.executor"

/-- The logger of observers. -/
def observersName : String := "iterconduit.core.observers"

/-- The full name of one of the library's loggers. -/
def qualified : Option String → String
  | none => packageName
  | some name =>
    if name == packageName || (packageName ++ ".").isPrefixOf name then name
    else packageName ++ "." ++ name

/-- The logger of a name, if there is one. -/
def find? (g : Registry) (name : String) : Option Logger := g.loggers.find? (·.name == name)

/-- The registry with one logger changed. -/
def update (g : Registry) (name : String) (f : Logger → Logger) : Registry :=
  { g with loggers := g.loggers.map fun l => if l.name == name then f l else l }

/-- The registry with a logger of a name, made if there was none. -/
def ensure (g : Registry) (name : String) : Registry :=
  if (g.find? name).isSome then g else { g with loggers := g.loggers ++ [{ name := name }] }

/-- Set the level of a logger. -/
def setLoggerLevel (name : String) (level : Level) : Act Float Registry Unit := do
  let n ← Act.lift level.toRank
  modify fun g => g.update name fun l => { l with level := n }

/-- Add a handler with the format and the stream in force to a logger. -/
def addHandler (name : String) (level : Level) : Act Float Registry Unit := do
  let n ← Act.lift level.toRank
  let format := (← get).format
  if !Logging.Format.isValid format then throw .wrongValue
  let handler : Handler := ⟨n, some format, (← get).stream⟩
  modify fun g => g.update name fun l => { l with handlers := l.handlers ++ [handler] }

/-- One of the library's loggers, made with the settings in force unless it has handlers
already. -/
def obtain (name : Option String) : Act Float Registry Logger := do
  let name := qualified name
  if !(← get).cached.contains name then
    modify fun g => g.ensure name
    let bare := match (← get).find? name with
      | some l => l.handlers.isEmpty
      | none => true
    if bare then
      let level := (← get).defaultLevel
      setLoggerLevel name level
      addHandler name level
      modify fun g => g.update name fun l => { l with propagate := false }
    modify fun g => { g with cached := g.cached ++ [name] }
  return ((← get).find? name).getD { name := name }

/-- Set the level of every logger of the library and of those to come. -/
def setLevel (level : Level) : Act Float Registry Unit := do
  for name in (← get).cached do
    setLoggerLevel name level
    let n ← Act.lift level.toRank
    modify fun g => g.update name fun l =>
      { l with handlers := l.handlers.map fun h => { h with level := n } }
  modify fun g => { g with defaultLevel := level }

/-- Replace the handlers of every logger of the library by one of a level, a format and a stream,
and record them for those to come. -/
def configure (level : Level) (format stream : Option String) : Act Float Registry Unit := do
  let format := (format.filter (· != "")).getD defaultFormat
  let stream := stream.getD defaultStream
  modify fun g => { g with defaultLevel := level, format := format, stream := stream }
  for name in (← get).cached do
    setLoggerLevel name level
    modify fun g => g.update name fun l => { l with handlers := [] }
    addHandler name level

/-- The names of the highest logger of all, which is at the level of warnings. -/
def topNames : List String := ["", "root"]

/-- Give a logger, of any name, a handler that writes nothing.  The highest logger of all has
handlers that nothing is seen of. -/
def attach (name : String) : Act Float Registry Logger :=
  if topNames.contains name then return { name := "root", level := warningLevel }
  else do
    modify fun g => (g.ensure name).update name fun l =>
      { l with handlers := l.handlers ++ [⟨⟨0, false⟩, none, defaultStream⟩] }
    return ((← get).find? name).getD { name := name }

/-- Those of descending places that come before a limit, each keeping a place free before the
next. -/
def spaced : Nat → List Nat → List Nat
  | _, [] => []
  | limit, i :: rest => if i < limit then i :: spaced (i - 1) rest else spaced limit rest

/-- The names that lie above a name, the longest first: what stands before a dot, of two dots in a
row only the last one counting. -/
def namesAbove (name : String) : List String :=
  let cs := name.toList
  let dots := ((List.range cs.length).filter fun i => cs[i]? == some '.').reverse
  ((spaced cs.length dots).filter (0 < ·)).map fun i => String.ofList (cs.take i)

/-- The loggers above a name, the nearest first; `fuel` is the length of the name. -/
def ancestorsTo (g : Registry) : Nat → String → List Logger
  | 0, _ => []
  | fuel + 1, name =>
    match (namesAbove name).findSome? g.find? with
    | none => []
    | some l => l :: ancestorsTo g fuel l.name

/-- A logger and the loggers above it, the nearest first. -/
def chain (g : Registry) (l : Logger) : List Logger :=
  l :: g.ancestorsTo (l.name.length + 1) l.name

/-- The level in force for a logger, the highest logger of all being at the level of warnings. -/
def effectiveLevel : List Logger → Int
  | [] => warningLevel.number
  | l :: rest => if l.level.number = 0 then effectiveLevel rest else l.level.number

/-- What the handlers along a chain of loggers write for a record: streams and texts. -/
def emit (r : LogRecord) : List Logger → List (String × String)
  | [] => []
  | l :: rest =>
    ((l.handlers.filter (·.level.number ≤ r.level.number)).map fun h => (h.stream, h.write r)) ++
      (if l.propagate then emit r rest else [])

/-- What is written for a record, to which streams: nothing if its level is not positive or below
the level in force. -/
def written (g : Registry) (r : LogRecord) : List (String × String) :=
  match g.find? r.logger with
  | none => []
  | some l =>
    let chain := g.chain l
    if 0 < r.level.number ∧ effectiveLevel chain ≤ r.level.number then emit r chain else []

/-- The text written for a record, to any stream. -/
def write (g : Registry) (r : LogRecord) : String := String.join ((g.written r).map (·.2))

/-- The loggers that exist before anything is asked for. -/
def initial : Registry :=
  ((obtain (some executorName)).run {}).2

end Registry

end Descent
