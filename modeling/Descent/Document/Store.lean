import Descent.Act
import Descent.Document.State
import Descent.Json.Printer
import Descent.Json.Reader
import Descent.Text.Quoted

/-!
# Saving and loading states

A `Store` maps paths to the texts kept there.  `Store.save` opens the path, which empties it, and
only then encodes the state and writes its document; `Store.load` reads the text that is there.
-/

namespace Descent

/-- Texts by path. -/
abbrev Store := String → Option String

namespace Store

/-- A store with the text at one path replaced. -/
def write (store : Store) (path text : String) : Store :=
  fun p => if p = path then some text else store p

/-- The text of a state with an indentation. -/
def render {V M : Type} (codec : ArrayCodec V M) (indent : Value Float) (s : State Float V M) :
    Except (Fault Float) String := do
  let document ← Document.encodeState codec s
  Json.printed (← Json.Layout.ofIndent indent) document

/-- The indentation unless told otherwise. -/
def defaultIndent : Value Float := .int 2

/-- Save a state at a path.  The path is emptied first, and the document written into it piece by
piece. -/
def save {V M : Type} (codec : ArrayCodec V M) (path : String) (indent : Value Float)
    (s : State Float V M) : Act Float Store Unit := do
  modify fun store => store.write path ""
  let document ← Act.lift (Document.encodeState codec s)
  let layout ← Act.lift (Json.Layout.ofIndent indent)
  Act.zoom (fun store => (store path).getD "") (fun text store => store.write path text)
    (Json.stream layout 0 "" document)

/-- The state a text holds. -/
def parse {V M : Type} (codec : ArrayCodec V M) (text : String) :
    Except (Fault Float) (State Float V M) := do
  Document.decodeState codec (← Json.read text)

/-- The fault of a path at which nothing is. -/
def absent (path : String) : Fault Float :=
  .raised "FileNotFoundError" ("[Errno 2] No such file or directory: " ++ Text.quoted path)

/-- Load the state saved at a path. -/
def load {V M : Type} (codec : ArrayCodec V M) (path : String) :
    Act Float Store (State Float V M) := do
  match (← get) path with
  | some text => Act.lift (parse codec text)
  | none => throw (absent path)

end Store

end Descent
