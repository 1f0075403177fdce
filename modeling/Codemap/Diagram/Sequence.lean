/-
# The diagram of calls

A client calls every function that other files may use, and from there calls are followed through
the functions of the given files, down to a number of levels.  A call is followed once in the
whole diagram, and calls to functions of other programs are left out.
-/
import Codemap.Diagram.Basic
import Codemap.Facts.Basic
import Codemap.Order.Distinct

namespace Codemap.Diagram.Sequence

open Codemap.Text

/-! ## 1. Functions -/

/-- A function and the path of its file. -/
structure Callable where
  path : String
  function : Function
deriving Repr, DecidableEq, Inhabited

/-- The participant that stands for a file: its name up to the first dot, or the name of its
directory if the file is an index. -/
def moduleParticipant (path : String) : String :=
  let parts := piecesAt '/' path.toList
  let stem := (parts.getLastD []).takeWhile (· != '.')
  let isIndex := [("index" : String), "__init__"].contains (.ofList stem)
  .ofList (identifierChars
    (if isIndex then (parts.dropLast.getLast?).getD stem else stem))

/-- The participant that a function belongs to: its type, or its file. -/
def Callable.participant (c : Callable) : String :=
  match cutLast '.' c.function.qualifiedName.toList with
  | some (owner, _) => .ofList (identifierChars owner)
  | none => moduleParticipant c.path

/-- The functions of a file, methods after free functions. -/
def callables (f : FileFacts) : List Callable :=
  (f.functions ++ f.types.flatMap fun t => t.methods.map (·.function)).map fun g => ⟨f.path, g⟩

/-- The functions that the client calls: exported functions and the public methods of exported
types. -/
def entries (f : FileFacts) : List Callable :=
  (f.exportedFunctions ++ (f.types.filter (·.isExported)).flatMap fun t =>
    (t.methods.filter fun m => m.visibility == .publicAccess).map (·.function)).map
      fun g => ⟨f.path, g⟩

/-! ## 2. Calls -/

/-- The calls that a function makes. -/
def callsOf (files : List FileFacts) (caller : Callable) : List Call :=
  (files.filter fun f => f.path == caller.path).flatMap fun f =>
    f.calls.filter fun c => c.caller == caller.function.qualifiedName

/-- The function that a call in a file lands on: the one that it was resolved to, or one of its
name, preferably of the same file. -/
def resolve? (all : List Callable) (path : String) (c : Call) : Option Callable :=
  let resolved := c.resolved.bind fun name =>
    all.find? fun g => g.path == path && g.function.qualifiedName == name
  let named := all.filter fun g => g.function.name == c.callee
  resolved <|> named.find? (fun g => g.path == path) <|> named.head?

/-- The place of a call: the file and the function that it stands in, what it calls, and the line
where it starts. -/
structure CallPlace where
  path : String
  caller : String
  callee : String
  line : Nat
deriving Repr, DecidableEq, Inhabited

/-- The place of a call that a function makes. -/
def placeOf (caller : Callable) (c : Call) : CallPlace :=
  ⟨caller.path, caller.function.qualifiedName, c.callee, c.location.startLine⟩

/-! ## 3. Messages -/

/-- A message between participants.  The message for a call knows the place of the call. -/
inductive Message where
  | request (target name : String) (awaited : Bool)
  | call (place : CallPlace) (source target : String)
  | reply (source name : String)
deriving Repr, DecidableEq, Inhabited

/-- The participant outside the program. -/
def client : String := "Client"

/-- The line of a message. -/
def Message.line : Message → String
  | request target name false => client ++ "->>" ++ target ++ ": " ++ name ++ "()"
  | request target name true => client ++ "->>+" ++ target ++ ": " ++ name ++ "() (async)"
  | call place source target => source ++ "->>" ++ target ++ ": " ++ place.callee ++ "()"
  | reply source name => source ++ "-->>-" ++ client ++ ": " ++ name ++ " result"

/-- The participant that a message goes to. -/
def Message.target : Message → String
  | request target _ _ => target
  | call _ _ target => target
  | reply _ _ => client

/-- What has been drawn: the messages in order, and the places of the calls that were looked
at. -/
structure Trace where
  messages : List Message
  seen : List CallPlace
deriving Repr, Inhabited

/-- The trace with another message. -/
def Trace.add (t : Trace) (m : Message) : Trace := { t with messages := t.messages ++ [m] }

/-- Follows the calls of a function, which the participant `source` makes, down to the given number
of levels. -/
def follow (files : List FileFacts) (all : List Callable) :
    Nat → Callable → String → Trace → Trace
  | 0, _, _, trace => trace
  | levels + 1, caller, source, trace =>
    (callsOf files caller).foldl
      (fun trace c =>
        let place := placeOf caller c
        if trace.seen.contains place then trace
        else
          let trace := { trace with seen := place :: trace.seen }
          match resolve? all caller.path c with
          | none => trace
          | some g =>
            let target := g.participant
            follow files all levels g target (trace.add (.call place source target)))
      trace

/-- Draws the client's call of a function and all that follows from it.  The call itself is the
first level. -/
def enter (files : List FileFacts) (all : List Callable) (depth : Nat) (trace : Trace)
    (entry : Callable) : Trace :=
  let target := entry.participant
  let name := entry.function.name
  let awaited := entry.function.isAsync
  let trace := follow files all (depth - 1) entry target
    (trace.add (.request target name awaited))
  if awaited then trace.add (.reply target name) else trace

/-- The messages of the diagram. -/
def messages (files : List FileFacts) (depth : Nat) : List Message :=
  ((files.flatMap entries).foldl (enter files (files.flatMap callables) depth) ⟨[], []⟩).messages

/-! ## 4. Lines -/

/-- How many levels are drawn unless something else is said. -/
def defaultDepth : Nat := 3

/-- The participants of messages, the client first, then in the order in which they are first
called. -/
def participants (ms : List Message) : List String :=
  Order.distinct (client :: ms.map Message.target)

/-- The lines of the diagram. -/
def lines (files : List FileFacts) (depth : Nat) : List String :=
  let body :=
    if (files.flatMap entries).isEmpty then
      ["participant " ++ client, "Note over " ++ client ++ ": No entry points found"]
    else
      let ms := messages files depth
      (participants ms).map ("participant " ++ ·) ++ ms.map Message.line
  "sequenceDiagram" :: body.map (indent ++ ·)

/-- The text of the diagram. -/
def text (files : List FileFacts) (depth : Nat) : String := ofLines (lines files depth)

end Codemap.Diagram.Sequence
