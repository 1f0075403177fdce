/-
# Go: calls

A call of a name or of a selected member is a call fact.  Its caller is the top-level function or
method around it; a member of the receiver's variable is called on the type's own object.
-/
import Codemap.Facts.Go.Declarations
import Codemap.Facts.Symbols

namespace Codemap.Facts.Go

open Codemap.Syntax

/-- The qualified name of the function around a place, and its receiver if it is a method. -/
def enclosingScope (c : Cursor) : String × Option Receiver :=
  match c.ancestor? ["function_declaration", "method_declaration"] with
  | none => (moduleScope, none)
  | some f =>
    let name := (f.node.fieldText? "name").getD ""
    match receiver? f.node with
    | some r => (memberName r.type name, some r)
    | none => (name, none)

/-- The called name and the text of what it is selected from. -/
def calledName? (function : Node) : Option (String × Option String) :=
  match function.kind with
  | "identifier" => some (function.text, none)
  | "selector_expression" =>
    (function.fieldText? "field").map (·, function.fieldText? "operand")
  | _ => none

/-- The texts of the arguments of a call. -/
def argumentTexts (call : Node) : List String :=
  match call.field? "arguments" with
  | some arguments =>
    (arguments.namedChildren.filter fun a => a.kind != "comment").map fun a =>
      onString argumentText a.text
  | none => []

/-- The call at a place. -/
def callSite? (path : String) (c : Cursor) : Option CallSite := do
  if c.kind != "call_expression" then none
  let (callee, receiver) ← calledName? (← c.node.field? "function")
  let (caller, owner) := enclosingScope c
  return {
    caller
    callee
    receiver
    receiverIsSelf := receiver.isSome && receiver == owner.bind (·.selfName)
    enclosingType := owner.map (·.type)
    arguments := argumentTexts c.node
    location := .ofSpan path c.node.span }

/-- All calls of a tree. -/
def calls (path : String) (tree : Node) (symbols : Symbols) : List Call :=
  (Cursor.top tree).walk.filterMap fun c => (callSite? path c).map symbols.call

end Codemap.Facts.Go
