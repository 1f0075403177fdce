/-
# Python: calls

A call of a name or of an attribute is a call fact.  Its caller is the nearest function around
it, qualified with the class if the function is a method.
-/
import Codemap.Facts.Python.Declarations
import Codemap.Facts.Symbols

namespace Codemap.Facts.Python

open Codemap.Syntax

/-- The qualified name of the function around a place, and its class if it is a method. -/
def enclosingScope (c : Cursor) : String × Option String :=
  match c.ancestor? ["function_definition"] with
  | none => (moduleScope, none)
  | some f =>
    match (owningClass? f).bind fun owner => owner.node.fieldText? "name" with
    | some owner => (memberName owner (nameOf f.node), some owner)
    | none => (nameOf f.node, none)

/-- The called name and the text of what it is an attribute of. -/
def calledName? (function : Node) : Option (String × Option String) :=
  match function.kind with
  | "identifier" => some (function.text, none)
  | "attribute" => (function.fieldText? "attribute").map (·, function.fieldText? "object")
  | _ => none

/-- The texts of the arguments of a call. -/
def argumentTexts (call : Node) : List String :=
  match call.field? "arguments" with
  | some arguments =>
    (arguments.namedChildren.filter fun a => a.kind != "comment").map fun a =>
      onString argumentText a.text
  | none => []

/-- The call at a place. -/
def callSite? (path : String) (c : Cursor) : Option CallSite := do
  if c.kind != "call" then none
  let (callee, receiver) ← calledName? (← c.node.field? "function")
  let (caller, enclosingType) := enclosingScope c
  return {
    caller
    callee
    receiver
    receiverIsSelf := receiver == some "self" || receiver == some "cls"
    enclosingType
    arguments := argumentTexts c.node
    location := .ofSpan path c.node.span }

/-- All calls of a tree. -/
def calls (path : String) (tree : Node) (symbols : Symbols) : List Call :=
  (Cursor.top tree).walk.filterMap fun c => (callSite? path c).map symbols.call

end Codemap.Facts.Python
