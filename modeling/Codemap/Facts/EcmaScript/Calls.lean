/-
# ECMAScript: calls

A call of a name, or of a member of anything, is a call fact.  Its caller is the nearest function
around it that has a name; callbacks without a name are looked through.
-/
import Codemap.Facts.EcmaScript.Declarations
import Codemap.Facts.Symbols

namespace Codemap.Facts.EcmaScript

open Codemap.Syntax

/-! ## 1. The scope of a call -/

/-- The name of the class at a place, as its methods are qualified with it. -/
def className (c : Cursor) : String :=
  (c.node.fieldText? "name" <|> boundName? c).getD anonymous

/-- The name of the nearest class around a place. -/
def enclosingClass? (c : Cursor) : Option String := (c.ancestor? classKinds).map className

/-- A member as it is qualified, and the class around it. -/
def memberScope (c : Cursor) (name : String) : String × Option String :=
  match enclosingClass? c with
  | some owner => (memberName owner name, some owner)
  | none => (name, none)

/-- The scope that a place opens for the calls within it, if it is a function with a name. -/
def scopeAt? (c : Cursor) : Option (String × Option String) :=
  if c.kind == "method_definition" then some (memberScope c (declaredName c.node))
  else if c.kind == "function_declaration" || c.kind == "generator_function_declaration" then
    some (declaredName c.node, none)
  else if functionKinds.contains c.kind then
    match c.parent with
    | some p =>
      if p.kind == "public_field_definition" || p.kind == "field_definition" then
        let name := (p.node.fieldText? "name" <|> p.node.fieldText? "property").getD anonymous
        some (memberScope p name)
      else (boundName? c).map (·, none)
    | none => none
  else none

/-- The qualified name of the function around a place, and its class if it is a method. -/
def enclosingScope (c : Cursor) : String × Option String :=
  (c.ancestors.findSome? scopeAt?).getD (moduleScope, none)

/-! ## 2. Calls -/

/-- The called name and the text of what it is a member of. -/
def calledName? (function : Node) : Option (String × Option String) :=
  match function.kind with
  | "identifier" => if function.text == "require" then none else some (function.text, none)
  | "member_expression" =>
    (function.fieldText? "property").map (·, function.fieldText? "object")
  | _ => none

/-- The texts of the arguments of a call. -/
def argumentTexts (call : Node) : List String :=
  match call.field? "arguments" with
  | some arguments =>
    (arguments.namedChildren.filter fun a => a.kind != "comment").map fun a =>
      onString argumentText a.text
  | none => []

/-- The call at a place. -/
def callSite? (path : String) (c : Cursor) : Option CallSite := do
  if c.kind != "call_expression" then none
  let (callee, receiver) ← calledName? (← c.node.field? "function")
  let (caller, enclosingType) := enclosingScope c
  return {
    caller
    callee
    receiver
    receiverIsSelf := receiver == some "this"
    enclosingType
    arguments := argumentTexts c.node
    location := .ofSpan path c.node.span }

/-- All calls of a tree. -/
def calls (path : String) (tree : Node) (symbols : Symbols) : List Call :=
  (Cursor.top tree).walk.filterMap fun c => (callSite? path c).map symbols.call

end Codemap.Facts.EcmaScript
