/-
# Java: calls

The invocation of a method is a call fact.  Its caller is the nearest method or constructor
around it, as a member of the nearest type around it.
-/
import Codemap.Facts.Java.Declarations
import Codemap.Facts.Symbols

namespace Codemap.Facts.Java

open Codemap.Syntax

/-- The qualified name of what encloses a place, and the type that does. -/
def enclosingScope (c : Cursor) : String × Option String :=
  let type := (c.ancestor? typeKinds).bind fun t => t.node.fieldText? "name"
  let method := (c.ancestor? ["method_declaration", "constructor_declaration"]).bind fun m =>
    m.node.fieldText? "name"
  match method, type with
  | some m, some t => (memberName t m, some t)
  | some m, none => (m, none)
  | none, some t => (t, some t)
  | none, none => (moduleScope, none)

/-- The texts of the arguments of a call. -/
def argumentTexts (call : Node) : List String :=
  let isComment (k : String) : Bool := blockCommentKinds.contains k || k == "line_comment"
  match call.field? "arguments" with
  | some arguments =>
    (arguments.namedChildren.filter fun a => !isComment a.kind).map fun a =>
      onString argumentText a.text
  | none => []

/-- The call at a place. -/
def callSite? (path : String) (c : Cursor) : Option CallSite := do
  if c.kind != "method_invocation" then none
  let callee ← c.node.fieldText? "name"
  let receiver := c.node.fieldText? "object"
  let (caller, enclosingType) := enclosingScope c
  return {
    caller
    callee
    receiver
    receiverIsSelf := receiver == some "this"
    enclosingType
    arguments := argumentTexts c.node
    location := .ofSpan path c.node.span }

/-- All calls of a tree. -/
def calls (path : String) (tree : Node) (symbols : Symbols) : List Call :=
  (Cursor.top tree).walk.filterMap fun c => (callSite? path c).map symbols.call

end Codemap.Facts.Java
