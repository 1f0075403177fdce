/-
# Documents of nodes

A document is one node: a scalar, a sequence or a mapping whose entries keep their order.  A node
that is left out is the plain scalar without text.  A node may be given a name by an anchor and be
referred to by it later on; references are replaced by what they refer to.

A text holds at most one document; a text without any stands for the node that is left out.
-/
import Codemap.Yaml.Token

namespace Codemap

/-- A node.  Scalars are texts; only plain ones may stand for numbers and truth values. -/
inductive Yaml where
  | scalar (plain : Bool) (text : String)
  | sequence (items : List Yaml)
  | mapping (entries : List (Yaml × Yaml))
deriving Repr, Inhabited

namespace Yaml

/-! ## 1. Reading tokens -/

/-- The node that is left out. -/
def missing : Yaml := scalar true ""

/-- The tokens ahead, and the nodes that have been given names, the latest first. -/
structure Input where
  tokens : List Token
  anchors : List (List Char × Yaml)
deriving Inhabited

/-- What reads from the tokens ahead, unless they are not as they should be. -/
abbrev Reader := StateT Input Option

/-- The next token. -/
def peek : Reader (Option Token) := return (← get).tokens.head?

/-- Moves past the next token. -/
def advance : Reader Unit := modify fun i => { i with tokens := i.tokens.drop 1 }

/-- Moves past the next token if it is the given one, and says whether it was. -/
def accept (t : Token) : Reader Bool := do
  if (← peek) == some t then
    advance
    return true
  else return false

/-- Whether one of the given tokens is next. -/
def isNext (ts : List Token) : Reader Bool := do
  return ((← peek).map ts.contains).getD false

/-- Moves past an anchor or a tag, with the name of the anchor.  The handle of a tag must be one
of those given. -/
def property (handles : List (List Char)) : Reader (Option (Option (List Char))) := do
  match ← peek with
  | some (.anchor name) =>
    advance
    return some (some name)
  | some (.tag handle) =>
    if handles.contains handle then
      advance
      return some none
    else failure
  | _ => return none

/-- Moves past the properties of a node, an anchor and a tag in either order.  The result says
whether there are any, and the name of the anchor. -/
def properties (handles : List (List Char)) : Reader (Bool × Option (List Char)) := do
  match ← property handles with
  | none => return (false, none)
  | some (some name) =>
    match ← peek with
    | some (.tag _) =>
      let _ ← property handles
      return (true, some name)
    | _ => return (true, some name)
  | some none =>
    match ← peek with
    | some (.anchor _) => return (true, (← property handles).join)
    | _ => return (true, none)

/-- The node that a name refers to. -/
def referenced (name : List Char) : Reader Yaml := do
  match (← get).anchors.find? fun a => a.1 == name with
  | some (_, node) => return node
  | none => failure

/-- Gives a name to a node. -/
def bind (name : Option (List Char)) (node : Yaml) : Reader Yaml := do
  match name with
  | some n => modify fun i => { i with anchors := (n, node) :: i.anchors }
  | none => pure ()
  return node

/-! ## 2. Nodes -/

/-- Where a node stands: on its own or in a block sequence, as a part of a block mapping, where a
sequence needs no indentation, or inside brackets. -/
inductive Place where
  | block
  | member
  | flow
deriving Repr, DecidableEq, Inhabited

mutual

/-- A node. -/
def node (handles : List (List Char)) : Nat → Place → Reader Yaml
  | 0, _ => failure
  | fuel + 1, place => do
    match ← peek with
    | some (.reference name) =>
      advance
      referenced name
    | _ =>
      let (given, name) ← properties handles
      match ← peek with
      | some (.scalar plain text) =>
        advance
        bind name (.scalar plain (.ofList text))
      | some .flowSequenceStart =>
        advance
        bind name (.sequence (← flowItems handles fuel true))
      | some .flowMappingStart =>
        advance
        bind name (.mapping (← flowEntries handles fuel true))
      | some .sequenceStart =>
        if place == .flow then failure
        advance
        bind name (.sequence (← blockItems handles fuel true))
      | some .mappingStart =>
        if place == .flow then failure
        advance
        bind name (.mapping (← blockEntries handles fuel))
      | some .blockEntry =>
        if place == .member then bind name (.sequence (← blockItems handles fuel false))
        else if given then bind name missing
        else failure
      | _ => if given then bind name missing else failure

/-- A node, or the missing one before one of the tokens that may follow. -/
def nodeBefore (handles : List (List Char)) : Nat → Place → List Token → Reader Yaml
  | 0, _, _ => failure
  | fuel + 1, place, ends => do
    if ← isNext ends then return missing
    node handles fuel place

/-- The items of a block sequence.  One that is indented has an end of its own. -/
def blockItems (handles : List (List Char)) : Nat → Bool → Reader (List Yaml)
  | 0, _ => failure
  | fuel + 1, indented => do
    if ← accept .blockEntry then
      let ends := if indented then [Token.blockEntry, .blockEnd]
        else [.blockEntry, .key, .value, .blockEnd]
      let item ← nodeBefore handles fuel .block ends
      return item :: (← blockItems handles fuel indented)
    else if !indented then return []
    else if ← accept .blockEnd then return []
    else failure

/-- The entries of a block mapping. -/
def blockEntries (handles : List (List Char)) : Nat → Reader (List (Yaml × Yaml))
  | 0 => failure
  | fuel + 1 => do
    if ← accept .key then
      let ends := [Token.key, .value, .blockEnd]
      let key ← nodeBefore handles fuel .member ends
      let value ← if ← accept .value then nodeBefore handles fuel .member ends else pure missing
      return (key, value) :: (← blockEntries handles fuel)
    else if ← accept .blockEnd then return []
    else failure

/-- The items of a sequence in brackets; those after the first follow commas.  A key with a value
is a mapping of its own. -/
def flowItems (handles : List (List Char)) : Nat → Bool → Reader (List Yaml)
  | 0, _ => failure
  | fuel + 1, first => do
    if ← accept .flowSequenceEnd then return []
    let separated ← if first then pure true else accept .flowEntry
    if !separated then failure
    if ← accept .flowSequenceEnd then return []
    let item ←
      if ← accept .key then
        let key ← nodeBefore handles fuel .flow [.value, .flowEntry, .flowSequenceEnd]
        let value ← if ← accept .value then
            nodeBefore handles fuel .flow [.flowEntry, .flowSequenceEnd]
          else pure missing
        pure (Yaml.mapping [(key, value)])
      else node handles fuel .flow
    return item :: (← flowItems handles fuel false)

/-- The entries of a mapping in braces; those after the first follow commas.  A node that is not
marked as a key is one without a value. -/
def flowEntries (handles : List (List Char)) : Nat → Bool → Reader (List (Yaml × Yaml))
  | 0, _ => failure
  | fuel + 1, first => do
    if ← accept .flowMappingEnd then return []
    let separated ← if first then pure true else accept .flowEntry
    if !separated then failure
    if ← accept .flowMappingEnd then return []
    if ← accept .key then
      let key ← nodeBefore handles fuel .flow [.value, .flowEntry, .flowMappingEnd]
      let value ← if ← accept .value then
          nodeBefore handles fuel .flow [.flowEntry, .flowMappingEnd]
        else pure missing
      return (key, value) :: (← flowEntries handles fuel false)
    else
      let key ← node handles fuel .flow
      return (key, missing) :: (← flowEntries handles fuel false)

end

/-! ## 3. Documents -/

/-- The directives before a document: whether the version has been given, and the handles for
tags. -/
def directives : Nat → Bool → List (List Char) → Reader (List (List Char))
  | 0, _, _ => failure
  | fuel + 1, versioned, handles => do
    match ← peek with
    | some .versionDirective =>
      if versioned then failure
      advance
      directives fuel true handles
    | some (.handleDirective handle) =>
      if handles.contains handle then failure
      advance
      directives fuel versioned (handle :: handles)
    | _ => return handles

/-- The handles that need no directive. -/
def knownHandles : List (List Char) := [[], ['!'], ['!', '!']]

/-- The document that a text holds, which nothing may follow. -/
def document (fuel : Nat) : Reader Yaml := do
  let before ← get
  let handles ← directives fuel false []
  let directed := (← get).tokens.length < before.tokens.length
  let explicit ← accept .documentStart
  if directed && !explicit then failure
  let content ←
    match ← peek with
    | none => pure missing
    | some .documentEnd => if explicit then pure missing else failure
    | some _ => node (handles ++ knownHandles) fuel .block
  let _ ← accept .documentEnd
  return content

/-- Moves past marks for the end of a document. -/
def skipEnds : Nat → Reader Unit
  | 0 => pure ()
  | fuel + 1 => do if ← accept .documentEnd then skipEnds fuel

/-- The node that a text stands for. -/
def parse? (text : String) : Option Yaml := do
  let tokens ← tokens? text
  let fuel := 2 * tokens.length + 4
  let (node, left) ← (do
    let node ← document fuel
    skipEnds fuel
    return node : Reader Yaml).run ⟨tokens, []⟩
  if left.tokens.isEmpty then some node else none

end Yaml

end Codemap
