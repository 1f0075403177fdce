/-
# Grammar rules

A grammar is a set of rules that read source text and leave drafts of syntax nodes behind.  A
rule either reads a stretch of the text and succeeds, or fails and leaves no trace, so the choice
`p <|> q` tries `q` from where `p` started.

*Extras* (white space and comments) may stand before every token.  A comment becomes a child of
the node that is being built when the token after it is read; `node` therefore reads the extras
before it starts the new node.  So a comment before a construct stands beside it, a comment
between two parts of a construct stands inside it, and a comment at the end of a construct stands
after it.

Rules that need each other recursively are written against a parameter `g`, which gives the rule
for each *form* of the language; `tie` closes the circle.  The depth of the recursion is bounded
by a number that the reading function computes from the length of the text.
-/
import Codemap.Syntax.Node

namespace Codemap.Grammar

open Codemap.Syntax

/-! ## 1. Drafts -/

/-- A syntax node whose extent is still counted in characters. -/
structure Draft where
  kind : String
  named : Bool
  field : Option String
  extra : Bool
  start : Nat
  stop : Nat
  children : List Draft
deriving Inhabited

/-- A draft without children. -/
def Draft.leaf (kind : String) (named extra : Bool) (start stop : Nat) : Draft :=
  ⟨kind, named, none, extra, start, stop, []⟩

/-- The position before each character of a text, and the one after the last. -/
def positions (text : Array Char) : Array Position :=
  let (ps, last) := text.foldl
    (fun (ps, p) c => (ps.push p, Position.advance p c)) (Array.mkEmpty (text.size + 1), ⟨0, 0⟩)
  ps.push last

mutual

/-- The node that a draft describes: its places in lines and columns, and its text. -/
def Draft.settle (text : Array Char) (ps : Array Position) : Draft → Node
  | ⟨kind, named, field, _, start, stop, cs⟩ =>
    ⟨kind, named, field, ⟨ps.getD start ⟨0, 0⟩, ps.getD stop ⟨0, 0⟩⟩,
      .ofList (text.extract start stop).toList, Draft.settleAll text ps cs⟩

/-- `settle` on each draft of a list. -/
def Draft.settleAll (text : Array Char) (ps : Array Position) : List Draft → List Node
  | [] => []
  | d :: ds => Draft.settle text ps d :: Draft.settleAll text ps ds

end

/-! ## 2. Rules -/

/-- The extra that starts at a place of a text: where it ends, and the kind of its node if it is
a comment.  It may depend on where the last token ended, which is given first. -/
abbrev Extras := Array Char → Nat → Nat → Option (Nat × Option String)

/-- What a rule reads from: the text, the class of characters that words consist of, and the
extras. -/
structure Input where
  text : Array Char
  wordChar : Char → Bool
  extra : Extras

/-- How far a rule has come: the next character, the end of the last token, and the nodes
drafted for the construct being read, latest first. -/
structure Progress where
  pos : Nat
  stop : Nat
  nodes : List Draft

/-- A rule of a grammar. -/
abbrev Rule := ReaderT Input (StateT Progress Option)

/-- The character `k` places after the next one to be read. -/
def charAt? (k : Nat) : Rule (Option Char) := fun input s => some (input.text[s.pos + k]?, s)

/-- Reads extras from a place on, at most `fuel` of them. -/
def skipFrom (input : Input) : Nat → Progress → Progress
  | 0, s => s
  | fuel + 1, s =>
    match input.extra input.text s.stop s.pos with
    | none => s
    | some (stop, kind) =>
      if stop ≤ s.pos then s
      else skipFrom input fuel
        { s with
          pos := stop
          nodes := match kind with
            | none => s.nodes
            | some k => Draft.leaf k true true s.pos stop :: s.nodes }

/-- Reads the extras that come next. -/
def skip : Rule Unit := fun input s => some ((), skipFrom input (input.text.size - s.pos) s)

/-- Fails unless `b`. -/
def check (b : Bool) : Rule Unit := if b then pure () else failure

/-- Whether `p` could be read next; nothing is read. -/
def ahead {α : Type} (p : Rule α) : Rule Bool := fun input s => some ((p input s).isSome, s)

/-- Succeeds, reading nothing, where `p` could be read. -/
def look {α : Type} (p : Rule α) : Rule Unit := do check (← ahead p)

/-- Succeeds, reading nothing, where `p` could not be read. -/
def never {α : Type} (p : Rule α) : Rule Unit := do check (!(← ahead p))

/-- Reads `p` if it can be read. -/
def opt (p : Rule Unit) : Rule Unit := p <|> pure ()

/-- Reads `p` as often as it can be read, at most `fuel` times, as long as it advances. -/
def repeatFrom (p : Rule Unit) (input : Input) : Nat → Progress → Progress
  | 0, s => s
  | fuel + 1, s =>
    match p input s with
    | some ((), t) => if t.pos ≤ s.pos then s else repeatFrom p input fuel t
    | none => s

/-- Reads `p` as often as it can be read. -/
def many (p : Rule Unit) : Rule Unit := fun input s =>
  some ((), repeatFrom p input (input.text.size + 1 - s.pos) s)

/-- Reads `p` once or more. -/
def many1 (p : Rule Unit) : Rule Unit := do p; many p

/-- Reads one or more `p` with `sep` between them. -/
def sepBy1 (p sep : Rule Unit) : Rule Unit := do p; many (do sep; p)

/-- The first of the rules that can be read. -/
def oneOf {α : Type} (ps : List (Rule α)) : Rule α :=
  ps.foldr (fun p rest => p <|> rest) failure

/-- Succeeds at the end of the text. -/
def atEnd : Rule Unit := do
  skip
  check (← charAt? 0).isNone

/-! ## 3. Tokens -/

/-- Whether the characters of `s` stand at a place of the text. -/
def standsAt (text : Array Char) (pos : Nat) : List Char → Bool
  | [] => true
  | c :: cs => text[pos]? == some c && standsAt text (pos + 1) cs

/-- Reads up to the place that `scan` finds, as a token; no extras are skipped. -/
def rawToken (kind : String) (named : Bool) (scan : Array Char → Nat → Option Nat) : Rule Unit :=
  fun input s =>
    match scan input.text s.pos with
    | none => none
    | some stop =>
      some ((), { pos := stop, stop, nodes := Draft.leaf kind named false s.pos stop :: s.nodes })

/-- Reads up to the place that `scan` finds, as a token that leaves no node behind. -/
def hiddenToken (scan : Array Char → Nat → Option Nat) : Rule Unit := fun input s =>
  (scan input.text s.pos).map fun stop => ((), { s with pos := stop, stop })

/-- Reads extras and then a token. -/
def token (kind : String) (named : Bool) (scan : Array Char → Nat → Option Nat) : Rule Unit := do
  skip
  rawToken kind named scan

/-- The end of the fixed text `s` at a place. -/
def fixedEnd (s : String) (text : Array Char) (pos : Nat) : Option Nat :=
  if standsAt text pos s.toList then some (pos + s.length) else none

/-- The fixed text `s`, as an anonymous node. -/
def sym (s : String) : Rule Unit := token s false (fixedEnd s)

/-- The fixed text `s` directly after the last character read. -/
def rawSym (s : String) : Rule Unit := rawToken s false (fixedEnd s)

/-- The operator `s`, where none of the longer operators in `longer` stands. -/
def op (s : String) (longer : List String) : Rule Unit := do
  skip
  for l in longer do never (rawSym l)
  rawSym s

/-- The end of the word that starts at a place, for the given classes of first and further
characters. -/
def wordEnd (first further : Char → Bool) (text : Array Char) (pos : Nat) : Option Nat :=
  match text[pos]? with
  | none => none
  | some c =>
    if first c then some (go (text.size - pos) (pos + 1)) else none
where
  /-- The end of the run of further characters. -/
  go : Nat → Nat → Nat
    | 0, i => i
    | fuel + 1, i =>
      match text[i]? with
      | some c => if further c then go fuel (i + 1) else i
      | none => i

/-- The end of the run of characters satisfying `p` that starts at a place; `none` if empty. -/
def runEnd (p : Char → Bool) (text : Array Char) (pos : Nat) : Option Nat := wordEnd p p text pos

/-- The keyword `s`: the word as a whole. -/
def kw (s : String) : Rule Unit := do
  skip
  rawSym s
  let input ← read
  match ← charAt? 0 with
  | some c => check (!input.wordChar c)
  | none => pure ()

/-- A keyword that is a named node. -/
def namedWord (kind s : String) : Rule Unit := do
  skip
  rawToken kind true (fixedEnd s)
  let input ← read
  match ← charAt? 0 with
  | some c => check (!input.wordChar c)
  | none => pure ()

/-- A word that is none of `reserved`, as a named node. -/
def wordToken (kind : String) (first further : Char → Bool) (reserved : List String) :
    Rule Unit := do
  skip
  let start := (← get).pos
  rawToken kind true (wordEnd first further)
  let input ← read
  let stop := (← get).pos
  check (!reserved.contains (.ofList (input.text.extract start stop).toList))

/-- The text of a stretch of the input. -/
def stretch (start stop : Nat) : Rule String := do
  return .ofList ((← read).text.extract start stop).toList

/-! ## 4. Nodes -/

/-- Builds a node from what `p` reads; `p` tells its kind.  Extras before it stay outside. -/
def nodeAs (p : Rule String) : Rule Unit := do
  skip
  let s ← get
  set { s with nodes := [] }
  let kind ← p
  let t ← get
  set { t with
    nodes := ⟨kind, true, none, false, s.pos, max s.pos t.stop, t.nodes.reverse⟩ :: s.nodes }

/-- Builds a node of the given kind from what `p` reads. -/
def node (kind : String) (p : Rule Unit) : Rule Unit := nodeAs do p; return kind

/-- The construct read last fills `name` of the construct being read. -/
def tag (name : String) : Rule Unit := modify fun s =>
  match s.nodes with
  | d :: ds => { s with nodes := { d with field := some name } :: ds }
  | [] => s

/-- Builds a node from the construct read last, as its first child, and what `p` reads.  The
first child fills `field`, unless that is empty. -/
def wrap (kind field : String) (p : Rule Unit) : Rule Unit := do
  let s ← get
  match s.nodes with
  | [] => failure
  | head :: rest =>
    let head := if field.isEmpty then head else { head with field := some field }
    set { s with nodes := [head] }
    p
    let t ← get
    let wrapped := ⟨kind, true, none, false, head.start, max head.stop t.stop, t.nodes.reverse⟩
    set { t with nodes := wrapped :: rest }

/-- What `p` reads fills `field` of the construct being read. -/
def field (name : String) (p : Rule Unit) : Rule Unit := do
  skip
  let s ← get
  set { s with nodes := [] }
  p
  let t ← get
  let nodes := t.nodes.map fun d =>
    if d.extra || d.field.isSome then d else { d with field := some name }
  set { t with nodes := nodes ++ s.nodes }

/-- Reads `p` with another set of extras. -/
def withExtra {α : Type} (extra : Extras) (p : Rule α) : Rule α :=
  fun input s => p { input with extra } s

/-- The rest of a line that fits no rule, as an error node. -/
def stray : Rule Unit := do
  skip
  token Node.errorKind true (runEnd (· != '\n'))

/-- A mark that should stand here and does not, as an error node without extent. -/
def missing : Rule Unit := fun _ s =>
  some ((), { s with nodes := Draft.leaf Node.errorKind true false s.stop s.stop :: s.nodes })

/-- Whether the last leaf of some drafts, latest first, is a missing mark. -/
def endsInMissing : List Draft → Bool
  | [] => false
  | ⟨kind, _, _, _, start, stop, children⟩ :: _ =>
    (kind == Node.errorKind && start == stop) || lastIsMissing children
where
  /-- The same for drafts in the order of the text. -/
  lastIsMissing : List Draft → Bool
    | [] => false
    | [⟨kind, _, _, _, start, stop, children⟩] =>
      (kind == Node.errorKind && start == stop) || lastIsMissing children
    | _ :: d :: ds => lastIsMissing (d :: ds)

/-- Fails where the construct read last ends in a missing mark. -/
def complete : Rule Unit := do check (!endsInMissing (← get).nodes)

/-- The closing mark `s`.  At the end of the text it may be missing, for one construct only. -/
def closing (s : String) : Rule Unit := oneOf [sym s, do atEnd; complete; missing]

/-! ## 5. Reading a whole text -/

/-- Closes the recursion of a grammar, to the given depth. -/
def tie {F : Type} (rules : (F → Rule Unit) → F → Rule Unit) : Nat → F → Rule Unit
  | 0, _ => failure
  | depth + 1, f => rules (tie rules depth) f

/-- A bound on the depth of recursion over a text: a grammar has fewer than a hundred forms, and
none of them calls itself again before a character is read. -/
def depthBound (text : Array Char) : Nat := 100 * (text.size + 1)

/-- The tree of a whole text under a rule.  A byte-order mark at the start is passed over.  A text
under which even the outermost rule fails is one error. -/
def parseWith (input : Input) (root : String) (rule : Rule Unit) : Node :=
  let size := input.text.size
  let start := if input.text[0]?.map (·.toNat) == some 0xFEFF then 1 else 0
  let children := match (do rule; skip) input ⟨start, start, []⟩ with
    | some ((), s) => s.nodes.reverse
    | none => [Draft.leaf Node.errorKind true false 0 size]
  let draft : Draft := ⟨root, true, none, false, 0, size, children⟩
  draft.settle input.text (positions input.text)

end Codemap.Grammar
