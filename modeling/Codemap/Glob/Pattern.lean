/-
# Patterns for paths

A pattern is a sequence of parts: characters, wildcards, classes of characters and choices between
patterns.  Two stars stand for any number of directories where they fill the space between two
slashes or an end of the pattern; elsewhere they are two stars.

A backslash makes the next character an ordinary one.  A class, a choice or an escape that is not
finished makes the whole text no pattern.
-/

namespace Codemap.Glob

/-! ## 1. Parts -/

/-- A part of a pattern.  The last four are wildcards: any number of directories at the start, all
that is in a directory, any number of directories in between, and any characters. -/
inductive Part where
  | literal (c : Char)
  | oneByte
  | range (negated : Bool) (ranges : List (Char × Char))
  | choice (branches : List (List Part))
  | leading
  | trailing
  | between
  | star
deriving Repr, Inhabited

/-! ## 2. Reading patterns -/

/-- The branch being read, latest part first, and the open choices around it, the innermost first:
for each, the branches read and the parts before the choice, both latest first. -/
structure Draft where
  branch : List Part
  outer : List (List (List Part) × List Part)
deriving Inhabited

namespace Draft

/-- Adds a part. -/
def push (d : Draft) (p : Part) : Draft := { d with branch := p :: d.branch }

/-- Starts a choice. -/
def openChoice (d : Draft) : Draft := ⟨[], ([], d.branch) :: d.outer⟩

/-- Whether a choice is open. -/
def inChoice (d : Draft) : Bool := !d.outer.isEmpty

/-- Starts another branch, if a choice is open; a comma is an ordinary character elsewhere. -/
def nextBranch (d : Draft) : Draft :=
  match d.outer with
  | (branches, before) :: outer => ⟨[], (d.branch.reverse :: branches, before) :: outer⟩
  | [] => d.push (.literal ',')

/-- Ends a choice. -/
def closeChoice (d : Draft) : Option Draft :=
  match d.outer with
  | (branches, before) :: outer =>
    some ⟨.choice (d.branch.reverse :: branches).reverse :: before, outer⟩
  | [] => none

/-- Two stars that are no directories. -/
def twoStars (d : Draft) : Draft := (d.push .star).push .star

/-- Puts a wildcard for directories in the place of the slash before it; after another one it adds
nothing. -/
def directories (d : Draft) (p : Part) : Draft :=
  match d.branch with
  | .leading :: _ => d
  | .trailing :: _ => d
  | _ :: rest => { d with branch := p :: rest }
  | [] => d

/-- Two stars, with the character before them: the draft and the text that is left. -/
def doubleStar (d : Draft) (before : Option Char) (rest : List Char) : Draft × List Char :=
  let startsBranch := d.inChoice && (before == some ',' || before == some (Char.ofNat 123))
  if d.branch.isEmpty then
    match rest with
    | [] => (d.push .leading, [])
    | '/' :: r => (d.push .leading, r)
    | _ => (d.twoStars, rest)
  else if before != some '/' && !startsBranch then (d.twoStars, rest)
  else
    match rest with
    | [] => (d.directories .trailing, [])
    | '/' :: r => (d.directories .between, r)
    | c :: _ =>
      if d.inChoice && (c == ',' || c.toNat == 125) then (d.directories .trailing, rest)
      else (d.twoStars, rest)

end Draft

/-- The ranges of a class up to its closing bracket, after those in `ranges`, latest first, and the
text that is left.  `first` says that nothing has been read yet, `hyphen` that a hyphen was read
which may join two characters. -/
def classFrom (first hyphen : Bool) (ranges : List (Char × Char)) :
    List Char → Option (List (Char × Char) × List Char)
  | [] => none
  | c :: r =>
    if c == ']' && !first then
      some ((if hyphen then ('-', '-') :: ranges else ranges).reverse, r)
    else if c == '-' && !first && !hyphen then classFrom false true ranges r
    else if hyphen then
      match ranges with
      | (low, _) :: more =>
        if c < low then none else classFrom false false ((low, c) :: more) r
      | [] => none
    else classFrom false false ((c, c) :: ranges) r

/-- A class after its opening bracket. -/
def class? (s : List Char) : Option (Part × List Char) :=
  let negated := s.head? == some '!' || s.head? == some '^'
  (classFrom true false [] (if negated then s.drop 1 else s)).map fun (ranges, r) =>
    (.range negated ranges, r)

/-- Reads a pattern on from a draft; `before` is the character before the text. -/
def read : Nat → Draft → Option Char → List Char → Option Draft
  | 0, _, _, _ => none
  | _ + 1, d, _, [] => some d
  | fuel + 1, d, before, c :: r =>
    if c == '?' then read fuel (d.push .oneByte) (some c) r
    else if c == '*' then
      match r with
      | '*' :: r' =>
        let (d, rest) := d.doubleStar before r'
        read fuel d (some (if rest.length < r'.length then '/' else '*')) rest
      | _ => read fuel (d.push .star) (some c) r
    else if c == '[' then do
      let (p, r) ← class? r
      read fuel (d.push p) (some ']') r
    else if c.toNat == 123 then read fuel d.openChoice (some c) r
    else if c.toNat == 125 then do read fuel (← d.closeChoice) (some c) r
    else if c == ',' then read fuel d.nextBranch (some c) r
    else if c == '\\' then
      match r with
      | e :: r => read fuel (d.push (.literal e)) (some e) r
      | [] => none
    else read fuel (d.push (.literal c)) (some c) r

end Codemap.Glob

namespace Codemap

/-- A pattern for paths. -/
structure Glob where
  parts : List Glob.Part
deriving Inhabited

/-- The pattern that a text is. -/
def Glob.parse? (s : String) : Option Glob := do
  let cs := s.toList
  let d ← Glob.read (cs.length + 1) ⟨[], []⟩ none cs
  if d.inChoice then none else some ⟨d.branch.reverse⟩

end Codemap
