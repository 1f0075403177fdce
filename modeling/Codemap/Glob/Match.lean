/-
# Matching paths

A pattern matches a whole path.  Paths are matched byte by byte: a question mark stands for one
byte, and so does a class, whose characters count as the bytes that encode them.  Wildcards do not
stop at slashes.

Matching a part takes something off the front of a path; the matcher works with all the remainders
that are possible.
-/
import Codemap.Glob.Pattern

namespace Codemap.Glob

/-! ## 1. Remainders -/

/-- What is left of a path, as bytes. -/
abbrev Remainder := List UInt8

/-- The bytes of a text. -/
def bytes (s : List Char) : List UInt8 := s.flatMap String.utf8EncodeChar

/-- The byte of a slash. -/
def slash : UInt8 := 47

/-- All remainders of a path, itself included. -/
def suffixes : Remainder → List Remainder
  | [] => [[]]
  | b :: r => (b :: r) :: suffixes r

/-- What follows each slash of a path. -/
def afterSlashes : Remainder → List Remainder
  | [] => []
  | b :: r => if b == slash then r :: afterSlashes r else afterSlashes r

/-- What follows the given bytes. -/
def after (head s : Remainder) : List Remainder :=
  if head.isPrefixOf s then [s.drop head.length] else []

/-- One of each of the remainders of one path, which their lengths tell apart. -/
def unique (rs : List Remainder) : List Remainder :=
  rs.foldr (fun r kept => if kept.any fun k => k.length == r.length then kept else r :: kept) []

/-! ## 2. Classes -/

/-- Whether a byte lies in a range of characters: it is one of the bytes that encode its ends, or
lies between the last byte of the lower and the first byte of the upper end. -/
def inRange (b : UInt8) (range : Char × Char) : Bool :=
  let low := String.utf8EncodeChar range.1
  let high := String.utf8EncodeChar range.2
  low.contains b || high.contains b ||
    (range.1 != range.2 && low.getLastD 0 ≤ b && b ≤ high.headD 0)

/-! ## 3. Parts -/

mutual

/-- The remainders after a part. -/
def afterPart : Part → Remainder → List Remainder
  | .literal c, s => after (String.utf8EncodeChar c) s
  | .oneByte, s =>
    match s with
    | _ :: r => [r]
    | [] => []
  | .range negated ranges, s =>
    match s with
    | b :: r => if ranges.any (inRange b) != negated then [r] else []
    | [] => []
  | .choice branches, s => if allEmpty branches then [s] else afterBranches branches s
  | .leading, s => s :: afterSlashes s
  | .trailing, s => (after [slash] s).flatMap suffixes
  | .between, s => (after [slash] s).flatMap fun r => r :: afterSlashes r
  | .star, s => suffixes s

/-- The remainders after the parts of a pattern, one after the other. -/
def afterParts : List Part → List Remainder → List Remainder
  | [], rs => rs
  | p :: ps, rs => afterParts ps (unique (rs.flatMap fun r => afterPart p r))

/-- The remainders after one of the branches of a choice; empty branches do not count. -/
def afterBranches : List (List Part) → Remainder → List Remainder
  | [], _ => []
  | b :: bs, s => (if isEmpty b then [] else afterParts b [s]) ++ afterBranches bs s

/-- Whether parts stand for nothing: there are none, or only choices without branches. -/
def isEmpty : List Part → Bool
  | [] => true
  | .choice branches :: ps => allEmpty branches && isEmpty ps
  | _ :: _ => false

/-- Whether all branches stand for nothing. -/
def allEmpty : List (List Part) → Bool
  | [] => true
  | b :: bs => isEmpty b && allEmpty bs

end

/-! ## 4. Paths -/

/-- Whether a pattern matches a path.  Two stars alone match every path. -/
def isMatch (g : Glob) (path : String) : Bool :=
  match g.parts with
  | [.leading] => true
  | parts => (afterParts parts [bytes path.toList]).contains []

end Codemap.Glob
