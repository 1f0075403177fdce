/-
# The tokens of a document written with indentation

Collections are written with brackets (flow) or with indentation (block).  The scanner makes the
block structure explicit: it keeps a stack of indentations and marks where a block collection
starts and ends.  A mapping key is recognised only by the colon after it, so the place of the last
thing that may be a key is remembered, and the token for the key is put there afterwards.

Text that cannot be split into tokens has none.
-/
import Codemap.Json.Text

namespace Codemap.Yaml

/-! ## 1. Tokens -/

/-- A token.  A scalar that is written without quotes is plain. -/
inductive Token where
  | versionDirective
  | handleDirective (handle : List Char)
  | documentStart
  | documentEnd
  | sequenceStart
  | mappingStart
  | blockEnd
  | flowSequenceStart
  | flowSequenceEnd
  | flowMappingStart
  | flowMappingEnd
  | flowEntry
  | blockEntry
  | key
  | value
  | reference (name : List Char)
  | anchor (name : List Char)
  | tag (handle : List Char)
  | scalar (plain : Bool) (text : List Char)
deriving Repr, DecidableEq, Inhabited

/-! ## 2. Characters -/

/-- A line break, once carriage returns have become line feeds. -/
def isBreak (c : Char) : Bool := c == '\n' || c.toNat == 0x2028 || c.toNat == 0x2029

/-- A blank inside a line. -/
def isSpace (c : Char) : Bool := c == ' ' || c == '\t'

/-- Whether a token may end here: at a blank, at a line break or at the end. -/
def atGap : List Char → Bool
  | [] => true
  | c :: _ => isSpace c || isBreak c

/-- A character of the names of anchors and handles. -/
def isNameChar (c : Char) : Bool := c.isAlphanum || c == '_' || c == '-'

/-- A character of a tag. -/
def isTagChar (c : Char) : Bool :=
  isNameChar c || [';', '/', '?', ':', '@', '&', '=', '+', '$', '.', '%', '!', '~', '*', '(',
    ')'].contains c || c.toNat == 39

/-- A bracket or a comma of a flow collection. -/
def isFlowMark (c : Char) : Bool :=
  [',', '[', ']'].contains c || c.toNat == 123 || c.toNat == 125

/-- Whether a mark of a document stands here: three hyphens or three points. -/
def isDocumentMark (mark : Char) (s : List Char) : Bool :=
  [mark, mark, mark].isPrefixOf s && atGap (s.drop 3)

/-- Characters that may not stand in a document. -/
def isForbidden (c : Char) : Bool :=
  let n := c.toNat
  (n < 32 && n != 9 && n != 10 && n != 13) || (0x7F ≤ n && n ≤ 0x9F && n != 0x85)
    || n == 0xFEFF || n == 0xFFFE || n == 0xFFFF

/-- The text with every line ended by a line feed. -/
def unifyBreaks : List Char → List Char
  | [] => []
  | '\r' :: '\n' :: r => '\n' :: unifyBreaks r
  | c :: r => (if c == '\r' || c.toNat == 0x85 then '\n' else c) :: unifyBreaks r

/-! ## 3. The state of the scanner -/

/-- Something that may turn out to be a key: the number of the token before which the key would be
put, where it stands, and whether it can be nothing else. -/
structure KeyCandidate where
  token : Nat
  index : Nat
  line : Nat
  column : Nat
  required : Bool
deriving Repr, DecidableEq, Inhabited

/-- The text ahead, where it starts, the tokens so far, and the structure that is open: the
candidate of each flow collection, the innermost first, with that of the block last; and the
indentations, the innermost first, each as the number of columns up to its first character. -/
structure Scanner where
  rest : List Char
  index : Nat
  line : Nat
  column : Nat
  tokens : Array Token
  candidate : Option KeyCandidate
  outer : List (Option KeyCandidate)
  keyAllowed : Bool
  indents : List Nat
deriving Repr, Inhabited

namespace Scanner

/-- The scanner at the start of a text. -/
def start (s : List Char) : Scanner := ⟨s, 0, 0, 0, #[], none, [], true, []⟩

/-- Whether a flow collection is open. -/
def inFlow (s : Scanner) : Bool := !s.outer.isEmpty

/-- The innermost indentation, none being zero. -/
def indent (s : Scanner) : Nat := s.indents.head?.getD 0

/-- Moves past one character. -/
def skip (s : Scanner) : Scanner :=
  match s.rest with
  | [] => s
  | c :: r =>
    if isBreak c then { s with rest := r, index := s.index + 1, line := s.line + 1, column := 0 }
    else { s with rest := r, index := s.index + 1, column := s.column + 1 }

/-- Moves past some characters. -/
def skipMany : Nat → Scanner → Scanner
  | 0, s => s
  | n + 1, s => skipMany n s.skip

/-- Moves past the characters satisfying `p`. -/
def skipWhile (p : Char → Bool) (s : Scanner) : Scanner :=
  skipMany (s.rest.takeWhile p).length s

/-- Adds a token. -/
def emit (t : Token) (s : Scanner) : Scanner := { s with tokens := s.tokens.push t }

/-- Adds a token that the next characters are. -/
def emitOver (n : Nat) (t : Token) (s : Scanner) : Scanner := (s.skipMany n).emit t

/-! ## 4. Keys and indentation -/

/-- Gives the current candidate up, which is an error if it can only be a key. -/
def dropCandidate (s : Scanner) : Option Scanner :=
  match s.candidate with
  | some k => if k.required then none else some { s with candidate := none }
  | none => some s

/-- Gives the candidates up that stand on an earlier line or too far back. -/
def dropStale (s : Scanner) : Option Scanner :=
  let isStale (k : KeyCandidate) : Bool := k.line < s.line || k.index + 1024 < s.index
  let keep (k : Option KeyCandidate) : Option (Option KeyCandidate) :=
    match k with
    | some c => if isStale c then (if c.required then none else some none) else some k
    | none => some none
  do
    let candidate ← keep s.candidate
    let outer ← s.outer.mapM keep
    return { s with candidate, outer }

/-- What comes next, as a key.  At the indentation of its block it can be nothing else. -/
def nextCandidate (s : Scanner) : KeyCandidate where
  token := s.tokens.size
  index := s.index
  line := s.line
  column := s.column
  required := !s.inFlow && s.indent == s.column + 1

/-- Remembers that what comes next may be a key. -/
def markCandidate (s : Scanner) : Option Scanner :=
  if s.keyAllowed then
    s.dropCandidate.map fun s => { s with candidate := some s.nextCandidate }
  else some s

/-- Opens a block collection at a column, unless it is open; `at?` is where its token belongs if
not at the end. -/
def openBlock (column : Nat) (at? : Option Nat) (t : Token) (s : Scanner) : Scanner :=
  if s.inFlow || column + 1 ≤ s.indent then s
  else
    let tokens := match at? with
      | some n => s.tokens.insertIdxIfInBounds n t
      | none => s.tokens.push t
    { s with tokens, indents := (column + 1) :: s.indents }

/-- Closes the block collections with more indentation than `level`. -/
def closeBlocks (level : Nat) (s : Scanner) : Scanner :=
  if s.inFlow then s
  else
    let closed := (s.indents.takeWhile (level < ·)).length
    { s with
      tokens := s.tokens ++ (Array.replicate closed Token.blockEnd)
      indents := s.indents.drop closed }

/-! ## 5. Gaps -/

/-- Moves to the next token: past blanks, comments and line ends.  A tab counts as a blank only
where no key may start. -/
def skipGap : Nat → Scanner → Scanner
  | 0, s => s
  | fuel + 1, s =>
    let s := s.skipWhile fun c => c == ' ' || (c == '\t' && (s.inFlow || !s.keyAllowed))
    let s := if s.rest.head? == some '#' then s.skipWhile (!isBreak ·) else s
    match s.rest with
    | c :: _ =>
      if isBreak c then
        let s := s.skip
        skipGap fuel (if s.inFlow then s else { s with keyAllowed := true })
      else s
    | [] => s

/-- The blanks before the first line break of a gap, its line breaks, and the scanner after it.
`level` is the indentation that tabs may not make up for. -/
def gap (level : Nat) : Nat → List Char → List Char → Scanner →
    Option (List Char × List Char × Scanner)
  | 0, _, _, _ => none
  | fuel + 1, blanks, breaks, s =>
    match s.rest with
    | [] => some (blanks, breaks, s)
    | c :: _ =>
      if isSpace c then
        if breaks.isEmpty then gap level fuel (blanks ++ [c]) breaks s.skip
        else if c == '\t' && s.column < level then none
        else gap level fuel blanks breaks s.skip
      else if isBreak c then gap level fuel blanks (breaks ++ [c]) s.skip
      else some (blanks, breaks, s)

/-- What a gap inside a scalar stands for: its blanks within a line; else a blank for one line
break, and all but the first for several. -/
def folded (blanks breaks : List Char) : List Char :=
  match breaks with
  | [] => blanks
  | '\n' :: more => if more.isEmpty then [' '] else more
  | _ => breaks

/-! ## 6. Scalars -/

/-- Whether a plain scalar ends before these characters, and not at a gap. -/
def endsPlain (inFlow : Bool) (s : List Char) : Bool :=
  match s with
  | ':' :: r => atGap r
  | c :: _ => inFlow && isFlowMark c
  | [] => true

/-- The characters of a plain scalar up to the next gap, after those in `acc`, latest first.  In a
flow collection a colon may not stand right before a bracket. -/
def plainChunk (inFlow : Bool) : Nat → List Char → Scanner → Option (List Char × Scanner)
  | 0, _, _ => none
  | fuel + 1, acc, s =>
    if atGap s.rest then some (acc, s)
    else if inFlow && s.rest.head? == some ':' &&
        ((s.rest.drop 1).head?.map fun c => isFlowMark c || c == '?').getD false then none
    else if endsPlain inFlow s.rest then some (acc, s)
    else plainChunk inFlow fuel (s.rest.head?.toList ++ acc) s.skip

/-- A plain scalar from a place inside it; `between` is what the gap before that place stands for,
and `broken` whether it has line breaks. -/
def plainFrom (level : Nat) : Nat → List Char → List Char → Bool → Scanner →
    Option (List Char × Bool × Scanner)
  | 0, _, _, _, _ => none
  | fuel + 1, acc, between, broken, s => do
    let isMark := s.column == 0 && (isDocumentMark '-' s.rest || isDocumentMark '.' s.rest)
    if isMark || s.rest.head? == some '#' then return (acc, broken, s)
    let (chunk, s') ← plainChunk s.inFlow (s.rest.length + 1) [] s
    if chunk.isEmpty then return (acc, broken, s)
    let acc := chunk ++ between.reverse ++ acc
    match s'.rest with
    | [] => return (acc, false, s')
    | c :: _ =>
      if isSpace c || isBreak c then
        let (blanks, breaks, s'') ← gap level (s'.rest.length + 1) [] [] s'
        if !s''.inFlow && s''.column < level then return (acc, !breaks.isEmpty, s'')
        plainFrom level fuel acc (folded blanks breaks) (!breaks.isEmpty) s''
      else return (acc, false, s')

/-- The digits of an escape by number. -/
def hexDigits? (n : Nat) (s : List Char) : Option Nat :=
  if s.length < n then none
  else (s.take n).foldlM (fun v c => (Json.hexValue? c).map (16 * v + ·)) 0

/-- The character that an escape stands for, and how many characters it has. -/
def escape? (c : Char) (rest : List Char) : Option (Char × Nat) :=
  let numbered (n : Nat) : Option (Char × Nat) := do
    let v ← hexDigits? n rest
    if (0xD800 ≤ v && v ≤ 0xDFFF) || 0x10FFFF < v then none
    return (Char.ofNat v, n + 1)
  match c with
  | '0' => some (Char.ofNat 0, 1)
  | 'a' => some (Char.ofNat 7, 1)
  | 'b' => some (Char.ofNat 8, 1)
  | 't' | '\t' => some ('\t', 1)
  | 'n' => some ('\n', 1)
  | 'v' => some (Char.ofNat 11, 1)
  | 'f' => some (Char.ofNat 12, 1)
  | 'r' => some ('\r', 1)
  | 'e' => some (Char.ofNat 27, 1)
  | ' ' | '/' | '\\' => some (c, 1)
  | 'N' => some (Char.ofNat 0x85, 1)
  | '_' => some (Char.ofNat 0xA0, 1)
  | 'L' => some (Char.ofNat 0x2028, 1)
  | 'P' => some (Char.ofNat 0x2029, 1)
  | 'x' => numbered 2
  | 'u' => numbered 4
  | 'U' => numbered 8
  | _ => if c.toNat == 34 then some (c, 1) else none

/-- A quoted scalar after its opening mark: the text, latest character first. -/
def quotedFrom (mark : Char) : Nat → List Char → Scanner → Option (List Char × Scanner)
  | 0, _, _ => none
  | fuel + 1, acc, s => do
    if s.column == 0 && (isDocumentMark '-' s.rest || isDocumentMark '.' s.rest) then none
    match s.rest with
    | [] => none
    | c :: r =>
      if isSpace c || isBreak c then
        let (blanks, breaks, s) ← gap 0 (s.rest.length + 1) [] [] s
        quotedFrom mark fuel ((folded blanks breaks).reverse ++ acc) s
      else if c == mark then
        if mark.toNat == 39 && r.head? == some mark then
          quotedFrom mark fuel (mark :: acc) (s.skipMany 2)
        else return (acc, s.skip)
      else if c == '\\' && mark.toNat == 34 then
        match r with
        | [] => none
        | d :: r' =>
          if isBreak d then
            let s := s.skipMany 2
            let (_, breaks, s) ← gap 0 (s.rest.length + 1) [] ['\n'] s
            quotedFrom mark fuel ((breaks.drop 1).reverse ++ acc) s
          else
            let (e, n) ← escape? d r'
            quotedFrom mark fuel (e :: acc) (s.skipMany (n + 1))
      else quotedFrom mark fuel (c :: acc) s.skip

/-- Line breaks and indentation before a line of a block scalar, given its indentation if that is
known: the line breaks, the greatest column reached, and the scanner after them. -/
def blockGap (level : Option Nat) : Nat → List Char → Nat → Scanner →
    Option (List Char × Nat × Scanner)
  | 0, _, _, _ => none
  | fuel + 1, breaks, reached, s =>
    let room := match level with
      | some l => l - s.column
      | none => s.rest.length
    let s := s.skipMany (min room (s.rest.takeWhile (· == ' ')).length)
    let reached := max reached s.column
    let isShort : Bool := match level with
      | some l => s.column < l
      | none => true
    match s.rest with
    | [] => some (breaks, reached, s)
    | c :: _ =>
      if isShort && c == '\t' then none
      else if isBreak c then blockGap level fuel (breaks ++ [c]) reached s.skip
      else some (breaks, reached, s)

/-- The lines of a block scalar with the given indentation.  `ending` is the line break that ended
the line before, `breaks` the empty lines since then, and `wasBlank` whether it started with a
blank; the result adds what ends the last line and the empty lines after it. -/
def blockLines (isLiteral : Bool) (level : Nat) : Nat → List Char → List Char → List Char →
    Bool → Scanner → Option (List Char × List Char × List Char × Scanner)
  | 0, _, _, _, _, _ => none
  | fuel + 1, acc, ending, breaks, wasBlank, s => do
    match s.rest with
    | [] => return (acc, ending, breaks, s)
    | c :: _ =>
      if s.column != level then return (acc, ending, breaks, s)
      let isBlank := isSpace c
      let joint :=
        if !isLiteral && ending.head? == some '\n' && !wasBlank && !isBlank then
          if breaks.isEmpty then [' '] else breaks
        else ending ++ breaks
      let line := s.rest.takeWhile (!isBreak ·)
      let s := s.skipMany line.length
      let ending := (s.rest.take 1)
      let s := s.skip
      let (breaks, _, s) ← blockGap (some level) (s.rest.length + 1) [] 0 s
      blockLines isLiteral level fuel (acc ++ joint ++ line) ending breaks isBlank s

/-- What the head of a block scalar says of the line breaks at its end: whether they are all kept,
or all dropped. -/
inductive Chomping where
  | strip
  | clip
  | keep
deriving Repr, DecidableEq, Inhabited

/-- The mark for a chomping. -/
def chomping? : Char → Option Chomping
  | '-' => some .strip
  | '+' => some .keep
  | _ => none

/-- The digit from one to nine that a character is. -/
def indentDigit? (c : Char) : Option Nat :=
  if '1' ≤ c && c ≤ '9' then some (c.toNat - 48) else none

/-- The chomping and the indentation that the head of a block scalar names, in either order, and
how many characters it has. -/
def blockHead (s : List Char) : Chomping × Option Nat × Nat :=
  match s with
  | a :: r =>
    match chomping? a, indentDigit? a with
    | some c, _ =>
      match r.head?.bind indentDigit? with
      | some n => (c, some n, 2)
      | none => (c, none, 1)
    | none, some n =>
      match r.head?.bind chomping? with
      | some c => (c, some n, 2)
      | none => (.clip, some n, 1)
    | none, none => (.clip, none, 0)
  | [] => (.clip, none, 0)

/-- A block scalar. -/
def block (isLiteral : Bool) (s : Scanner) : Option Scanner := do
  let (chomping, extra, n) := blockHead (s.rest.drop 1)
  let s := (s.skipMany (n + 1)).skipWhile isSpace
  let s := if s.rest.head? == some '#' then s.skipWhile (!isBreak ·) else s
  if !(s.rest.head?.map isBreak).getD true then none
  let s := s.skip
  let (breaks, reached, s') ← blockGap (extra.map (s.indent - 1 + ·)) (s.rest.length + 1) [] 0 s
  let level := match extra with
    | some e => s.indent - 1 + e
    | none => max 1 (max reached s.indent)
  let (text, ending, breaks, s'') ←
    blockLines isLiteral level (s'.rest.length + 1) [] [] breaks false s'
  let text := match chomping with
    | .strip => text
    | .clip => text ++ ending
    | .keep => text ++ ending ++ breaks
  return s''.emit (.scalar false text)

/-! ## 7. Tags and anchors -/

/-- The name of an anchor or a reference, which a gap or a mark must end. -/
def named (t : List Char → Token) (s : Scanner) : Option Scanner := do
  let name := (s.rest.drop 1).takeWhile isNameChar
  let s := s.skipMany (name.length + 1)
  let mayEnd := atGap s.rest || (s.rest.head?.map fun c =>
    ['?', ':', ',', ']', '%', '@'].contains c || c.toNat == 125 || c.toNat == 96).getD false
  if name.isEmpty || !mayEnd then none
  return s.emit (t name)

/-- The handle of a tag and the number of its characters. -/
def tagHandle? (s : List Char) : Option (List Char × Nat) :=
  match s.drop 1 with
  | '<' :: r =>
    let uri := r.takeWhile fun c => isTagChar c || c == ',' || c == '[' || c == ']'
    if uri.isEmpty || (r.drop uri.length).head? != some '>' then none
    else some ([], uri.length + 3)
  | r =>
    let word := r.takeWhile isNameChar
    if (r.drop word.length).head? == some '!' then
      let suffix := (r.drop (word.length + 1)).takeWhile isTagChar
      if suffix.isEmpty then none
      else some ('!' :: word ++ ['!'], word.length + suffix.length + 2)
    else some (['!'], (r.takeWhile isTagChar).length + 1)

/-- A tag, which a gap must end, or a comma in a flow collection. -/
def tagged (s : Scanner) : Option Scanner := do
  let (handle, n) ← tagHandle? s.rest
  let s := s.skipMany n
  if !(atGap s.rest || (s.inFlow && s.rest.head? == some ',')) then none
  return s.emit (.tag handle)

/-- What follows the name of a directive, up to its comment or the end of its line. -/
def directiveBody (s : List Char) : List Char :=
  (s.takeWhile fun c => !isBreak c && c != '#').dropWhile isSpace

/-- The numbers of a version that can be read. -/
def isReadableVersion (s : List Char) : Bool :=
  match (s.takeWhile (!isSpace ·)) with
  | ['1', '.', minor] => minor == '1' || minor == '2'
  | _ => false

/-- A directive: the version of the notation, or a handle for tags. -/
def directive (s : Scanner) : Option Scanner := do
  let s ← (s.closeBlocks 0).dropCandidate
  let line := s.rest.takeWhile (!isBreak ·)
  let name := (line.drop 1).takeWhile isNameChar
  let body := directiveBody (line.drop (name.length + 1))
  let next := { s.skipMany line.length with keyAllowed := false }
  if name == "YAML".toList && isReadableVersion body then return next.emit .versionDirective
  else if name == "TAG".toList then
    let handle := body.takeWhile (!isSpace ·)
    if handle.head? == some '!' && handle.getLast? == some '!' then
      return next.emit (.handleDirective handle)
    else none
  else none

/-! ## 8. Tokens -/

/-- Whether a plain scalar may start here. -/
def startsPlain (inFlow : Bool) (s : List Char) : Bool :=
  match s with
  | [] => false
  | c :: r =>
    if c == '-' then !(r.head?.map isSpace).getD false
    else if c == '?' || c == ':' then !inFlow && !atGap r
    else !(atGap s || isFlowMark c || ['#', '&', '*', '!', '|', '>', '%', '@'].contains c
      || c.toNat == 39 || c.toNat == 34 || c.toNat == 96)

/-- A mark of a document. -/
def documentMark (t : Token) (s : Scanner) : Option Scanner := do
  let s ← (s.closeBlocks 0).dropCandidate
  return { s.emitOver 3 t with keyAllowed := false }

/-- The start of a flow collection. -/
def openFlow (t : Token) (s : Scanner) : Option Scanner := do
  let s ← s.markCandidate
  return { s.emitOver 1 t with
    candidate := none, outer := s.candidate :: s.outer, keyAllowed := true }

/-- The end of a flow collection. -/
def closeFlow (t : Token) (s : Scanner) : Option Scanner := do
  let s ← s.dropCandidate
  let s := match s.outer with
    | k :: more => { s with candidate := k, outer := more }
    | [] => s
  return { s.emitOver 1 t with keyAllowed := false }

/-- An entry of a sequence, or a key that is marked as such. -/
def blockMark (collection mark : Token) (keyAllowed : Bool) (s : Scanner) : Option Scanner := do
  if !s.inFlow && !s.keyAllowed then none
  let s ← (s.openBlock s.column none collection).dropCandidate
  return { s.emitOver 1 mark with keyAllowed }

/-- The colon after a key.  If there is a candidate for the key, its token is put before it. -/
def valueMark (s : Scanner) : Option Scanner := do
  match s.candidate with
  | some k =>
    let s := { s with tokens := s.tokens.insertIdxIfInBounds k.token .key, candidate := none }
    return { (s.openBlock k.column (some k.token) .mappingStart).emitOver 1 .value with
      keyAllowed := false }
  | none =>
    if !s.inFlow && !s.keyAllowed then none
    let s := s.openBlock s.column none .mappingStart
    return { s.emitOver 1 .value with keyAllowed := !s.inFlow }

/-- A plain scalar. -/
def plain (s : Scanner) : Option Scanner := do
  let s ← s.markCandidate
  let (text, broken, s') ← plainFrom s.indent (s.rest.length + 1) [] [] false s
  return { s'.emit (.scalar true text.reverse) with keyAllowed := broken }

/-- A quoted scalar. -/
def quoted (mark : Char) (s : Scanner) : Option Scanner := do
  let s ← s.markCandidate
  let (text, s) ← quotedFrom mark (s.rest.length + 1) [] s.skip
  return { s.emit (.scalar false text.reverse) with keyAllowed := false }

/-- What a token that may be a key leaves behind. -/
def afterCandidate (next : Scanner → Option Scanner) (s : Scanner) : Option Scanner := do
  let s ← next (← s.markCandidate)
  return { s with keyAllowed := false }

/-- The scanner after the next token, at which it stands. -/
def token (s : Scanner) : Option Scanner :=
  let r := s.rest.drop 1
  match s.rest with
  | [] => none
  | c :: _ =>
    if s.column == 0 && c == '%' then s.directive
    else if s.column == 0 && isDocumentMark '-' s.rest then s.documentMark .documentStart
    else if s.column == 0 && isDocumentMark '.' s.rest then s.documentMark .documentEnd
    else if c == '[' then s.openFlow .flowSequenceStart
    else if c.toNat == 123 then s.openFlow .flowMappingStart
    else if c == ']' then s.closeFlow .flowSequenceEnd
    else if c.toNat == 125 then s.closeFlow .flowMappingEnd
    else if c == ',' then
      s.dropCandidate.map fun s => { s.emitOver 1 .flowEntry with keyAllowed := true }
    else if c == '-' && atGap r then s.blockMark .sequenceStart .blockEntry true
    else if c == '?' && (s.inFlow || atGap r) then s.blockMark .mappingStart .key (!s.inFlow)
    else if c == ':' && (s.inFlow || atGap r) then s.valueMark
    else if c == '*' then s.afterCandidate (named .reference)
    else if c == '&' then s.afterCandidate (named .anchor)
    else if c == '!' then s.afterCandidate tagged
    else if (c == '|' || c == '>') && !s.inFlow then
      (s.dropCandidate.bind (block (c == '|'))).map fun s => { s with keyAllowed := true }
    else if c.toNat == 39 || c.toNat == 34 then s.quoted c
    else if startsPlain s.inFlow s.rest then s.plain
    else none

/-- The scanner at the end of the text. -/
def run : Nat → Scanner → Option Scanner
  | 0, _ => none
  | fuel + 1, s => do
    let s ← (s.skipGap (s.rest.length + 1)).dropStale
    if s.rest.isEmpty then (({ s with column := 0 }).closeBlocks 0).dropCandidate
    else run fuel (← (s.closeBlocks (s.column + 1)).token)

end Scanner

/-- The tokens of a text; a mark of the byte order at its start does not count. -/
def tokens? (text : String) : Option (List Token) :=
  let s := unifyBreaks text.toList
  let s := if (s.head?.map fun c => c.toNat == 0xFEFF).getD false then s.drop 1 else s
  if s.any isForbidden then none
  else ((Scanner.start s).run (s.length + 2)).map (·.tokens.toList)

end Codemap.Yaml
