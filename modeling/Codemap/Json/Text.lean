/-
# Data values as text

Values are written on one line (`Json.compact`) or with two blanks of indentation a level
(`Json.pretty`).  In a text, the quotation mark, the backslash and the control characters are
escaped and nothing else.

`Json.parse?` reads exactly one value with white space around it.  It is strict: no comments, no
commas before a closing bracket, no leading zeros, no raw control characters in a text, no lone
surrogates, and at most 127 levels of brackets.  All members of an object are kept, also those that
share a key.
-/
import Codemap.Json.Value

namespace Codemap.Json

/-! ## 1. Writing -/

/-- A digit of base sixteen. -/
def hexDigit (n : Nat) : Char :=
  if n < 10 then Char.ofNat (48 + n) else Char.ofNat (87 + n)

/-- A character inside quotation marks. -/
def escape (c : Char) : List Char :=
  if c.toNat == 34 then ['\\', c]
  else if c == '\\' then ['\\', '\\']
  else if c == '\n' then ['\\', 'n']
  else if c == '\r' then ['\\', 'r']
  else if c == '\t' then ['\\', 't']
  else if c.toNat == 8 then ['\\', 'b']
  else if c.toNat == 12 then ['\\', 'f']
  else if c.toNat < 32 then ['\\', 'u', '0', '0', hexDigit (c.toNat / 16), hexDigit (c.toNat % 16)]
  else [c]

/-- A text in quotation marks. -/
def quote (s : String) : String :=
  "\"" ++ .ofList (s.toList.flatMap escape) ++ "\""

/-- A value that is neither a list nor an object. -/
def scalarText : Json → String
  | null => "null"
  | bool b => if b then "true" else "false"
  | whole n => toString n
  | decimal d => .ofList d.dataText
  | string s => quote s
  | array _ => "[]"
  | object _ => "\x7b\x7d"

mutual

/-- A value on one line. -/
def compact : Json → String
  | array items => "[" ++ compactItems true items ++ "]"
  | object members => "\x7b" ++ compactMembers true members ++ "\x7d"
  | v => scalarText v

/-- The items of a list, separated by commas. -/
def compactItems (first : Bool) : List Json → String
  | [] => ""
  | v :: vs => (if first then "" else ",") ++ compact v ++ compactItems false vs

/-- The members of an object, separated by commas. -/
def compactMembers (first : Bool) : List (String × Json) → String
  | [] => ""
  | (k, v) :: ms =>
    (if first then "" else ",") ++ quote k ++ ":" ++ compact v ++ compactMembers false ms

end

/-- A new line with the indentation of a level. -/
def newLine (level : Nat) : String := .ofList ('\n' :: List.replicate (2 * level) ' ')

mutual

/-- A value over several lines, one item or member a line. -/
def pretty (level : Nat) : Json → String
  | array [] => "[]"
  | object [] => "\x7b\x7d"
  | array (v :: vs) =>
    "[" ++ newLine (level + 1) ++ pretty (level + 1) v ++ prettyItems (level + 1) vs
      ++ newLine level ++ "]"
  | object ((k, v) :: ms) =>
    "\x7b" ++ newLine (level + 1) ++ quote k ++ ": " ++ pretty (level + 1) v
      ++ prettyMembers (level + 1) ms ++ newLine level ++ "\x7d"
  | v => scalarText v

/-- The further items of a list. -/
def prettyItems (level : Nat) : List Json → String
  | [] => ""
  | v :: vs => "," ++ newLine level ++ pretty level v ++ prettyItems level vs

/-- The further members of an object. -/
def prettyMembers (level : Nat) : List (String × Json) → String
  | [] => ""
  | (k, v) :: ms =>
    "," ++ newLine level ++ quote k ++ ": " ++ pretty level v ++ prettyMembers level ms

end

/-! ## 2. Reading -/

/-- The white space between tokens. -/
def isGap (c : Char) : Bool := c == ' ' || c == '\n' || c == '\r' || c == '\t'

/-- The text from its next token on. -/
def skipGap (s : List Char) : List Char := s.dropWhile isGap

/-- The value of a digit of base sixteen. -/
def hexValue? (c : Char) : Option Nat :=
  if c.isDigit then some (c.toNat - 48)
  else if 'a' ≤ c && c ≤ 'f' then some (c.toNat - 87)
  else if 'A' ≤ c && c ≤ 'F' then some (c.toNat - 55)
  else none

/-- Four digits of base sixteen. -/
def hex4? : List Char → Option (Nat × List Char)
  | a :: b :: c :: d :: rest => do
    let a ← hexValue? a
    let b ← hexValue? b
    let c ← hexValue? c
    let d ← hexValue? d
    return (((a * 16 + b) * 16 + c) * 16 + d, rest)
  | _ => none

/-- The character that an escape after a backslash stands for. -/
def unescape? : List Char → Option (Char × List Char)
  | 'n' :: r => some ('\n', r)
  | 'r' :: r => some ('\r', r)
  | 't' :: r => some ('\t', r)
  | 'b' :: r => some (Char.ofNat 8, r)
  | 'f' :: r => some (Char.ofNat 12, r)
  | '/' :: r => some ('/', r)
  | '\\' :: r => some ('\\', r)
  | 'u' :: r => do
    let (high, r) ← hex4? r
    if 0xD800 ≤ high && high < 0xDC00 then
      match r with
      | '\\' :: 'u' :: r => do
        let (low, r) ← hex4? r
        if 0xDC00 ≤ low && low < 0xE000 then
          return (Char.ofNat (0x10000 + (high - 0xD800) * 0x400 + (low - 0xDC00)), r)
        else none
      | _ => none
    else if 0xDC00 ≤ high && high < 0xE000 then none
    else return (Char.ofNat high, r)
  | c :: r => if c.toNat == 34 then some (c, r) else none
  | [] => none

/-- The rest of a text after its opening quotation mark. -/
def quoted? : Nat → List Char → List Char → Option (String × List Char)
  | 0, _, _ => none
  | fuel + 1, seen, s =>
    match s with
    | [] => none
    | c :: r =>
      if c.toNat == 34 then some (.ofList seen.reverse, r)
      else if c == '\\' then do
        let (d, r) ← unescape? r
        quoted? fuel (d :: seen) r
      else if c.toNat < 32 then none
      else quoted? fuel (c :: seen) r

/-- A number made of digits. -/
def ofDigits (ds : List Char) : Nat := ds.foldl (fun n c => 10 * n + (c.toNat - 48)) 0

/-- The digits at the start of a text, and the rest. -/
def digitsOf (s : List Char) : List Char × List Char :=
  (s.takeWhile Char.isDigit, s.dropWhile Char.isDigit)

/-- The fraction of a number: its digits, none when there is no point. -/
def fraction? : List Char → Option (List Char × List Char)
  | '.' :: r =>
    let (ds, r) := digitsOf r
    if ds.isEmpty then none else some (ds, r)
  | s => some ([], s)

/-- The exponent of a number, if it has one. -/
def exponent? (s : List Char) : Option (Option Int × List Char) :=
  match s with
  | c :: r =>
    if c == 'e' || c == 'E' then
      let (negative, r) := match r with
        | '-' :: r => (true, r)
        | '+' :: r => (false, r)
        | r => (false, r)
      let (ds, r) := digitsOf r
      if ds.isEmpty then none
      else
        let e : Int := ofDigits ds
        some (some (if negative then -e else e), r)
    else some (none, s)
  | [] => some (none, s)

/-- A number. -/
def number? (s : List Char) : Option (Json × List Char) := do
  let (negative, s) := match s with
    | '-' :: r => (true, r)
    | r => (false, r)
  let (ds, r) := digitsOf s
  if ds.isEmpty || (ds.length > 1 && ds.head? == some '0') then none
  let (fs, r1) ← fraction? r
  let (e, r2) ← exponent? r1
  if fs.isEmpty && e.isNone && !(negative && ofDigits ds == 0) then
    let n : Int := ofDigits ds
    return (whole (if negative then -n else n), r2)
  else
    let d : Decimal := ⟨negative, ofDigits (ds ++ fs), e.getD 0 - (fs.length : Int)⟩
    if d.units != 0 && d.exponent > 400 then none
    let d := if d.exponent < -20000 then ⟨negative, 0, 0⟩ else d
    if d.toFloat.isInf then none
    return (decimal d, r2)

mutual

/-- A value.  `depth` bounds the levels of brackets. -/
def value? : Nat → Nat → List Char → Option (Json × List Char)
  | 0, _, _ => none
  | fuel + 1, depth, s =>
    match skipGap s with
    | 'n' :: 'u' :: 'l' :: 'l' :: r => some (null, r)
    | 't' :: 'r' :: 'u' :: 'e' :: r => some (bool true, r)
    | 'f' :: 'a' :: 'l' :: 's' :: 'e' :: r => some (bool false, r)
    | '[' :: r =>
      if depth ≤ 1 then none
      else
        match skipGap r with
        | ']' :: r => some (array [], r)
        | r => items? fuel (depth - 1) [] r
    | c :: r =>
      if c.toNat == 34 then
        (quoted? (r.length + 1) [] r).map fun (t, r) => (string t, r)
      else if c.toNat == 123 then
        if depth ≤ 1 then none
        else
          match skipGap r with
          | d :: r' =>
            if d.toNat == 125 then some (object [], r') else members? fuel (depth - 1) [] r
          | [] => none
      else number? (c :: r)
    | [] => none

/-- The items of a list and its closing bracket, after the items in `seen`, latest first. -/
def items? : Nat → Nat → List Json → List Char → Option (Json × List Char)
  | 0, _, _, _ => none
  | fuel + 1, depth, seen, s => do
    let (v, r) ← value? fuel depth s
    match skipGap r with
    | ',' :: r => items? fuel depth (v :: seen) r
    | ']' :: r => return (array (v :: seen).reverse, r)
    | _ => none

/-- The members of an object and its closing brace, after the members in `seen`, latest first.  Keys
may be repeated. -/
def members? : Nat → Nat → List (String × Json) → List Char → Option (Json × List Char)
  | 0, _, _, _ => none
  | fuel + 1, depth, seen, s => do
    match skipGap s with
    | c :: r =>
      if c.toNat != 34 then none
      let (key, r) ← quoted? (r.length + 1) [] r
      match skipGap r with
      | ':' :: r =>
        let (v, r) ← value? fuel depth r
        match skipGap r with
        | ',' :: r => members? fuel depth ((key, v) :: seen) r
        | d :: r =>
          if d.toNat == 125 then return (object ((key, v) :: seen).reverse, r) else none
        | [] => none
      | _ => none
    | [] => none

end

/-- The value that a text stands for. -/
def parse? (s : String) : Option Json :=
  let cs := s.toList
  match value? (2 * cs.length + 2) 128 cs with
  | some (v, r) => if (skipGap r).isEmpty then some v else none
  | none => none

end Codemap.Json
