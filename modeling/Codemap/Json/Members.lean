/-
# Objects of which only some members are read

Members that are not wanted are checked for their form but not read: their numbers may be too great
and their texts may have lone surrogates, and brackets may be nested without limit.
-/
import Codemap.Json.Text
import Codemap.Text.Pieces

namespace Codemap.Json

/-! ## 1. Skipping values -/

/-- The rest of a text after its closing quotation mark. -/
def skipText? : Nat → List Char → Option (List Char)
  | 0, _ => none
  | fuel + 1, s =>
    match s with
    | [] => none
    | c :: r =>
      if c.toNat == 34 then some r
      else if c == '\\' then
        match r with
        | 'u' :: r => (hex4? r).bind fun h => skipText? fuel h.2
        | e :: r =>
          if e.toNat == 34 || ['\\', '/', 'b', 'f', 'n', 'r', 't'].contains e then skipText? fuel r
          else none
        | [] => none
      else if c.toNat < 32 then none
      else skipText? fuel r

/-- What follows a number. -/
def skipNumber? (s : List Char) : Option (List Char) := do
  let s := match s with
    | '-' :: r => r
    | r => r
  let (ds, r) := digitsOf s
  if ds.isEmpty || (ds.length > 1 && ds.head? == some '0') then none
  let (_, r) ← fraction? r
  return (← exponent? r).2

/-- What may come next inside brackets. -/
inductive Expected where
  | value
  | itemOrEnd
  | keyOrEnd
  | key
  | commaOrEnd
deriving Repr, DecidableEq, Inhabited

/-- The rest of a text after a value; `outer` are the closing brackets that are still to come, the
innermost first, and each round takes at least one character. -/
def skipFrom : Nat → Expected → List Char → List Char → Option (List Char)
  | 0, _, _, _ => none
  | fuel + 1, expected, outer, s =>
    let finish (r : List Char) : Option (List Char) :=
      if outer.isEmpty then some r else skipFrom fuel .commaOrEnd outer r
    let close (r : List Char) : Option (List Char) :=
      match outer with
      | [_] => some r
      | _ :: more => skipFrom fuel .commaOrEnd more r
      | [] => none
    match skipGap s with
    | [] => none
    | c :: r =>
      match expected with
      | .commaOrEnd =>
        if c == ',' then skipFrom fuel (if outer.head? == some ']' then .value else .key) outer r
        else if outer.head? == some c then close r
        else none
      | .keyOrEnd | .key =>
        if c.toNat == 34 then
          match (skipText? (r.length + 1) r).map skipGap with
          | some (':' :: r) => skipFrom fuel .value outer r
          | _ => none
        else if expected == .keyOrEnd && outer.head? == some c then close r
        else none
      | .value | .itemOrEnd =>
        if c == '[' then skipFrom fuel .itemOrEnd (']' :: outer) r
        else if c.toNat == 123 then skipFrom fuel .keyOrEnd (Char.ofNat 125 :: outer) r
        else if c == ']' && expected == .itemOrEnd then close r
        else if c.toNat == 34 then (skipText? (r.length + 1) r).bind finish
        else
          match ["null".toList, "true".toList, "false".toList].findSome?
              fun w => Text.after? w (c :: r) with
          | some r => finish r
          | none => (skipNumber? (c :: r)).bind finish

/-- The rest of a text after a value. -/
def skipValue? (s : List Char) : Option (List Char) := skipFrom (s.length + 1) .value [] s

/-! ## 2. Reading members -/

/-- The wanted members of an object, after those in `seen`, latest first, and the text behind its
closing brace. -/
def wantedFrom (wanted : List String) :
    Nat → List (String × Json) → List Char → Option (List (String × Json) × List Char)
  | 0, _, _ => none
  | fuel + 1, seen, s => do
    match skipGap s with
    | c :: r =>
      if c.toNat != 34 then none
      let (key, r) ← quoted? (r.length + 1) [] r
      match skipGap r with
      | ':' :: r =>
        let (seen, r) ←
          if wanted.contains key then
            (value? (2 * r.length + 2) 127 r).map fun (v, r) => ((key, v) :: seen, r)
          else (skipValue? r).map fun r => (seen, r)
        match skipGap r with
        | ',' :: r => wantedFrom wanted fuel seen r
        | d :: r => if d.toNat == 125 then some (seen.reverse, r) else none
        | [] => none
      | _ => none
    | [] => none

/-- The wanted members of the object that a text holds; `none` if it holds no object. -/
def wantedMembers? (wanted : List String) (s : List Char) : Option (List (String × Json)) :=
  match skipGap s with
  | c :: r =>
    if c.toNat != 123 then none
    else
      let result := match skipGap r with
        | d :: r' =>
          if d.toNat == 125 then some ([], r') else wantedFrom wanted (r.length + 1) [] r
        | [] => none
      match result with
      | some (members, r) => if (skipGap r).isEmpty then some members else none
      | none => none
  | [] => none

end Codemap.Json
