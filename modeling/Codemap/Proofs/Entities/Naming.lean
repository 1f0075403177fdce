/-
# What becomes of a name in a table's name

A name in snake case has a character for each character of the name, in order, and underscores
between words.  Which of its underscores stand for something is told by a trace of how it was
written (`IsSpelling`).  A word starts only behind a letter or digit, which has been written as such
just before, so that an underscore that stands for nothing is never at an end nor beside another.

Main statement: `snakeCase_losesNothing`, about the names in ASCII.
-/
import Codemap.Entities.Naming
import Codemap.Proofs.Text.Ascii
import Codemap.Proofs.Text.Pieces
import Mathlib.Data.List.ReduceOption

namespace Codemap.Entities

open Codemap.Text

variable {b c : Char} {before : Option Char} {name s out : List Char}
  {trace u v : List (Option Char)}

/-! ## 1. Traces -/

/-- What is written for a character of the name, or for none. -/
def written : Option Char → Char
  | none => '_'
  | some c => if c = '-' ∨ c = ' ' then '_' else c.toLower

/-- A trace of how a name was written: each item stands for a character of the name, or for none. -/
structure IsSpelling (trace : List (Option Char)) (name out : List Char) : Prop where
  name_eq : trace.reduceOption = name
  out_eq : trace.map written = out
  /-- An underscore that stands for nothing has a letter or digit before it and a letter behind. -/
  between : ∀ u v, trace = u ++ none :: v →
    (∃ d, (u.map written).getLast? = some d ∧ d.isAlphanum) ∧
      ∃ d, (v.map written).head? = some d ∧ d.isAlpha

/-- The trace that is left by writing a name from some place on. -/
def traceFrom (before : Option Char) : List Char → List (Option Char)
  | [] => []
  | c :: rest =>
    (if isUpper c && startsWord before rest then [none] else []) ++
      some c :: traceFrom (some c) rest

theorem reduceOption_traceFrom (before : Option Char) (s : List Char) :
    (traceFrom before s).reduceOption = s := by
  induction s generalizing before with
  | nil => rfl
  | cons c s ih =>
    rw [traceFrom, List.reduceOption_append, List.reduceOption_cons_of_some, ih]
    split <;> rfl

/-! ## 2. Characters -/

/-- What is written for a character is no capital, hyphen or blank. -/
theorem written_isPlain (hc : IsAscii c) :
    IsAscii (written c) ∧ ¬ (written c).isUpper ∧ written c ≠ '-' ∧ written c ≠ ' ' :=
  hc.of_forall (P := fun c => IsAscii (written c) ∧ ¬ (written c).isUpper ∧ written c ≠ '-' ∧
    written c ≠ ' ') (by decide +kernel)

theorem written_isAlphanum (hc : IsAscii c) : c.isAlphanum → (written c).isAlphanum :=
  hc.of_forall (P := fun c => c.isAlphanum → (written c).isAlphanum) (by decide +kernel)

theorem written_isAlpha (hc : IsAscii c) : c.isUpper → (written c).isAlpha :=
  hc.of_forall (P := fun c => c.isUpper → (written c).isAlpha) (by decide +kernel)

theorem written_ne_underscore_iff (hc : IsAscii c) :
    written c ≠ '_' ↔ c.toLower ≠ '_' ∧ c.toLower ≠ '-' ∧ c.toLower ≠ ' ' :=
  hc.of_forall (P := fun c => written c ≠ '_' ↔
    c.toLower ≠ '_' ∧ c.toLower ≠ '-' ∧ c.toLower ≠ ' ') (by decide +kernel)

theorem written_eq_self (hc : IsAscii c) : ¬ (c = '-' ∨ c = ' ') → isUpper c = false →
    written c = c :=
  hc.of_forall (P := fun c => ¬ (c = '-' ∨ c = ' ') → isUpper c = false → written c = c)
    (by decide +kernel)

theorem isAlphanum_of_letter_or_digit (hc : IsAscii c) :
    (isLower c ∨ c.isDigit) ∨ isUpper c → c.isAlphanum :=
  hc.of_forall (P := fun c => (isLower c ∨ c.isDigit) ∨ isUpper c → c.isAlphanum)
    (by decide +kernel)

/-- A word starts behind a letter or digit. -/
theorem exists_isAlphanum_of_startsWord {rest : List Char} (hbefore : ∀ b ∈ before, IsAscii b)
    (h : startsWord before rest) : ∃ b, before = some b ∧ b.isAlphanum := by
  cases before with
  | none => exact absurd h (by simp [startsWord])
  | some b =>
    simp only [startsWord, Bool.or_eq_true, Bool.and_eq_true] at h
    have hletter : (isLower b ∨ b.isDigit) ∨ isUpper b := h.imp_right And.left
    exact ⟨b, rfl, isAlphanum_of_letter_or_digit (hbefore b rfl) hletter⟩

/-- No underscore is written just before a word starts. -/
theorem written_before_ne {rest : List Char} (hbefore : ∀ b ∈ before, IsAscii b)
    (h : startsWord before rest) : (before.map fun b : Char => written b) ≠ some '_' := by
  obtain ⟨b, rfl, hb⟩ := exists_isAlphanum_of_startsWord hbefore h
  have halnum := written_isAlphanum (hbefore b rfl) hb
  intro hunderscore
  have hw : written b = '_' := Option.some.inj hunderscore
  rw [hw] at halnum
  exact absurd halnum (by decide)

/-! ## 3. The trace of a name -/

/-- **What is written is what the trace says.**  The character written last is the one for the
character before, so the test for an underscore is of no consequence. -/
theorem snakeFrom_eq (hbefore : ∀ b ∈ before, IsAscii b) (hs : ∀ c ∈ s, IsAscii c) :
    snakeFrom before (before.map fun b : Char => written b) s =
      (traceFrom before s).map written := by
  induction s generalizing before with
  | nil => rfl
  | cons c s ih =>
    obtain ⟨hc, hs⟩ := List.forall_mem_cons.mp hs
    have hrest : snakeFrom (some c) (some (written c)) s = (traceFrom (some c) s).map written :=
      ih (by simpa using hc) hs
    rw [traceFrom, List.map_append, List.map_cons, ← hrest, snakeFrom]
    by_cases hsep : c = '-' ∨ c = ' '
    · have hup : isUpper c = false := by rcases hsep with rfl | rfl <;> decide
      have hw : written c = '_' := if_pos hsep
      rw [if_pos (by simpa using hsep), hup, hw]
      rfl
    · rw [if_neg (by simpa using hsep)]
      cases hup : isUpper c with
      | false =>
        rw [written_eq_self hc hsep hup]
        rfl
      | true =>
        have hw : written c = c.toLower := if_neg hsep
        rw [hc.lowerChar_eq, ← hw]
        cases hstart : startsWord before s with
        | false => rfl
        | true =>
          rw [Bool.true_and, if_pos (bne_iff_ne.mpr (written_before_ne hbefore hstart))]
          rfl

/-- A letter or digit stands before an item that stands for nothing, and a capital behind it. -/
def HasNeighbours (u v : List (Option Char)) : Prop :=
  (∃ b, u.getLast? = some (some b) ∧ IsAscii b ∧ b.isAlphanum) ∧
    ∃ c, v.head? = some (some c) ∧ IsAscii c ∧ c.isUpper

theorem HasNeighbours.append_left (h : HasNeighbours u v) (p : List (Option Char)) :
    HasNeighbours (p ++ u) v := by
  obtain ⟨⟨b, hb, hletter⟩, hright⟩ := h
  exact ⟨⟨b, by rw [List.getLast?_append, hb, Option.some_or], hletter⟩, hright⟩

theorem hasNeighbours_traceFrom (hbefore : ∀ b ∈ before, IsAscii b) (hs : ∀ c ∈ s, IsAscii c)
    (h : before.toList.map some ++ traceFrom before s = u ++ none :: v) : HasNeighbours u v := by
  induction s generalizing before u with
  | nil =>
    have hmem : none ∈ before.toList.map some := by
      rw [traceFrom, List.append_nil] at h
      exact h ▸ List.mem_append_cons_self
    simp at hmem
  | cons c s ih =>
    obtain ⟨hc, hs⟩ := List.forall_mem_cons.mp hs
    -- From `c` on, `c` is the character before.
    have hrest {w : List (Option Char)} (h : some c :: traceFrom (some c) s = w ++ none :: v) :
        HasNeighbours w v := by
      have hbefore : ∀ b ∈ some c, IsAscii b := by simpa using hc
      exact ih hbefore hs h
    rw [traceFrom] at h
    split at h
    next hstart =>
      obtain ⟨hup, hstart⟩ := Bool.and_eq_true_iff.mp hstart
      obtain ⟨b, rfl, hb⟩ := exists_isAlphanum_of_startsWord hbefore hstart
      rcases u with _ | ⟨x, _ | ⟨y, w⟩⟩
      · simp at h
      · obtain ⟨rfl, rfl⟩ : some b = x ∧ some c :: traceFrom (some c) s = v := by simpa using h
        exact ⟨⟨b, rfl, hbefore b rfl, hb⟩, c, rfl, hc, hc.isUpper_eq ▸ hup⟩
      · have hw : some c :: traceFrom (some c) s = w ++ none :: v := by
          simpa using (List.cons.inj (List.cons.inj h).2).2
        exact (hrest hw).append_left [x, y]
    next =>
      cases before with
      | none => exact hrest h
      | some b =>
        cases u with
        | nil => simp at h
        | cons x w => exact (hrest (List.cons.inj h).2).append_left [x]

theorem isSpelling_snakeCase (h : ∀ c ∈ name, IsAscii c) :
    IsSpelling (traceFrom none name) name (snakeCase name) where
  name_eq := reduceOption_traceFrom none name
  out_eq := (snakeFrom_eq (by simp) h).symm
  between u v huv := by
    have hnone : ∀ b ∈ (none : Option Char), IsAscii b := by simp
    obtain ⟨⟨b, hb, hascii, hletter⟩, c, hc, hascii', hup⟩ := hasNeighbours_traceFrom hnone h huv
    refine ⟨⟨written b, ?_, written_isAlphanum hascii hletter⟩, written c, ?_,
      written_isAlpha hascii' hup⟩
    · rw [List.getLast?_map, hb]
      rfl
    · rw [List.head?_map, hc]
      rfl

/-! ## 4. What a trace tells of the result -/

theorem IsSpelling.mem_cases (h : IsSpelling trace name out) (hc : c ∈ out) :
    c = '_' ∨ ∃ d ∈ name, c = written d := by
  obtain ⟨x, hx, rfl⟩ := List.mem_map.mp (h.out_eq ▸ hc)
  cases x with
  | none => exact Or.inl rfl
  | some d => exact Or.inr ⟨d, h.name_eq ▸ List.reduceOption_mem_iff.mpr hx, rfl⟩

theorem IsSpelling.isPlain (h : IsSpelling trace name out) (hname : ∀ c ∈ name, IsAscii c) :
    ∀ c ∈ out, IsAscii c ∧ ¬ c.isUpper ∧ c ≠ '-' ∧ c ≠ ' ' := by
  intro c hc
  rcases h.mem_cases hc with rfl | ⟨d, hd, rfl⟩
  · decide
  · exact written_isPlain (hname d hd)

/-- Without underscores the result is the name in lower case, without separators. -/
theorem IsSpelling.filter_eq (h : IsSpelling trace name out) (hname : ∀ c ∈ name, IsAscii c) :
    out.filter (· ≠ '_') =
      (name.map Char.toLower).filter fun c => c ≠ '_' ∧ c ≠ '-' ∧ c ≠ ' ' := by
  obtain ⟨rfl, rfl, -⟩ := h
  induction trace with
  | nil => rfl
  | cons x trace ih =>
    cases x with
    | none => exact ih hname
    | some c =>
      rw [List.reduceOption_cons_of_some] at hname ⊢
      obtain ⟨hc, hname⟩ := List.forall_mem_cons.mp hname
      have hiff := written_ne_underscore_iff hc
      rw [List.map_cons, List.map_cons, List.filter_cons, List.filter_cons, ih hname]
      simp only [decide_eq_true_eq, ← hiff]
      split
      next hne =>
        have hw : written c = c.toLower := if_neg fun hsep => hne (if_pos hsep)
        rw [hw]
      next => rfl

/-- What has no capitals, hyphens or blanks is written as it is. -/
theorem snakeFrom_eq_self (before last : Option Char)
    (hs : ∀ c ∈ s, IsAscii c ∧ ¬ c.isUpper ∧ c ≠ '-' ∧ c ≠ ' ') : snakeFrom before last s = s := by
  induction s generalizing before last with
  | nil => rfl
  | cons c s ih =>
    obtain ⟨⟨hc, hup, hhyphen, hblank⟩, hs⟩ := List.forall_mem_cons.mp hs
    rw [snakeFrom, if_neg (by simp [hhyphen, hblank]), if_neg (by rwa [hc.isUpper_eq]), ih _ _ hs]

/-! ## 5. The last word -/

/-- The rest of a text behind its last underscore is put into the plural. -/
def PluralizesLast (s table : List Char) : Prop :=
  ∃ head last, s = head ++ last ∧ '_' ∉ last ∧ (head = [] ∨ head.getLast? = some '_') ∧
    table = head ++ plural last

theorem tableName_pluralizesLast (name : List Char) :
    PluralizesLast (snakeCase name) (tableName name) := by
  rw [tableName]
  by_cases hmem : '_' ∈ snakeCase name
  · obtain ⟨a, b, hs, hb⟩ := exists_append_cons_of_mem hmem
    refine ⟨a ++ ['_'], b, by simp [hs], hb, Or.inr (by simp), ?_⟩
    simp [hs, cutLast_append_cons hb]
  · exact ⟨[], snakeCase name, rfl, hmem, Or.inl rfl, by simp [cutLast_of_not_mem hmem]⟩

/-! ## 6. Names in ASCII -/

/-- A text is a name in snake case: nothing is lost but the difference between separators. -/
structure IsSnakeCase (name out : List Char) : Prop where
  plain : ∀ c ∈ out, IsAscii c ∧ ¬ c.isUpper ∧ c ≠ '-' ∧ c ≠ ' '
  kept : out.filter (· ≠ '_') =
    (name.map Char.toLower).filter fun c => c ≠ '_' ∧ c ≠ '-' ∧ c ≠ ' '
  spelled : ∃ trace, IsSpelling trace name out
  stable : snakeCase out = out

/-- **Snake case loses nothing, and only the last word of it is put into the plural.** -/
theorem snakeCase_losesNothing (name : List Char) (h : ∀ c ∈ name, IsAscii c) :
    IsSnakeCase name (snakeCase name) ∧ PluralizesLast (snakeCase name) (tableName name) := by
  have hspelling := isSpelling_snakeCase h
  have hplain := hspelling.isPlain h
  exact ⟨⟨hplain, hspelling.filter_eq h, ⟨_, hspelling⟩, snakeFrom_eq_self none none hplain⟩,
    tableName_pluralizesLast name⟩

/-- Words that a capital, the end of a run of capitals, a digit or a hyphen tells apart. -/
theorem snakeCase_losesNothing_requests :
    (∀ c ∈ "HTTPRequest2Log-entry".toList, IsAscii c) ∧
      IsSnakeCase "HTTPRequest2Log-entry".toList "http_request2_log_entry".toList ∧
      PluralizesLast "http_request2_log_entry".toList "http_request2_log_entries".toList := by
  have hall : "HTTPRequest2Log-entry".toList.all (IsAscii ·) := by decide
  have hascii : ∀ c ∈ "HTTPRequest2Log-entry".toList, IsAscii c := fun c hc =>
    of_decide_eq_true (List.all_eq_true.mp hall c hc)
  exact ⟨hascii, snakeCase_losesNothing _ hascii⟩

end Codemap.Entities
