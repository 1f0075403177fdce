/-
# Items of a list of requirements

A list holds requirements in quotes, with commas between them.  The reader cuts at every comma, also
at those within quotes, and takes each part for an item: it takes quotes and closing brackets off
the ends and looks for a name.

Where a requirement begins with its name, the name stands before anything that could mislead the
reader, so it is always read (`read_eq_append`).  But a comma within a requirement makes an item of
what follows it.  Behind the comma of a list of versions there is no name, and nothing comes of it
(`read_of_isSimple`); behind the comma of a list of extras there is one.
-/
import Codemap.Manifests.Project
import Codemap.Proofs.Text.Lines

namespace Codemap.Manifests.Project

open Codemap.Text

/-! ## 1. Names of requirements -/

section Names

variable {s n y : List Char}

/-- Blanks at the ends of a requirement make no difference. -/
theorem requirementName_trim (s : List Char) : requirementName (trim s) = requirementName s := by
  rw [requirementName, requirementName, trim_trim]

theorem trim_takeWhile_trim (p : Char → Bool) (hhead : ∀ c ∈ s.head?, isBlank c = false) :
    trim ((trim s).takeWhile p) = trim (s.takeWhile p) := by
  obtain ⟨a, b, hs, ha, hb, -, -⟩ := exists_eq_append_strip isBlank s
  obtain rfl : a = [] := by
    cases a with
    | nil => rfl
    | cons c a =>
      have hc := hhead c (by rw [hs]; rfl)
      exact absurd (ha c List.mem_cons_self) (by simp [hc])
  change s = trim s ++ b at hs
  conv_rhs => rw [hs, List.takeWhile_append]
  split
  next hall =>
    rw [(List.takeWhile_prefix p).eq_of_length hall]
    exact (strip_append_of_forall fun c hc => hb c ((List.takeWhile_prefix p).subset hc)).symm
  · rfl

theorem requirementName_blank_append {b : List Char} (hb : ∀ c ∈ b, isBlank c = true)
    (s : List Char) : requirementName (b ++ s) = requirementName s := by
  rw [← requirementName_trim, trim, strip_of_forall_append hb, ← trim, requirementName_trim]

theorem requirementName_trimEnd (s : List Char) :
    requirementName (trimEnd s) = requirementName s := by
  obtain ⟨b, hs, hb⟩ := exists_eq_dropEndWhile_append isBlank s
  rw [← requirementName_trim s]
  conv_rhs => rw [hs]
  rw [trim, strip_append_of_forall hb, ← trim, requirementName_trim, trimEnd]

/-- **The name is what stands before the first mark that ends names.** -/
theorem requirementName_append (hn : ∀ c ∈ n, endsName c = false)
    (hy : ∀ c ∈ y.head?, endsName c = true) (hhead : ∀ c ∈ (n ++ y).head?, isBlank c = false) :
    requirementName (n ++ y) = lower (trim n) := by
  have hstop : y.takeWhile (!endsName ·) = [] := by
    cases y with
    | nil => rfl
    | cons c y => exact List.takeWhile_cons_of_neg (by simp [hy c rfl])
  rw [requirementName, trim_takeWhile_trim _ hhead,
    List.takeWhile_append_of_pos (by simpa using hn), hstop, List.append_nil]

end Names

/-! ## 2. Items -/

/-- The mark of double quotes. -/
def quote : Char := Char.ofNat 34

/-- A character that is taken off the ends of an item. -/
def isWrapping (c : Char) : Bool := isMark c || c == ']'

/-- What may stand behind the last requirement on a line: nothing, or the closing bracket. -/
def IsEnd (t : List Char) : Prop := t = [] ∨ t = [']']

/-- A requirement, as it may stand in double quotes: it holds no quotes, no sign of a comment and no
line break. -/
structure Requirement where
  text : List Char
  plain : ∀ c ∈ text, isMark c = false ∧ c ≠ '#' ∧ c ≠ '\n' := by decide

namespace Requirement

/-- The name of what is required, if it has one. -/
def name? (r : Requirement) : Option String := requirement? r.text

/-- A requirement in quotes. -/
def quoted (r : Requirement) : List Char := quote :: (r.text ++ [quote])

/-- The names that are read of a requirement in quotes. -/
def read (r : Requirement) : List String := listedRequirements r.quoted

/-- The names that are read behind the commas of a requirement: the parts between its commas, and
the last one with the quotation mark, are taken for items. -/
def leaked (r : Requirement) : List String :=
  (piecesAt ',' (r.text ++ [quote])).tail.filterMap listedRequirement?

/-- There is neither a comma nor a closing bracket before the name ends. -/
def BeginsWithName (r : Requirement) : Prop :=
  ∀ c ∈ (trimStart r.text).takeWhile (!endsName ·), c ≠ ',' ∧ c ≠ ']'

instance (r : Requirement) : Decidable r.BeginsWithName :=
  inferInstanceAs (Decidable (∀ c ∈ _, _))

/-- A requirement that begins with its name, and in which a mark that ends names is behind each
comma, as at the start of a version. -/
structure IsSimple (r : Requirement) : Prop where
  name : r.BeginsWithName
  versions : ∀ part ∈ (piecesAt ',' r.text).tail, ∃ c ∈ (trimStart part).head?, endsName c = true

instance (r : Requirement) : Decidable r.IsSimple :=
  decidable_of_iff (r.BeginsWithName ∧ ∀ part ∈ (piecesAt ',' r.text).tail,
    ∃ c ∈ (trimStart part).head?, endsName c = true) ⟨fun h => ⟨h.1, h.2⟩, fun h => ⟨h.1, h.2⟩⟩

end Requirement

section Items

variable {a b s : List Char}

theorem listedRequirement?_eq (item : List Char) :
    listedRequirement? item = requirement? (strip isWrapping (trim item)) := rfl

theorem listedRequirement?_of_blank {t : List Char} (ht : ∀ c ∈ t, isBlank c = true)
    (s : List Char) : listedRequirement? (t ++ s) = listedRequirement? s := by
  rw [listedRequirement?_eq, listedRequirement?_eq, trim, trim, strip_of_forall_append ht]

/-- A comma ends an item. -/
theorem listedRequirements_append (a b : List Char) :
    listedRequirements (a ++ ',' :: b) = listedRequirements a ++ listedRequirements b := by
  rw [listedRequirements, piecesAt, pieces_append (by decide), List.filterMap_append]
  rfl

theorem listedRequirements_cons_blank (s : List Char) :
    listedRequirements (' ' :: s) = listedRequirements s := by
  obtain ⟨q, qs, hq, hcons⟩ := exists_pieces_cons (p := (· == ',')) (c := ' ') (by decide) s
  have hitem : listedRequirement? (' ' :: q) = listedRequirement? q :=
    listedRequirement?_of_blank (t := [' ']) (by decide) q
  rw [listedRequirements, listedRequirements, piecesAt, piecesAt, hq, hcons, List.filterMap_cons,
    List.filterMap_cons, hitem]

/-- Nothing is listed where there is nothing but the end of the list. -/
theorem listedRequirements_of_isEnd (h : IsEnd s) : listedRequirements s = [] := by
  rcases h with rfl | rfl <;> decide

theorem listedRequirements_of_not_mem (h : ',' ∉ s) :
    listedRequirements s = (listedRequirement? s).toList := by
  rw [listedRequirements, piecesAt_of_not_mem h, List.filterMap_cons]
  cases listedRequirement? s <;> rfl

/-- Only the last item hangs on how a list ends. -/
theorem listedRequirements_congr_end {t t' : List Char} (ht : ',' ∉ t) (ht' : ',' ∉ t')
    (h : ∀ b, listedRequirement? (b ++ t) = listedRequirement? (b ++ t')) (s : List Char) :
    listedRequirements (s ++ t) = listedRequirements (s ++ t') := by
  have hlast {b : List Char} (hb : ',' ∉ b) :
      listedRequirements (b ++ t) = listedRequirements (b ++ t') := by
    rw [listedRequirements_of_not_mem (by simp [hb, ht]),
      listedRequirements_of_not_mem (by simp [hb, ht']), h]
  by_cases hs : ',' ∈ s
  · obtain ⟨a, b, rfl, hb⟩ := exists_append_cons_of_mem hs
    rw [List.append_assoc, List.append_assoc, List.cons_append, List.cons_append,
      listedRequirements_append, listedRequirements_append, hlast hb]
  · exact hlast hs

/-- The end of the list makes no difference behind a quotation mark. -/
theorem listedRequirements_append_end (s : List Char) :
    listedRequirements (s ++ [quote, ']']) = listedRequirements (s ++ [quote]) := by
  refine listedRequirements_congr_end (by decide) (by decide) (fun b => ?_) s
  have htrim (t : List Char) (ht : dropEndWhile isBlank t = t) :
      trim (b ++ quote :: t) = b.dropWhile isBlank ++ quote :: t := by
    rw [trim, strip_append_cons (by decide), ht]
  rw [listedRequirement?_eq, listedRequirement?_eq, htrim [']'] (by decide),
    htrim [] (by decide), strip_append_of_forall (p := isWrapping) (by decide),
    strip_append_of_forall (p := isWrapping) (by decide)]

end Items

/-! ## 3. A requirement in quotes -/

theorem isWrapping_of_isBlank {c : Char} (h : isBlank c = true) : isWrapping c = false := by
  have hmarks : c.toNat ≠ 34 ∧ c.toNat ≠ 39 ∧ c ≠ ']' := by
    refine ⟨fun heq => ?_, fun heq => ?_, ?_⟩
    · simp [isBlank, heq] at h
    · simp [isBlank, heq] at h
    · rintro rfl
      exact absurd h (by decide)
  simp [isWrapping, isMark, hmarks]

theorem isWrapping_of_endsName {c : Char} (h : endsName c = true) : isWrapping c = false := by
  have hall : ∀ c ∈ ['=', '<', '>', '!', '~', '[', ';', '@', ' ', '('], isWrapping c = false := by
    decide
  exact hall c (List.contains_iff_mem.mp h)

theorem dropWhile_of_forall {p : Char → Bool} {s : List Char} (h : ∀ c ∈ s, p c = false) :
    s.dropWhile p = s := by
  cases s with
  | nil => rfl
  | cons c s => exact List.dropWhile_cons_of_neg (by simp [h c List.mem_cons_self])

/-- **Of an item that starts with a quotation mark the name is read**, whatever follows the name. -/
theorem requirementName_item {b n t : List Char} (hb : ∀ c ∈ b, isBlank c = true)
    (hn : ∀ c ∈ n, endsName c = false) (hname : ∀ c ∈ n, isWrapping c = false)
    (ht : t = [quote] ∨ ∃ e t', t = e :: t' ∧ endsName e = true)
    (hhead : ∀ c ∈ (n ++ t).head?, isBlank c = false) :
    requirementName (strip isWrapping (trim (quote :: (b ++ n ++ t)))) = lower (trim n) := by
  have hkeep : ∀ c ∈ b ++ n, isWrapping c = false :=
    List.forall_mem_append.mpr ⟨fun c hc => isWrapping_of_isBlank (hb c hc), hname⟩
  have hfirst : ∀ c ∈ (n ++ []).head?, isBlank c = false := by
    intro c hc
    rw [List.append_nil] at hc
    exact hhead c (by rw [List.head?_append, Option.mem_def.mp hc]; rfl)
  have htrim : trim (quote :: (b ++ n ++ t)) = [quote] ++ trimEnd (b ++ n ++ t) :=
    strip_append_cons (by decide) [] _
  rw [htrim, strip_of_forall_append (by decide), trimEnd]
  have hbare {s : List Char} (hs : ∀ c ∈ s, isWrapping c = false) : strip isWrapping s = s :=
    strip_eq_self (fun c hc => hs c (List.mem_of_mem_head? hc))
      fun c hc => hs c (List.mem_of_mem_getLast? hc)
  rcases ht with rfl | ⟨e, t', rfl, he⟩
  · rw [dropEndWhile_append_cons (by decide), strip_append_of_forall (by decide), hbare hkeep,
      requirementName_blank_append hb, ← List.append_nil n,
      requirementName_append hn (by simp) hfirst, List.append_nil]
  · rw [dropEndWhile_append_eq]
    split
    next =>
      -- Only blanks follow the name.
      rw [hbare fun c hc => hkeep c (mem_of_mem_dropEndWhile hc), ← trimEnd,
        requirementName_trimEnd, requirementName_blank_append hb, ← List.append_nil n,
        requirementName_append hn (by simp) hfirst, List.append_nil]
    next hne =>
      obtain ⟨z, hz⟩ : ∃ z, dropEndWhile isBlank (e :: t') = e :: z := by
        have hstart := startsWith_dropEndWhile isBlank (e :: t')
        rcases List.prefix_cons_iff.mp hstart with h | ⟨z, h, -⟩
        · exact absurd (List.isEmpty_iff.mpr h) hne
        · exact ⟨z, h⟩
      rw [hz, strip_append_cons (isWrapping_of_endsName he), dropWhile_of_forall hkeep,
        List.append_assoc, requirementName_blank_append hb]
      refine requirementName_append hn (fun c hc => ?_) fun c hc => hhead c ?_
      · obtain rfl := Option.some.inj hc
        exact he
      · rw [List.head?_append] at hc ⊢
        exact hc

/-- A requirement that begins with its name, and what follows the name. -/
theorem exists_eq_append_name {r : Requirement} (h : r.BeginsWithName) : ∃ b n t,
    r.text = b ++ n ++ t ∧ (∀ c ∈ b, isBlank c = true) ∧ (∀ c ∈ n, endsName c = false) ∧
    (∀ c ∈ n, c ≠ ',' ∧ c ≠ ']') ∧ (∀ c ∈ t.head?, endsName c = true) ∧
    ∀ c ∈ (n ++ t).head?, isBlank c = false := by
  refine ⟨r.text.takeWhile isBlank, (trimStart r.text).takeWhile (!endsName ·),
    (trimStart r.text).dropWhile (!endsName ·), ?_, fun c => List.mem_takeWhile_imp, fun c hc => ?_,
    h, fun c hc => ?_, fun c hc => ?_⟩
  · rw [List.append_assoc, List.takeWhile_append_dropWhile, trimStart,
      List.takeWhile_append_dropWhile]
  · simpa using List.mem_takeWhile_imp hc
  · have hnot := List.head?_dropWhile_not (!endsName ·) (trimStart r.text)
    rw [Option.mem_def.mp hc] at hnot
    simpa using hnot
  · rw [List.takeWhile_append_dropWhile] at hc
    have hnot := List.head?_dropWhile_not isBlank r.text
    rw [← trimStart, Option.mem_def.mp hc] at hnot
    simpa using hnot

theorem requirement?_congr {s t : List Char} (h : requirementName s = requirementName t) :
    requirement? s = requirement? t := by
  rw [requirement?, requirement?, h]

/-- What follows the name is empty, or starts with a mark that ends names; the first part of it and
of the quotation mark behind it starts alike. -/
theorem exists_pieces_after_name {t : List Char} (ht : ∀ c ∈ t.head?, endsName c = true) :
    ∃ q qs, pieces (· == ',') (t ++ [quote]) = q :: qs ∧ q.head? = (t ++ [quote]).head? ∧
      (q = [quote] ∨ ∃ e q', q = e :: q' ∧ endsName e = true) := by
  cases t with
  | nil => exact ⟨[quote], [], rfl, rfl, Or.inl rfl⟩
  | cons e t =>
    have he : (e == ',') = false := by
      rw [beq_eq_false_iff_ne]
      rintro rfl
      exact absurd (ht ',' rfl) (by decide)
    obtain ⟨q, qs, -, h⟩ := exists_pieces_cons (p := (· == ',')) he (t ++ [quote])
    exact ⟨e :: q, qs, h, rfl, Or.inr ⟨e, q, rfl, ht e rfl⟩⟩

/-- **Of the first part of a requirement in quotes the name is read.** -/
theorem requirementName_first {r : Requirement} (h : r.BeginsWithName) {q : List Char}
    {qs : List (List Char)} (hq : pieces (· == ',') (r.text ++ [quote]) = q :: qs) :
    requirementName (strip isWrapping (trim (quote :: q))) = requirementName r.text := by
  obtain ⟨b, n, t, htext, hb, hn, hname, ht, hhead⟩ := exists_eq_append_name h
  have hcomma : ∀ c ∈ b ++ n, (c == ',') = false := by
    refine List.forall_mem_append.mpr ⟨fun c hc => ?_, fun c hc => ?_⟩
    · rw [beq_eq_false_iff_ne]
      rintro rfl
      exact absurd (hb _ hc) (by decide)
    · exact beq_eq_false_iff_ne.mpr (hname c hc).1
  have hwrapping : ∀ c ∈ n, isWrapping c = false := by
    intro c hc
    have hmark := (r.plain c (by rw [htext]; simp [hc])).1
    simp [isWrapping, hmark, (hname c hc).2]
  -- The first part is all that stands before the end of the name, and something behind it.
  obtain ⟨q₁, qs₁, hq₁, hsame, hends⟩ := exists_pieces_after_name ht
  obtain ⟨q₂, qs₂, hq₂, happend⟩ := exists_pieces_append hcomma (t ++ [quote])
  obtain ⟨rfl, -⟩ := List.cons.inj (hq₁.symm.trans hq₂)
  rw [← List.append_assoc, ← htext, hq] at happend
  obtain ⟨rfl, -⟩ := List.cons.inj happend
  have hfirst : ∀ c ∈ (n ++ q₁).head?, isBlank c = false := by
    intro c hc
    rw [List.head?_append, hsame, ← List.head?_append, ← List.append_assoc, List.head?_append] at hc
    rcases Option.or_eq_some_iff.mp hc with hc | ⟨-, hc⟩
    · exact hhead c hc
    · obtain rfl := Option.some.inj hc
      decide
  rw [requirementName_item hb hn hwrapping hends hfirst, htext, List.append_assoc b n t,
    requirementName_blank_append hb, requirementName_append hn ht hhead]

/-- **A requirement is read as itself and what is behind its commas.** -/
theorem read_eq_append {r : Requirement} (h : r.BeginsWithName) :
    r.read = r.name?.toList ++ r.leaked := by
  obtain ⟨q, qs, hq, hquoted⟩ := exists_pieces_cons (p := (· == ',')) (c := quote) (by decide)
    (r.text ++ [quote])
  rw [Requirement.read, listedRequirements, piecesAt, Requirement.quoted, hquoted,
    List.filterMap_cons, Requirement.leaked, piecesAt, hq, List.tail_cons, listedRequirement?_eq,
    requirement?_congr (requirementName_first h hq), Requirement.name?]
  cases requirement? r.text <;> rfl

/-- There is no name in an item that a mark that ends names stands at the front of. -/
theorem listedRequirement?_of_endsName {item : List Char} {e : Char}
    (he : e ∈ (trimStart item).head?) (hends : endsName e = true) :
    listedRequirement? item = none := by
  obtain ⟨t, ht⟩ : ∃ t, item.dropWhile isBlank = e :: t := List.head?_eq_some_iff.mp he
  have hblank : isBlank e = false := by
    have hnot := List.head?_dropWhile_not isBlank item
    rw [ht] at hnot
    simpa using hnot
  have hname : requirementName (e :: dropEndWhile isWrapping (dropEndWhile isBlank t)) = [] :=
    requirementName_append (n := []) (by simp) (by simpa using hends) (by simpa using hblank)
  have htrim : trim item = [] ++ e :: dropEndWhile isBlank t := by
    rw [trim, strip, ht]
    exact dropEndWhile_append_cons hblank [] t
  have hitem : strip isWrapping (trim item) =
      e :: dropEndWhile isWrapping (dropEndWhile isBlank t) := by
    rw [htrim, strip_append_cons (isWrapping_of_endsName hends)]
    rfl
  rw [listedRequirement?_eq, hitem, requirement?, hname]
  rfl

/-- **Behind the commas of versions there are no names.** -/
theorem leaked_eq_nil {r : Requirement} (h : r.IsSimple) : r.leaked = [] := by
  obtain ⟨parts, last, htext, hquoted⟩ :=
    exists_pieces_append_right (p := (· == ',')) (t := [quote]) (by decide) r.text
  have hversions := h.versions
  rw [Requirement.leaked, piecesAt, hquoted]
  rw [piecesAt, htext] at hversions
  cases parts with
  | nil => rfl
  | cons first parts =>
    refine List.filterMap_eq_nil_iff.mpr fun part hpart => ?_
    rcases List.mem_append.mp hpart with hpart | hpart
    · obtain ⟨e, he, hends⟩ := hversions part (List.mem_append_left _ hpart)
      exact listedRequirement?_of_endsName he hends
    · obtain ⟨e, he, hends⟩ := hversions last (List.mem_append_right _ List.mem_cons_self)
      obtain rfl := List.mem_singleton.mp hpart
      refine listedRequirement?_of_endsName (e := e) ?_ hends
      have hne : (last.dropWhile isBlank).isEmpty = false := by
        rw [List.isEmpty_eq_false_iff]
        rintro hnil
        rw [trimStart, hnil] at he
        exact absurd he (by simp)
      rw [trimStart, List.dropWhile_append, hne, if_neg (by simp), List.head?_append,
        ← trimStart, Option.mem_def.mp he]
      rfl

/-- **Of a simple requirement its name is read, and nothing else.** -/
theorem read_of_isSimple {r : Requirement} (h : r.IsSimple) : r.read = r.name?.toList := by
  rw [read_eq_append h.name, leaked_eq_nil h, List.append_nil]

end Codemap.Manifests.Project
