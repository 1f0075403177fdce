/-
# Copies at the ends of texts

A text is some copies of a beginning and what follows them, which does not have that beginning
again (`dropCopiesStart_eq_iff`); and it is what remains and some copies of its last character
(`dropEndWhile_eq_iff`).

A text that is stripped is what is left between what is left out on either side
(`exists_eq_append_strip`), and a character that is not left out keeps apart what is stripped before
it and what is stripped behind it (`strip_append_cons`).
-/
import Codemap.Text.Pieces
import Mathlib.Data.List.DropRight

namespace Codemap.Text

/-! ## 1. At the start -/

section Start

variable {head r s : List Char}

theorem after?_eq_some_iff : after? head s = some r ↔ s = head ++ r := by
  rw [after?]
  constructor
  · intro h
    split at h
    next hprefix =>
      obtain ⟨t, rfl⟩ := List.isPrefixOf_iff_prefix.mp hprefix
      simpa using h
    next => simp at h
  · rintro rfl
    simp

theorem after?_eq_none_iff : after? head s = none ↔ ¬ head <+: s := by
  rw [after?]
  split
  next h => simp [List.isPrefixOf_iff_prefix.mp h]
  next h => simpa using h

/-- As many copies as there are steps to take them away are taken away. -/
theorem dropAllStart_copies (hne : head ≠ []) (hr : ¬ head <+: r) {m n : ℕ} (hmn : m ≤ n) :
    dropAllStart head n ((List.replicate m head).flatten ++ r) = r := by
  induction m generalizing n with
  | zero =>
    cases n with
    | zero => rfl
    | succ n => rw [List.replicate_zero, List.flatten_nil, List.nil_append, dropAllStart,
        after?_eq_none_iff.mpr hr]
  | succ m ih =>
    obtain ⟨n, rfl⟩ : ∃ k, n = k + 1 := ⟨n - 1, by omega⟩
    rw [List.replicate_succ, List.flatten_cons, List.append_assoc, dropAllStart,
      after?_eq_some_iff.mpr rfl]
    simpa [hne] using ih (by omega)

/-- A text is some copies of a beginning, and something that does not begin so. -/
theorem exists_copies_append (hne : head ≠ []) (s : List Char) :
    ∃ m r, s = (List.replicate m head).flatten ++ r ∧ ¬ head <+: r := by
  by_cases h : head <+: s
  · obtain ⟨t, rfl⟩ := h
    obtain ⟨m, r, ht, hr⟩ := exists_copies_append hne t
    refine ⟨m + 1, r, ?_, hr⟩
    rw [List.replicate_succ, List.flatten_cons, List.append_assoc, ← ht]
  · exact ⟨0, s, rfl, h⟩
termination_by s.length
decreasing_by
  have := List.length_pos_of_ne_nil hne
  simp only [← ‹head ++ t = s›, List.length_append]
  omega

/-- **What is left when copies at the start are taken away.** -/
theorem dropCopiesStart_eq_iff (hne : head ≠ []) :
    dropCopiesStart head s = r ↔
      ∃ m, s = (List.replicate m head).flatten ++ r ∧ ¬ head <+: r := by
  have hcopies {m : ℕ} {r : List Char} (hr : ¬ head <+: r) :
      dropCopiesStart head ((List.replicate m head).flatten ++ r) = r := by
    have hpos := List.length_pos_of_ne_nil hne
    refine dropAllStart_copies hne hr ?_
    simp only [List.length_append, List.length_flatten, List.map_replicate,
      List.sum_replicate_nat]
    exact (Nat.le_mul_of_pos_right m hpos).trans (Nat.le_add_right _ _)
  constructor
  · rintro rfl
    obtain ⟨m, r, rfl, hr⟩ := exists_copies_append hne s
    exact ⟨m, by rw [hcopies hr], by rwa [hcopies hr]⟩
  · rintro ⟨m, rfl, hr⟩
    exact hcopies hr

end Start

/-! ## 2. At the end -/

section End

variable {c : Char} {s t : List Char}

theorem dropEndWhile_append_replicate (n : ℕ) (ht : t.getLast? ≠ some c) :
    dropEndWhile (· == c) (t ++ List.replicate n c) = t := by
  rw [dropEndWhile, ← List.rdropWhile]
  induction n with
  | zero =>
    rw [List.replicate_zero, List.append_nil, List.rdropWhile_eq_self_iff]
    intro hne hlast
    exact ht (List.getLast?_eq_some_getLast hne ▸ congrArg some (eq_of_beq hlast))
  | succ n ih =>
    rw [List.replicate_succ', ← List.append_assoc,
      List.rdropWhile_concat_pos (· == c) _ _ (beq_self_eq_true c), ih]

/-- **What is left when copies of a character at the end are taken away.** -/
theorem dropEndWhile_eq_iff :
    dropEndWhile (· == c) s = t ↔ ∃ n, s = t ++ List.replicate n c ∧ t.getLast? ≠ some c := by
  constructor
  · rintro rfl
    refine ⟨(s.rtakeWhile (· == c)).length, ?_, fun hlast => ?_⟩
    · have hall : ∀ d ∈ s.rtakeWhile (· == c), d = c := fun d hd =>
        eq_of_beq (List.mem_rtakeWhile_imp (p := (· == c)) hd)
      rw [← List.eq_replicate_length.mpr hall]
      exact List.rdropWhile_append_rtakeWhile.symm
    · have hne : s.rdropWhile (· == c) ≠ [] := fun hnil => by
        rw [dropEndWhile, ← List.rdropWhile, hnil] at hlast
        simp at hlast
      refine List.rdropWhile_last_not (· == c) s hne (beq_iff_eq.mpr ?_)
      exact Option.some.inj ((List.getLast?_eq_some_getLast hne).symm.trans hlast)
  · rintro ⟨n, rfl, ht⟩
    exact dropEndWhile_append_replicate n ht

end End

/-! ## 3. At both ends -/

section Ends

variable {p : Char → Bool} {s t : List Char}

/-- What stands before a character that is not left out stays, and that character. -/
theorem dropEndWhile_append_cons {c : Char} (hc : p c = false) (s t : List Char) :
    dropEndWhile p (s ++ c :: t) = s ++ c :: dropEndWhile p t := by
  rw [dropEndWhile, List.reverse_append, List.reverse_cons, List.append_assoc,
    List.dropWhile_append]
  split
  next hnil =>
    rw [List.isEmpty_iff] at hnil
    rw [dropEndWhile, hnil, List.singleton_append, List.dropWhile_cons_of_neg (by simp [hc])]
    simp
  · simp [dropEndWhile]

/-- What is not left out is left at the end, and nothing before it is left out. -/
theorem dropEndWhile_append (hs : ∀ c ∈ s.getLast?, p c = false) (ht : ∀ c ∈ t, p c = true) :
    dropEndWhile p (s ++ t) = s := by
  rw [dropEndWhile, List.reverse_append,
    List.dropWhile_append_of_pos fun c hc => ht c (List.mem_reverse.mp hc)]
  cases hrev : s.reverse with
  | nil => rw [List.reverse_eq_nil_iff.mp hrev]; rfl
  | cons c r =>
    obtain rfl : s = (c :: r).reverse := by rw [← hrev, List.reverse_reverse]
    rw [List.dropWhile_cons_of_neg (by simp [hs c (by simp)])]

theorem dropEndWhile_eq_self (hs : ∀ c ∈ s.getLast?, p c = false) : dropEndWhile p s = s := by
  simpa using dropEndWhile_append hs (t := []) (by simp)

/-- If something is left at the end, all that stands before it is left. -/
theorem dropEndWhile_append_eq (s t : List Char) : dropEndWhile p (s ++ t) =
    if (dropEndWhile p t).isEmpty then dropEndWhile p s else s ++ dropEndWhile p t := by
  simp only [dropEndWhile, List.reverse_append, List.dropWhile_append, List.isEmpty_reverse]
  split <;> simp

theorem startsWith_dropEndWhile (p : Char → Bool) (s : List Char) : dropEndWhile p s <+: s := by
  rw [dropEndWhile, ← List.reverse_suffix, List.reverse_reverse]
  exact List.dropWhile_suffix p

/-- A text is what is left at its end, and what is left out. -/
theorem exists_eq_dropEndWhile_append (p : Char → Bool) (s : List Char) :
    ∃ b, s = dropEndWhile p s ++ b ∧ ∀ c ∈ b, p c = true :=
  ⟨s.rtakeWhile p, List.rdropWhile_append_rtakeWhile.symm, fun _ => List.mem_rtakeWhile_imp⟩

theorem mem_of_mem_dropEndWhile {c : Char} (h : c ∈ dropEndWhile p s) : c ∈ s := by
  rw [dropEndWhile, List.mem_reverse] at h
  exact List.mem_reverse.mp ((List.dropWhile_suffix p).subset h)

/-- A text is what is left between its ends, with what is left out on either side. -/
theorem exists_eq_append_strip (p : Char → Bool) (s : List Char) :
    ∃ a b, s = a ++ strip p s ++ b ∧ (∀ c ∈ a, p c = true) ∧ (∀ c ∈ b, p c = true) ∧
      (∀ c ∈ (strip p s).head?, p c = false) ∧ ∀ c ∈ (strip p s).getLast?, p c = false := by
  have hrest : s.dropWhile p = strip p s ++ (s.dropWhile p).rtakeWhile p :=
    List.rdropWhile_append_rtakeWhile.symm
  refine ⟨s.takeWhile p, (s.dropWhile p).rtakeWhile p, ?_, fun c => List.mem_takeWhile_imp,
    fun c => List.mem_rtakeWhile_imp, fun c hc => ?_, fun c hc => ?_⟩
  · rw [List.append_assoc, ← hrest, List.takeWhile_append_dropWhile]
  · have hnot := List.head?_dropWhile_not p s
    rw [hrest, List.head?_append, Option.mem_def.mp hc] at hnot
    simpa using hnot
  · have hne : (s.dropWhile p).rdropWhile p ≠ [] := List.ne_nil_of_mem (List.mem_of_mem_getLast? hc)
    have hlast := List.rdropWhile_last_not p (s.dropWhile p) hne
    rw [Bool.not_eq_true] at hlast
    rwa [Option.some.inj ((Option.mem_def.mp hc).symm.trans (List.getLast?_eq_some_getLast hne))]

theorem exists_replicate_append_strip (c : Char) (s : List Char) :
    ∃ m n, s = List.replicate m c ++ strip (· == c) s ++ List.replicate n c ∧
      (strip (· == c) s).head? ≠ some c ∧ (strip (· == c) s).getLast? ≠ some c := by
  obtain ⟨a, b, hs, ha, hb, hhead, hlast⟩ := exists_eq_append_strip (· == c) s
  refine ⟨a.length, b.length, ?_, fun h => ?_, fun h => ?_⟩
  · rwa [← List.eq_replicate_length.mpr fun d hd => eq_of_beq (ha d hd),
      ← List.eq_replicate_length.mpr fun d hd => eq_of_beq (hb d hd)]
  · exact absurd (hhead c h) (by simp)
  · exact absurd (hlast c h) (by simp)

theorem strip_append_cons {c : Char} (hc : p c = false) (s t : List Char) :
    strip p (s ++ c :: t) = s.dropWhile p ++ c :: dropEndWhile p t := by
  have hdrop : (s ++ c :: t).dropWhile p = s.dropWhile p ++ c :: t := by
    rw [List.dropWhile_append]
    split
    next hnil => rw [List.isEmpty_iff.mp hnil, List.dropWhile_cons_of_neg (by simp [hc])]; rfl
    · rfl
  rw [strip, hdrop, dropEndWhile_append_cons hc]

/-- Stripping leaves what has other ends. -/
theorem strip_append (hhead : ∀ c ∈ s.head?, p c = false) (hlast : ∀ c ∈ s.getLast?, p c = false)
    (ht : ∀ c ∈ t, p c = true) : strip p (s ++ t) = s := by
  cases s with
  | nil =>
    rw [List.nil_append, strip, List.dropWhile_eq_nil_iff.mpr ht]
    rfl
  | cons c r =>
    rw [strip, List.cons_append, List.dropWhile_cons_of_neg (by simp [hhead c rfl]),
      ← List.cons_append, dropEndWhile_append hlast ht]

theorem strip_eq_self (hhead : ∀ c ∈ s.head?, p c = false)
    (hlast : ∀ c ∈ s.getLast?, p c = false) : strip p s = s := by
  simpa using strip_append hhead hlast (t := []) (by simp)

/-- A text without blanks has none at its ends. -/
theorem trim_of_forall (hs : ∀ c ∈ s, isBlank c = false) : trim s = s :=
  strip_eq_self (fun c hc => hs c (List.mem_of_mem_head? hc))
    fun c hc => hs c (List.mem_of_mem_getLast? hc)

/-- What is left between the ends was there before. -/
theorem mem_of_mem_strip {c : Char} (h : c ∈ strip p s) : c ∈ s :=
  (List.dropWhile_suffix p).subset (mem_of_mem_dropEndWhile h)

/-- Nothing is left of a text that is left out altogether. -/
theorem strip_eq_nil_iff : strip p s = [] ↔ ∀ c ∈ s, p c = true := by
  obtain ⟨a, b, hs, ha, hb, hhead, -⟩ := exists_eq_append_strip p s
  constructor
  · intro hnil
    rw [hnil, List.append_nil] at hs
    rw [hs]
    exact List.forall_mem_append.mpr ⟨ha, hb⟩
  · intro hall
    cases hstrip : strip p s with
    | nil => rfl
    | cons c t =>
      have hin := hall c (mem_of_mem_strip (hstrip ▸ List.mem_cons_self))
      exact absurd (hhead c (by rw [hstrip]; rfl)) (by simp [hin])

end Ends

end Codemap.Text
