/-
# The layer of a file is a weighted vote

A directory of a file's path that names a layer, and a segment of the file's name that does, vote
with weight two; a module that is imported votes with weight one for each layer among whose typical
packages its own is.  `votesFor` counts this for a layer, straight from the path and the imports,
and `hitsFor` counts the same without weights.  The votes that are cast are these (`tally_votes`),
and none is lost when they are sorted by layers (`sum_tally`).  The fold over the layers
keeps the first of those with most votes (`foldl_lead_spec`).

Main statement: `classify_weightedVote`.
-/
import Codemap.Proofs.Layers.Names
import Codemap.Proofs.Packages.Known
import Codemap.Proofs.Text.Pieces
import Mathlib.Algebra.Order.BigOperators.Group.List
import Mathlib.Algebra.Order.Field.Rat
import Mathlib.Data.List.ProdSigma
import Mathlib.Tactic.Linarith

namespace Codemap

open Text

variable {overrides : Layer → List String} {f : FileFacts} {l : Layer}

namespace Layers

/-! ## 1. What votes -/

/-- The directories of a path that have names. -/
def directories (path : String) : List (List Char) :=
  (piecesAt '/' path.toList).dropLast.filter (!·.isEmpty)

/-- The name of a file without what stands after its last dot. -/
def stem (path : String) : List Char :=
  let name := lastPart '/' path.toList
  ((cutLast '.' name).map (·.1)).getD name

/-- The parts of the name of a file between underscores, hyphens and dots. -/
def segments (path : String) : List (List Char) :=
  (pieces (fun c => c == '_' || c == '-' || c == '.') (stem path)).filter (!·.isEmpty)

/-- A module that is not written relative to the file belongs to one of the packages. -/
def isTypical (keys : List String) (source : String) : Bool :=
  !(source.toList.head? == some '.') && keys.any (Packages.belongsTo source)

/-- How many directories and parts of its name tell a layer of a file. -/
def namedFor (overrides : Layer → List String) (f : FileFacts) (l : Layer) : ℕ :=
  (directories f.path).countP (toldLayer? overrides · == some l) +
    (segments f.path).countP (toldLayer? overrides · == some l)

/-- How many pairs of a module that a file imports and of packages that are typical of a layer
match. -/
def importedFor (f : FileFacts) (l : Layer) : ℕ :=
  (f.importSources ×ˢ provenance).countP fun (source, layer, keys) =>
    layer == l && isTypical keys source

/-- How much speaks for a layer. -/
def hitsFor (overrides : Layer → List String) (f : FileFacts) (l : Layer) : ℕ :=
  namedFor overrides f l + importedFor f l

/-- How much it counts. -/
def votesFor (overrides : Layer → List String) (f : FileFacts) (l : Layer) : ℕ :=
  2 * namedFor overrides f l + importedFor f l

/-- A piece of evidence shows the layer that it speaks for, at its end. -/
def shows (l : Layer) (evidence : String) : Bool :=
  ("' -> " ++ l.name).toList.isSuffixOf evidence.toList

/-- The first of the layers for which the count is greatest. -/
def IsFirstGreatest (count : Layer → ℕ) (ls : List Layer) (l : Layer) : Prop :=
  ∃ before after, ls = before ++ l :: after ∧ (∀ m ∈ before, count m < count l) ∧
    ∀ m ∈ after, count m ≤ count l

/-- The layer of a file is that of a weighted vote. -/
structure IsWeightedVote (overrides : Layer → List String) (f : FileFacts) (a : LayerAnalysis) :
    Prop where
  file : a.file = f.path
  /-- There is one piece of evidence for everything that speaks for a layer, and it shows that
  layer. -/
  length_evidence : a.evidence.length = (Layer.ranked.map (hitsFor overrides f)).sum
  countP_shows : ∀ l, a.evidence.countP (shows l) = hitsFor overrides f l
  /-- The layer is unknown, with no confidence, just when nothing speaks for any. -/
  unknown_iff : a.layer = .unknown ∧ a.confidence = 0.0 ↔ ∀ l, hitsFor overrides f l = 0
  /-- Otherwise the first of the layers with most votes wins, -/
  wins : (∃ l, hitsFor overrides f l ≠ 0) →
    IsFirstGreatest (votesFor overrides f) Layer.ranked a.layer
  /-- with its share of the votes as confidence, -/
  confidence : (∃ l, hitsFor overrides f l ≠ 0) →
    a.confidence = Float.ofNat (votesFor overrides f a.layer) /
      Float.ofNat (Layer.ranked.map (votesFor overrides f)).sum
  /-- which is at least a fifth. -/
  share : (∃ l, hitsFor overrides f l ≠ 0) →
    (1 / 5 : ℚ) ≤ votesFor overrides f a.layer / (Layer.ranked.map (votesFor overrides f)).sum

/-! ## 2. The votes that are cast -/

/-- The vote of a module for the layer that packages are typical of. -/
def importVote? : String × Layer × List String → Option Vote := fun (source, l, keys) =>
  if source.toList.head? == some '.' then none
  else (Packages.longestMatch? keys source).map fun package =>
    ⟨l, 1, "import '" ++ package ++ "' -> " ++ l.name⟩

theorem importVotes_eq (source : String) :
    importVotes source = (provenance.map (Prod.mk source)).filterMap importVote? := by
  rw [importVotes, List.filterMap_map]
  split
  next h => exact (List.filterMap_eq_nil_iff.mpr fun p _ => if_pos h).symm
  next h => exact List.filterMap_congr fun p _ => (if_neg h).symm

/-- The votes of imports, pair by pair. -/
theorem flatMap_importVotes (sources : List String) :
    sources.flatMap importVotes = (sources ×ˢ provenance).filterMap importVote? := by
  induction sources with
  | nil => rfl
  | cons source sources ih =>
    rw [List.flatMap_cons, List.product_cons, List.filterMap_append, ih, importVotes_eq]

/-- The votes of a path: of the directories before its last slash, and of the name behind it. -/
theorem pathVotes_eq (n : LayerNames) (path : String) :
    n.pathVotes path.toList = (directories path).filterMap (n.vote? "directory") ++
      (segments path).filterMap (n.vote? "file name") := by
  by_cases hslash : '/' ∈ path.toList
  · obtain ⟨a, b, hpath, hb⟩ := exists_append_cons_of_mem hslash
    have hdirectories : directories path = (piecesAt '/' a).filter (!·.isEmpty) := by
      rw [directories, hpath, piecesAt_append_cons hb, List.dropLast_concat]
    have hname : lastPart '/' path.toList = b := by
      rw [lastPart, hpath, piecesAt_append_cons hb, List.getLastD_concat]
    rw [LayerNames.pathVotes, hdirectories, segments, stem, hname, hpath, cutLast_append_cons hb]
    rfl
  · have hdirectories : directories path = [] := by
      rw [directories, piecesAt_of_not_mem hslash]
      rfl
    have hname : lastPart '/' path.toList = path.toList := by
      rw [lastPart, piecesAt_of_not_mem hslash]
      rfl
    rw [LayerNames.pathVotes, hdirectories, segments, stem, hname, cutLast_of_not_mem hslash]
    rfl

/-! ## 3. Counting them -/

section Count

variable {votes votes' : List Vote}

@[simp] theorem weight_append (votes votes' : List Vote) :
    weight (votes ++ votes') = weight votes + weight votes' := by
  induction votes with
  | nil => simp [weight]
  | cons v votes ih =>
    simp only [weight, List.cons_append, List.foldr_cons] at ih ⊢
    omega

@[simp] theorem tally_append (votes votes' : List Vote) (l : Layer) :
    tally (votes ++ votes') l = tally votes l + tally votes' l := by
  rw [tally, List.filter_append, weight_append, tally, tally]

/-- Votes of one weight count so many times what they are. -/
theorem tally_of_weight {k : ℕ} (h : ∀ v ∈ votes, v.weight = k) (l : Layer) :
    tally votes l = k * votes.countP (·.layer == l) := by
  induction votes with
  | nil => rfl
  | cons v votes ih =>
    obtain ⟨hv, hvotes⟩ := List.forall_mem_cons.mp h
    have ih := ih hvotes
    rw [← List.singleton_append, tally_append, ih, List.countP_append, Nat.mul_add]
    congr 1
    by_cases hl : v.layer == l <;> simp [tally, weight, hl, hv]

theorem sum_ranked_ite {m : Layer} (hm : m ∈ Layer.ranked) (x : ℕ) :
    (Layer.ranked.map fun l => if m == l then x else 0).sum = x := by
  simp only [Layer.ranked, List.mem_cons, List.not_mem_nil, or_false] at hm
  rcases hm with rfl | rfl | rfl | rfl | rfl <;> simp [Layer.ranked]

/-- No vote is lost when votes are sorted by layers. -/
theorem sum_filter_ranked (g : Vote → ℕ) (h : ∀ v ∈ votes, v.layer ∈ Layer.ranked) :
    (Layer.ranked.map fun l => ((votes.filter (·.layer == l)).map g).sum).sum =
      (votes.map g).sum := by
  induction votes with
  | nil => rfl
  | cons v votes ih =>
    obtain ⟨hv, hvotes⟩ := List.forall_mem_cons.mp h
    have hcons (l : Layer) : (((v :: votes).filter (·.layer == l)).map g).sum =
        (if v.layer == l then g v else 0) + ((votes.filter (·.layer == l)).map g).sum := by
      by_cases hl : v.layer == l <;> simp [hl]
    simp only [hcons, List.sum_map_add, sum_ranked_ite hv, ih hvotes, List.map_cons,
      List.sum_cons]

theorem weight_eq_sum (votes : List Vote) : weight votes = (votes.map (·.weight)).sum := by
  induction votes with
  | nil => rfl
  | cons v votes ih => rw [List.map_cons, List.sum_cons, ← ih, weight, List.foldr_cons, ← weight]

theorem sum_tally (h : ∀ v ∈ votes, v.layer ∈ Layer.ranked) :
    (Layer.ranked.map (tally votes)).sum = weight votes := by
  have htally : tally votes = fun l => ((votes.filter (·.layer == l)).map (·.weight)).sum :=
    funext fun l => weight_eq_sum _
  rw [htally, weight_eq_sum]
  exact sum_filter_ranked (·.weight) h

theorem sum_countP (h : ∀ v ∈ votes, v.layer ∈ Layer.ranked) :
    (Layer.ranked.map fun l => votes.countP (·.layer == l)).sum = votes.length := by
  have hone := sum_filter_ranked (fun _ => 1) h
  simpa [List.countP_eq_length_filter] using hone

end Count

/-! ## 4. What speaks for a layer -/

/-- The votes of names are those of the layers that they tell. -/
theorem countP_names (place : String) (names : List (List Char)) (l : Layer) :
    (names.filterMap ((LayerNames.default.withOverrides overrides).vote? place)).countP
      (·.layer == l) = names.countP (toldLayer? overrides · == some l) := by
  rw [List.countP_filterMap]
  refine congrArg (List.countP · names) (funext fun name => ?_)
  rw [LayerNames.vote?, LayerNames.layer?_withOverrides]
  cases toldLayer? overrides name <;> simp

/-- The votes of imports are those of the packages that are typical of a layer. -/
theorem countP_imports (sources : List String) (l : Layer) :
    ((sources ×ˢ provenance).filterMap importVote?).countP (·.layer == l) =
      (sources ×ˢ provenance).countP fun (source, layer, keys) =>
        layer == l && isTypical keys source := by
  rw [List.countP_filterMap]
  refine congrArg (List.countP · _) (funext fun ⟨source, layer, keys⟩ => ?_)
  have hany :
      keys.any (Packages.belongsTo source) = (Packages.longestMatch? keys source).isSome := by
    rw [Bool.eq_iff_iff, Packages.isSome_longestMatch?_iff, List.any_eq_true]
  simp only [isTypical, hany, importVote?]
  cases source.toList.head? == some '.' with
  | true => simp
  | false => cases Packages.longestMatch? keys source <;> simp

section Votes

variable {n : LayerNames} {votes : List Vote}

theorem votes_eq (overrides : Layer → List String) (f : FileFacts) :
    (LayerNames.default.withOverrides overrides).votes f =
      (directories f.path).filterMap
          ((LayerNames.default.withOverrides overrides).vote? "directory") ++
        (segments f.path).filterMap
          ((LayerNames.default.withOverrides overrides).vote? "file name") ++
        (f.importSources ×ˢ provenance).filterMap importVote? := by
  rw [LayerNames.votes, pathVotes_eq, flatMap_importVotes]

/-- Names vote with weight two. -/
theorem weight_of_vote? {place : String} {names : List (List Char)} :
    ∀ v ∈ names.filterMap (n.vote? place), v.weight = 2 := by
  intro v hv
  obtain ⟨name, -, hname⟩ := List.mem_filterMap.mp hv
  obtain ⟨l, -, rfl⟩ := Option.map_eq_some_iff.mp hname
  rfl

/-- Imports vote with weight one. -/
theorem weight_of_importVote? {pairs : List (String × Layer × List String)} :
    ∀ v ∈ pairs.filterMap importVote?, v.weight = 1 := by
  intro v hv
  obtain ⟨pair, -, hpair⟩ := List.mem_filterMap.mp hv
  rw [importVote?] at hpair
  split at hpair
  · exact absurd hpair (by simp)
  · obtain ⟨package, -, rfl⟩ := Option.map_eq_some_iff.mp hpair
    rfl

theorem countP_votes (overrides : Layer → List String) (f : FileFacts) (l : Layer) :
    ((LayerNames.default.withOverrides overrides).votes f).countP (·.layer == l) =
      hitsFor overrides f l := by
  rw [votes_eq, List.countP_append, List.countP_append, countP_names, countP_names,
    countP_imports]
  rfl

theorem tally_votes (overrides : Layer → List String) (f : FileFacts) :
    tally ((LayerNames.default.withOverrides overrides).votes f) = votesFor overrides f := by
  funext l
  rw [votes_eq, tally_append, tally_append, tally_of_weight weight_of_vote?,
    tally_of_weight weight_of_vote?, tally_of_weight weight_of_importVote?, countP_names,
    countP_names, countP_imports, votesFor, namedFor, importedFor, Nat.mul_add, Nat.one_mul]

/-- A vote is that of a name, or that of an import. -/
theorem vote_cases {v : Vote}
    (hv : v ∈ (LayerNames.default.withOverrides overrides).votes f) :
    (∃ place name l, toldLayer? overrides name = some l ∧
      v = ⟨l, 2, place ++ " '" ++ .ofList name ++ "' -> " ++ l.name⟩) ∨
    ∃ package, ∃ p ∈ provenance, v = ⟨p.1, 1, "import '" ++ package ++ "' -> " ++ p.1.name⟩ := by
  have hname {place : String} {names : List (List Char)} (hv : v ∈ names.filterMap
      ((LayerNames.default.withOverrides overrides).vote? place)) :
      ∃ place name l, toldLayer? overrides name = some l ∧
        v = ⟨l, 2, place ++ " '" ++ .ofList name ++ "' -> " ++ l.name⟩ := by
    obtain ⟨name, -, hname⟩ := List.mem_filterMap.mp hv
    obtain ⟨l, hl, rfl⟩ := Option.map_eq_some_iff.mp hname
    exact ⟨place, name, l, LayerNames.layer?_withOverrides overrides name ▸ hl, rfl⟩
  rw [votes_eq, List.mem_append, List.mem_append] at hv
  rcases hv with (hv | hv) | hv
  · exact Or.inl (hname hv)
  · exact Or.inl (hname hv)
  · obtain ⟨⟨source, p⟩, hpair, hsome⟩ := List.mem_filterMap.mp hv
    rw [importVote?] at hsome
    split at hsome
    · exact absurd hsome (by simp)
    · obtain ⟨package, -, rfl⟩ := Option.map_eq_some_iff.mp hsome
      exact Or.inr ⟨package, p, (List.mem_product.mp hpair).2, rfl⟩

/-- All votes are for layers that files are voted into. -/
theorem layer_mem_ranked {v : Vote}
    (hv : v ∈ (LayerNames.default.withOverrides overrides).votes f) : v.layer ∈ Layer.ranked := by
  rcases vote_cases hv with ⟨place, name, l, hl, rfl⟩ | ⟨package, p, hp, rfl⟩
  · exact mem_ranked_of_toldLayer? hl
  · have hall : ∀ p ∈ provenance, p.1 ∈ Layer.ranked := by decide
    exact hall p hp

end Votes

/-! ## 5. Evidence -/

section Evidence

/-- No name of a layer ends like another one, so a text shows the layer that was written at its
end. -/
theorem shows_append (x : String) (l m : Layer) :
    shows l (x ++ "' -> " ++ m.name) = (m == l) := by
  have hall : ∀ l ∈ Layer.all, ∀ m ∈ Layer.all,
      ("' -> " ++ l.name).toList.isSuffixOf ("' -> " ++ m.name).toList → m = l := by decide
  have hmem (l : Layer) : l ∈ Layer.all := by cases l <;> decide
  have hsuffix : ("' -> " ++ m.name).toList <:+ (x ++ "' -> " ++ m.name).toList := by
    rw [String.append_assoc, String.toList_append (s := x)]
    exact List.suffix_append _ _
  rw [Bool.eq_iff_iff, shows, List.isSuffixOf_iff_suffix, beq_iff_eq]
  constructor
  · intro h
    -- Of two ends of one text one is an end of the other, and the names are few.
    rcases List.suffix_or_suffix_of_suffix h hsuffix with h | h
    · exact hall l (hmem l) m (hmem m) (List.isSuffixOf_iff_suffix.mpr h)
    · exact (hall m (hmem m) l (hmem l) (List.isSuffixOf_iff_suffix.mpr h)).symm
  · rintro rfl
    exact hsuffix

/-- The reason of a vote shows its layer. -/
theorem shows_reason {v : Vote}
    (hv : v ∈ (LayerNames.default.withOverrides overrides).votes f) (l : Layer) :
    shows l v.reason = (v.layer == l) := by
  rcases vote_cases hv with ⟨place, name, m, -, rfl⟩ | ⟨package, p, -, rfl⟩
  · exact shows_append _ l m
  · exact shows_append _ l p.1

theorem countP_reason (overrides : Layer → List String) (f : FileFacts) (l : Layer) :
    (((LayerNames.default.withOverrides overrides).votes f).map (·.reason)).countP (shows l) =
      hitsFor overrides f l := by
  rw [← countP_votes, List.countP_map]
  exact List.countP_congr fun v hv => by rw [Function.comp_apply, shows_reason hv]

end Evidence

/-! ## 6. The winner -/

section Winner

variable {count : Layer → ℕ} {ls : List Layer} {a : Layer}

theorem IsFirstGreatest.mem (h : IsFirstGreatest count ls l) : l ∈ ls := by
  obtain ⟨before, after, rfl, -⟩ := h
  simp

theorem IsFirstGreatest.le (h : IsFirstGreatest count ls l) {m : Layer} (hm : m ∈ ls) :
    count m ≤ count l := by
  obtain ⟨before, after, rfl, hbefore, hafter⟩ := h
  rcases List.mem_append.mp hm with hm | hm
  · exact (hbefore m hm).le
  · rcases List.mem_cons.mp hm with rfl | hm
    · exact le_rfl
    · exact hafter m hm

/-- A layer that gets no more does not come first. -/
theorem IsFirstGreatest.concat (h : IsFirstGreatest count ls a) (hl : count l ≤ count a) :
    IsFirstGreatest count (ls ++ [l]) a := by
  obtain ⟨before, after, rfl, hbefore, hafter⟩ := h
  refine ⟨before, after ++ [l], by simp, hbefore, fun m hm => ?_⟩
  rcases List.mem_append.mp hm with hm | hm
  · exact hafter m hm
  · exact List.mem_singleton.mp hm ▸ hl

/-- A layer that gets more than all before it comes first. -/
theorem isFirstGreatest_concat (h : ∀ m ∈ ls, count m < count l) :
    IsFirstGreatest count (ls ++ [l]) l :=
  ⟨ls, [], rfl, h, fun _ hm => absurd hm List.not_mem_nil⟩

/-- The layer with most votes so far, after one more layer. -/
def lead (count : Layer → ℕ) (best : Option (Layer × ℕ)) (l : Layer) : Option (Layer × ℕ) :=
  if count l == 0 then best
  else match best with
    | some (_, most) => if count l ≤ most then best else some (l, count l)
    | none => some (l, count l)

theorem lead_of_eq_zero (h : count l = 0) (best : Option (Layer × ℕ)) :
    lead count best l = best :=
  if_pos (beq_iff_eq.mpr h)

theorem lead_none (h : count l ≠ 0) : lead count none l = some (l, count l) :=
  if_neg (mt beq_iff_eq.mp h)

theorem lead_some (h : count l ≠ 0) (a : Layer) (most : ℕ) :
    lead count (some (a, most)) l = if count l ≤ most then some (a, most) else some (l, count l) :=
  if_neg (mt beq_iff_eq.mp h)

theorem winner?_eq (votes : List Vote) :
    winner? votes = Layer.ranked.foldl (lead (tally votes)) none := rfl

/-- The first of the layers with most votes leads, unless there are no votes at all. -/
theorem foldl_lead_spec (count : Layer → ℕ) (ls : List Layer) :
    (∃ l, ls.foldl (lead count) none = some (l, count l) ∧ count l ≠ 0 ∧
        IsFirstGreatest count ls l) ∨
      (ls.foldl (lead count) none = none ∧ ∀ l ∈ ls, count l = 0) := by
  induction ls using List.reverseRecOn with
  | nil => exact Or.inr ⟨rfl, fun l hl => absurd hl List.not_mem_nil⟩
  | append_singleton ls l ih =>
    rw [List.foldl_append, List.foldl_cons, List.foldl_nil]
    -- A layer without votes is passed over, also where none has led so far.
    by_cases hzero : count l = 0
    · rw [lead_of_eq_zero hzero]
      rcases ih with ⟨a, ha, hne, hfirst⟩ | ⟨hnone, hall⟩
      · exact Or.inl ⟨a, ha, hne, hfirst.concat (hzero ▸ Nat.zero_le _)⟩
      · refine Or.inr ⟨hnone, fun m hm => ?_⟩
        rcases List.mem_append.mp hm with hm | hm
        · exact hall m hm
        · exact List.mem_singleton.mp hm ▸ hzero
    · rcases ih with ⟨a, ha, hne, hfirst⟩ | ⟨hnone, hall⟩
      · rw [ha, lead_some hzero]
        by_cases hle : count l ≤ count a
        · exact Or.inl ⟨a, if_pos hle, hne, hfirst.concat hle⟩
        · refine Or.inl ⟨l, if_neg hle, hzero, isFirstGreatest_concat fun m hm => ?_⟩
          exact (hfirst.le hm).trans_lt (not_le.mp hle)
      · rw [hnone, lead_none hzero]
        refine Or.inl ⟨l, rfl, hzero, isFirstGreatest_concat fun m hm => ?_⟩
        rw [hall m hm]
        exact Nat.pos_of_ne_zero hzero

/-- The greatest of several counts is at least their average. -/
theorem IsFirstGreatest.sum_le (h : IsFirstGreatest count ls l) :
    (ls.map count).sum ≤ ls.length * count l := by
  have hle := List.sum_le_card_nsmul (ls.map count) (count l) fun x hx => by
    obtain ⟨m, hm, rfl⟩ := List.mem_map.mp hx
    exact h.le hm
  simpa using hle

end Winner

/-! ## 7. The layer of a file -/

section Vote

theorem votesFor_eq_zero_iff : votesFor overrides f l = 0 ↔ hitsFor overrides f l = 0 := by
  simp [votesFor, hitsFor]

/-- What speaks for a layer speaks for one that files are voted into. -/
theorem hitsFor_eq_zero_of_ranked (h : ∀ m ∈ Layer.ranked, hitsFor overrides f m = 0) (l : Layer) :
    hitsFor overrides f l = 0 := by
  by_cases hl : l ∈ Layer.ranked
  · exact h l hl
  · rw [← countP_votes, List.countP_eq_zero]
    exact fun v hv hlayer => hl (eq_of_beq hlayer ▸ layer_mem_ranked hv)

theorem length_votes (overrides : Layer → List String) (f : FileFacts) :
    ((LayerNames.default.withOverrides overrides).votes f).length =
      (Layer.ranked.map (hitsFor overrides f)).sum := by
  rw [← sum_countP fun v => layer_mem_ranked]
  simp only [countP_votes]

theorem weight_votes (overrides : Layer → List String) (f : FileFacts) :
    weight ((LayerNames.default.withOverrides overrides).votes f) =
      (Layer.ranked.map (votesFor overrides f)).sum := by
  rw [← tally_votes, sum_tally fun v => layer_mem_ranked]

/-- The greatest of the five counts is at least a fifth of them all. -/
theorem IsFirstGreatest.share (h : IsFirstGreatest (votesFor overrides f) Layer.ranked l)
    (hne : votesFor overrides f l ≠ 0) :
    (1 / 5 : ℚ) ≤ votesFor overrides f l / (Layer.ranked.map (votesFor overrides f)).sum := by
  have hle : (Layer.ranked.map (votesFor overrides f)).sum ≤ 5 * votesFor overrides f l := h.sum_le
  have hmem : votesFor overrides f l ≤ (Layer.ranked.map (votesFor overrides f)).sum :=
    List.le_sum_of_mem (List.mem_map_of_mem h.mem)
  have hpos : (0 : ℚ) < (Layer.ranked.map (votesFor overrides f)).sum := by
    exact_mod_cast (Nat.pos_of_ne_zero hne).trans_le hmem
  have hle' : ((Layer.ranked.map (votesFor overrides f)).sum : ℚ) ≤ 5 * votesFor overrides f l := by
    exact_mod_cast hle
  rw [le_div_iff₀ hpos]
  linarith

/-- The analysis of a file for which some layer leads. -/
theorem classify_of_lead
    (h : Layer.ranked.foldl (lead (votesFor overrides f)) none = some (l, votesFor overrides f l)) :
    (LayerNames.default.withOverrides overrides).classify f =
      ⟨f.path, l, Float.ofNat (votesFor overrides f l) /
          Float.ofNat (Layer.ranked.map (votesFor overrides f)).sum,
        ((LayerNames.default.withOverrides overrides).votes f).map (·.reason)⟩ := by
  simp only [LayerNames.classify, winner?_eq, tally_votes, h, weight_votes]

/-- The analysis of a file for which no layer leads. -/
theorem classify_of_no_lead
    (h : Layer.ranked.foldl (lead (votesFor overrides f)) none = none) :
    (LayerNames.default.withOverrides overrides).classify f =
      ⟨f.path, .unknown, 0.0,
        ((LayerNames.default.withOverrides overrides).votes f).map (·.reason)⟩ := by
  simp only [LayerNames.classify, winner?_eq, tally_votes, h]

/-- **The layer of a file is that of a weighted vote**, whatever the overrides. -/
theorem classify_weightedVote (overrides : Layer → List String) (f : FileFacts) :
    IsWeightedVote overrides f ((LayerNames.default.withOverrides overrides).classify f) := by
  rcases foldl_lead_spec (votesFor overrides f) Layer.ranked with
    ⟨l, hl, hne, hfirst⟩ | ⟨hnone, hall⟩
  · have hranked : l ≠ .unknown := fun h => absurd (h ▸ hfirst.mem) (by decide)
    rw [classify_of_lead hl]
    exact {
      file := rfl
      length_evidence := by rw [List.length_map, length_votes]
      countP_shows := countP_reason overrides f
      unknown_iff := iff_of_false (fun h => hranked h.1)
        fun h => hne (votesFor_eq_zero_iff.mpr (h l))
      wins := fun _ => hfirst
      confidence := fun _ => rfl
      share := fun _ => hfirst.share hne }
  · have hnothing : ∀ l, hitsFor overrides f l = 0 := hitsFor_eq_zero_of_ranked fun m hm =>
      votesFor_eq_zero_iff.mp (hall m hm)
    rw [classify_of_no_lead hnone]
    exact {
      file := rfl
      length_evidence := by rw [List.length_map, length_votes]
      countP_shows := countP_reason overrides f
      unknown_iff := iff_of_true ⟨rfl, rfl⟩ hnothing
      wins := fun ⟨l, hl⟩ => absurd (hnothing l) hl
      confidence := fun ⟨l, hl⟩ => absurd (hnothing l) hl
      share := fun ⟨l, hl⟩ => absurd (hnothing l) hl }

end Vote

end Layers

end Codemap
