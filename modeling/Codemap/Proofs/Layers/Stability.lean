/-
# The layer of a file under more evidence

Votes are counted, so the order of the imports does not matter.  One more import adds a vote for
each layer that its package is typical of, and takes none away (`votes_insert`).  A layer that
gets no more votes than before and still comes first came first before
(`IsFirstGreatest.of_le`), so the layer of the file stays, or one wins that the import votes for.
If it votes for the layer of the file alone, that layer stays, and of its share `a / b` of the
votes becomes `(a + k) / (b + k)`, which is no less.

None of this depends on which names tell layers, nor on whether the import is relative: a relative
one does not vote.

Main statement: `classify_stable`.
-/
import Codemap.Proofs.Layers.Votes

namespace Codemap

variable {n : LayerNames} {f : FileFacts} {l m : Layer} {M : Set Layer}

/-- The file with other imports. -/
def FileFacts.withImports (f : FileFacts) (imports : List Import) : FileFacts :=
  { f with imports }

namespace Layers

/-! ## 1. What elects a layer -/

section Election

variable {count count' : Layer → ℕ} {ls : List Layer}

/-- No two layers come first. -/
theorem IsFirstGreatest.unique (h : IsFirstGreatest count ls l) (h' : IsFirstGreatest count ls m) :
    l = m := by
  have hlm : count l ≤ count m := h'.le h.mem
  have hml : count m ≤ count l := h.le h'.mem
  obtain ⟨before, after, hls, hbefore, -⟩ := h
  obtain ⟨before', after', hls', hbefore', -⟩ := h'
  -- The one that stands earlier would have fewer votes.
  rcases List.append_eq_append_iff.mp (hls.symm.trans hls') with
    ⟨between, hsplit, hrest⟩ | ⟨between, hsplit, hrest⟩
  · cases between with
    | nil => exact (List.cons.inj hrest).1
    | cons x between =>
      obtain rfl : l = x := (List.cons.inj hrest).1
      have hlt : count l < count m := hbefore' l (by simp [hsplit])
      omega
  · cases between with
    | nil => exact (List.cons.inj hrest).1.symm
    | cons x between =>
      obtain rfl : m = x := (List.cons.inj hrest).1
      have hlt : count m < count l := hbefore m (by simp [hsplit])
      omega

/-- Who comes first without having won votes came first before. -/
theorem IsFirstGreatest.of_le (h : IsFirstGreatest count' ls l) (hle : ∀ m, count m ≤ count' m)
    (hl : count' l = count l) : IsFirstGreatest count ls l := by
  obtain ⟨before, after, rfl, hbefore, hafter⟩ := h
  refine ⟨before, after, rfl, ?_, ?_⟩
  · intro m hm
    have hlt : count' m < count' l := hbefore m hm
    have := hle m
    omega
  · intro m hm
    have hle' : count' m ≤ count' l := hafter m hm
    have := hle m
    omega

/-- Counts of votes elect the first of the layers with most votes, and the unknown one if no layer
has any. -/
def Elects (count : Layer → ℕ) (l : Layer) : Prop :=
  (count l ≠ 0 ∧ IsFirstGreatest count Layer.ranked l) ∨
    (l = .unknown ∧ ∀ m ∈ Layer.ranked, count m = 0)

/-- **More votes for some layers** keep the one that is elected or elect one of those. -/
theorem Elects.eq_or_mem (h : Elects count l) (h' : Elects count' m)
    (hle : ∀ m, count m ≤ count' m) (hM : ∀ m ∉ M, count' m = count m) : m = l ∨ m ∈ M := by
  by_cases hm : m ∈ M
  · exact Or.inr hm
  refine Or.inl ?_
  have hsame : count' m = count m := hM m hm
  rcases h with ⟨hne, hfirst⟩ | ⟨rfl, hzero⟩ <;> rcases h' with ⟨hne', hfirst'⟩ | ⟨rfl, hzero'⟩
  · exact (hfirst'.of_le hle hsame).unique hfirst
  · have := hle l
    have := hzero' l hfirst.mem
    omega
  · exact absurd (hsame.trans (hzero m hfirst'.mem)) hne'
  · rfl

/-- The layer of a file is the one that its votes elect. -/
theorem elects_classify (n : LayerNames) (f : FileFacts) :
    Elects (tally (n.votes f)) (n.classify f).layer := by
  rcases foldl_lead_spec (tally (n.votes f)) Layer.ranked with
    ⟨l, hl, hne, hfirst⟩ | ⟨hnone, hall⟩
  · have hlayer : (n.classify f).layer = l := by
      simp only [LayerNames.classify, winner?_eq, hl]
    exact Or.inl (hlayer.symm ▸ ⟨hne, hfirst⟩)
  · have hlayer : (n.classify f).layer = .unknown := by
      simp only [LayerNames.classify, winner?_eq, hnone]
    exact Or.inr ⟨hlayer, hall⟩

end Election

/-! ## 2. The share of the votes -/

/-- The share of the votes that the layer of a file gets, as an exact quotient. -/
def share (n : LayerNames) (f : FileFacts) : ℚ :=
  if (n.classify f).layer = .unknown then 0
  else tally (n.votes f) (n.classify f).layer / weight (n.votes f)

/-- The confidence in the layer of a file is its share of the votes, divided out. -/
theorem confidence_classify (n : LayerNames) (f : FileFacts) :
    (n.classify f).confidence =
      if (n.classify f).layer = .unknown then 0.0
      else Float.ofNat (tally (n.votes f) (n.classify f).layer) /
        Float.ofNat (weight (n.votes f)) := by
  rcases foldl_lead_spec (tally (n.votes f)) Layer.ranked with
    ⟨l, hl, -, hfirst⟩ | ⟨hnone, -⟩
  · have hranked : l ≠ .unknown := fun h => absurd (h ▸ hfirst.mem) (by decide)
    simp only [LayerNames.classify, winner?_eq, hl, if_neg hranked]
  · simp only [LayerNames.classify, winner?_eq, hnone, if_pos]

theorem weight_filter_le (p : Vote → Bool) (votes : List Vote) :
    weight (votes.filter p) ≤ weight votes := by
  rw [weight_eq_sum, weight_eq_sum]
  exact (List.filter_sublist.map _).sum_le_sum fun _ _ => Nat.zero_le _

/-- The same number of votes more above and below does not lower a share. -/
theorem div_le_add_div_add {a b : ℕ} (k : ℕ) (hab : a ≤ b) (hb : b ≠ 0) :
    (a / b : ℚ) ≤ (a + k : ℕ) / (b + k : ℕ) := by
  have hb : (0 : ℚ) < b := by exact_mod_cast Nat.pos_of_ne_zero hb
  have hbk : (0 : ℚ) < (b + k : ℕ) := by push_cast; positivity
  have hab : (a : ℚ) * k ≤ b * k := by exact_mod_cast Nat.mul_le_mul_right k hab
  rw [div_le_div_iff₀ hb hbk]
  push_cast
  linarith

/-! ## 3. The votes of other imports -/

/-- The layers that the packages are typical of which a module belongs to. -/
def layersOf (source : String) : Set Layer :=
  {l | ∃ keys, (l, keys) ∈ provenance ∧ ∃ key ∈ keys, Packages.belongsTo source key}

/-- An import votes for these layers only. -/
theorem layer_mem_layersOf {source : String} {v : Vote} (hv : v ∈ importVotes source) :
    v.layer ∈ layersOf source := by
  rw [importVotes_eq] at hv
  obtain ⟨pair, hpair, hvote⟩ := List.mem_filterMap.mp hv
  obtain ⟨⟨l, keys⟩, hmem, rfl⟩ := List.mem_map.mp hpair
  rw [importVote?] at hvote
  split at hvote
  · exact absurd hvote (by simp)
  · obtain ⟨package, hpackage, rfl⟩ := Option.map_eq_some_iff.mp hvote
    exact ⟨keys, hmem, Packages.isSome_longestMatch?_iff.mp (by simp [hpackage])⟩

theorem tally_importVotes_of_not_mem {source : String} (h : l ∉ layersOf source) :
    tally (importVotes source) l = 0 := by
  have hnone : (importVotes source).filter (·.layer == l) = [] := by
    rw [List.filter_eq_nil_iff]
    intro v hv hlayer
    exact h (eq_of_beq hlayer ▸ layer_mem_layersOf hv)
  rw [tally, hnone]
  rfl

theorem tally_importVotes_of_subset {source : String} (h : layersOf source ⊆ {l}) :
    tally (importVotes source) l = weight (importVotes source) := by
  have hall : (importVotes source).filter (·.layer == l) = importVotes source := by
    rw [List.filter_eq_self]
    intro v hv
    exact beq_iff_eq.mpr (h (layer_mem_layersOf hv))
  rw [tally, hall]

/-- Other imports in another order cast the same votes in another order. -/
theorem votes_perm (n : LayerNames) (f : FileFacts) {imports imports' : List Import}
    (h : imports.Perm imports') :
    (n.votes (f.withImports imports)).Perm (n.votes (f.withImports imports')) :=
  ((h.map Import.source).flatMap_right importVotes).append_left (n.pathVotes f.path.toList)

/-- One more import casts its votes beside the others. -/
theorem votes_insert (n : LayerNames) (f : FileFacts) (before : List Import) (i : Import)
    (after : List Import) :
    (n.votes (f.withImports (before ++ i :: after))).Perm
      (importVotes i.source ++ n.votes (f.withImports (before ++ after))) := by
  refine (votes_perm n f List.perm_middle).trans ?_
  simp only [LayerNames.votes, FileFacts.importSources, FileFacts.withImports, List.map_cons,
    List.flatMap_cons]
  rw [← List.append_assoc, ← List.append_assoc]
  exact List.perm_append_comm.append_right _

section Perm

variable {votes votes' : List Vote}

theorem weight_eq_of_perm (h : votes.Perm votes') : weight votes = weight votes' := by
  rw [weight_eq_sum, weight_eq_sum]
  exact (h.map _).sum_eq

theorem tally_eq_of_perm (h : votes.Perm votes') : tally votes = tally votes' :=
  funext fun _ => weight_eq_of_perm (h.filter _)

end Perm

/-! ## 4. The layer of a file -/

/-- The second file is the first with its imports in another order. -/
def IsReordering (f f' : FileFacts) : Prop :=
  ∃ imports, f.imports.Perm imports ∧ f' = f.withImports imports

/-- The second file is the first with one more import, wherever that stands. -/
def HasOneMore (i : Import) (f f' : FileFacts) : Prop :=
  ∃ before after, f.imports = before ++ after ∧ f' = f.withImports (before ++ i :: after)

/-- What becomes of the layer of a file when its imports are reordered, or become more by one. -/
structure IsStable (n : LayerNames) (f : FileFacts) : Prop where
  /-- The confidence is the share of the votes, divided out. -/
  confidence : (n.classify f).confidence =
    if (n.classify f).layer = .unknown then 0.0
    else Float.ofNat (tally (n.votes f) (n.classify f).layer) / Float.ofNat (weight (n.votes f))
  /-- The order of the imports matters neither for the layer nor for the confidence. -/
  reordered : ∀ f', IsReordering f f' → (n.classify f').layer = (n.classify f).layer ∧
    (n.classify f').confidence = (n.classify f).confidence
  /-- One more import keeps the layer, or yields one of those that its package is typical of. -/
  eq_or_mem : ∀ i f' M, HasOneMore i f f' → layersOf i.source ⊆ M →
    (n.classify f').layer = (n.classify f).layer ∨ (n.classify f').layer ∈ M
  /-- If that is the layer of the file alone, it stays, and its share does not decrease. -/
  keeps : ∀ i f' M, HasOneMore i f f' → layersOf i.source ⊆ M → M ⊆ {(n.classify f).layer} →
    (n.classify f').layer = (n.classify f).layer ∧ share n f ≤ share n f'

theorem withImports_imports (f : FileFacts) : f.withImports f.imports = f := rfl

section More

variable {i : Import} {f' : FileFacts}

theorem IsReordering.votes_perm (h : IsReordering f f') (n : LayerNames) :
    (n.votes f).Perm (n.votes f') := by
  obtain ⟨imports, hperm, rfl⟩ := h
  exact Layers.votes_perm n f hperm

theorem HasOneMore.votes_perm (h : HasOneMore i f f') (n : LayerNames) :
    (n.votes f').Perm (importVotes i.source ++ n.votes f) := by
  obtain ⟨before, after, himports, rfl⟩ := h
  have hf : f.withImports (before ++ after) = f := himports ▸ withImports_imports f
  exact hf ▸ votes_insert n f before i after

theorem HasOneMore.tally_eq (h : HasOneMore i f f') (n : LayerNames) (l : Layer) :
    tally (n.votes f') l = tally (importVotes i.source) l + tally (n.votes f) l := by
  rw [tally_eq_of_perm (h.votes_perm n), tally_append]

theorem HasOneMore.weight_eq (h : HasOneMore i f f') (n : LayerNames) :
    weight (n.votes f') = weight (importVotes i.source) + weight (n.votes f) := by
  rw [weight_eq_of_perm (h.votes_perm n), weight_append]

/-- One more import keeps the layer, or yields one that it votes for. -/
theorem HasOneMore.eq_or_mem (h : HasOneMore i f f') (n : LayerNames)
    (hM : layersOf i.source ⊆ M) :
    (n.classify f').layer = (n.classify f).layer ∨ (n.classify f').layer ∈ M := by
  refine (elects_classify n f).eq_or_mem (elects_classify n f') ?_ ?_
  · intro m
    rw [h.tally_eq n m]
    omega
  · intro m hm
    rw [h.tally_eq n m, tally_importVotes_of_not_mem fun hmem => hm (hM hmem), Nat.zero_add]

/-- One more import that votes for the layer of the file alone does not lower its share. -/
theorem HasOneMore.share_le (h : HasOneMore i f f') (n : LayerNames)
    (hlayers : layersOf i.source ⊆ {(n.classify f).layer})
    (hlayer : (n.classify f').layer = (n.classify f).layer) : share n f ≤ share n f' := by
  rw [share, share, hlayer]
  split
  · exact le_rfl
  · rename_i hknown
    have hle : tally (n.votes f) (n.classify f).layer ≤ weight (n.votes f) :=
      weight_filter_le _ _
    have hne : weight (n.votes f) ≠ 0 := by
      rcases elects_classify n f with ⟨hvotes, -⟩ | ⟨hunknown, -⟩
      · omega
      · exact absurd hunknown hknown
    rw [h.tally_eq, h.weight_eq, tally_importVotes_of_subset hlayers,
      Nat.add_comm _ (tally _ _), Nat.add_comm _ (weight (n.votes f))]
    exact div_le_add_div_add _ hle hne

end More

/-- **The layer of a file is stable under more evidence**, whatever names tell layers. -/
theorem classify_stable (n : LayerNames) (f : FileFacts) : IsStable n f where
  confidence := confidence_classify n f
  reordered f' h := by
    have htally : tally (n.votes f) = tally (n.votes f') := tally_eq_of_perm (h.votes_perm n)
    have hweight : weight (n.votes f) = weight (n.votes f') := weight_eq_of_perm (h.votes_perm n)
    have hlayer : (n.classify f').layer = (n.classify f).layer := by
      have hf' := elects_classify n f'
      rw [← htally] at hf'
      have hsame := (elects_classify n f).eq_or_mem hf' (M := ∅) (fun _ => le_rfl) fun _ _ => rfl
      exact hsame.resolve_right (Set.notMem_empty _)
    refine ⟨hlayer, ?_⟩
    rw [confidence_classify, confidence_classify, hlayer, htally, hweight]
  eq_or_mem _ _ _ h hM := h.eq_or_mem n hM
  keeps _ _ M h hM hold := by
    have hlayer := (h.eq_or_mem n hM).elim id fun hmem => Set.mem_singleton_iff.mp (hold hmem)
    exact ⟨hlayer, h.share_le n (hM.trans hold) hlayer⟩

/-- An import that binds no names. -/
def bareImport (source : String) : Import := ⟨source, [], default⟩

/-- A file of which the imports speak for two layers alike. -/
def storeFile : FileFacts :=
  (FileFacts.empty "src/store.py" .python).withImports
    [bareImport "sqlalchemy.orm", bareImport "redis"]

/-- The file with a driver of databases imported between the two. -/
def storeFileWithDriver : FileFacts :=
  storeFile.withImports [bareImport "sqlalchemy.orm", bareImport "pymongo", bareImport "redis"]

/-- The layer that won the tie wins alone, with a greater share. -/
theorem classify_stable_storeFile :
    HasOneMore (bareImport "pymongo") storeFile storeFileWithDriver ∧
      layersOf "pymongo" ⊆ {(LayerNames.default.classify storeFile).layer} ∧
      (LayerNames.default.classify storeFileWithDriver).layer =
        (LayerNames.default.classify storeFile).layer ∧
      share .default storeFile ≤ share .default storeFileWithDriver := by
  have hmore : HasOneMore (bareImport "pymongo") storeFile storeFileWithDriver :=
    ⟨[bareImport "sqlalchemy.orm"], [bareImport "redis"], rfl, rfl⟩
  have hlayer : (LayerNames.default.classify storeFile).layer = .data := by decide +kernel
  have hlayers : layersOf "pymongo" ⊆ {(LayerNames.default.classify storeFile).layer} := by
    rintro l ⟨keys, hkeys, key, hkey, hbelongs⟩
    have hall : ∀ p ∈ provenance, ∀ key ∈ p.2, Packages.belongsTo "pymongo" key → p.1 = .data := by
      decide +kernel
    exact (hall (l, keys) hkeys key hkey hbelongs).trans hlayer.symm
  exact ⟨hmore, hlayers, (classify_stable .default storeFile).keeps _ _ _ hmore hlayers subset_rfl⟩

end Layers

end Codemap
