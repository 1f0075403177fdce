/-
# What is found in a tree of files

Every entry of a directory has a name, and no two have the same one (`areNamed`).  In such a tree
an entry is found if and only if no directory on the way to it, itself included, is left out
(`mem_foundIn`), and it is found once: the paths of what is found are distinct (`nodup_foundIn`).
Taking a file out of a tree takes out of what is found just what stands for the file
(`foundIn_entries_remove`).

Directories hold lists of entries, so proofs go through those lists by `entriesInduction`.
-/
import Codemap.Proofs.Layout.Paths
import Mathlib.Data.List.Nodup

namespace Codemap

variable {before way dir : List String} {name : String} {t : FileTree}
  {es : List (String × FileTree)} {f : Found}

namespace FileTree

/-! ## 1. Named trees -/

mutual

/-- Whether every entry in a tree has a name, and no two of one directory have the same one. -/
def isNamed : FileTree → Bool
  | file _ => true
  | directory es => areNamed es

/-- Whether the entries of a directory, and the entries in them, are named so. -/
def areNamed : List (String × FileTree) → Bool
  | [] => true
  | (name, t) :: es => isName name && !(es.map (·.1)).contains name && t.isNamed && areNamed es

end

theorem areNamed_cons :
    areNamed ((name, t) :: es) ↔
      isName name ∧ name ∉ es.map (·.1) ∧ areNamed t.entries ∧ areNamed es := by
  have hentries : t.isNamed = areNamed t.entries := by cases t <;> rfl
  rw [areNamed, hentries]
  simp only [Bool.and_eq_true, Bool.not_eq_true', ← Bool.not_eq_true, List.contains_iff_mem,
    and_assoc]

/-- What holds of no entries, and of entries if it holds of those in the first one and of the
others, holds of all entries. -/
@[elab_as_elim]
theorem entriesInduction {motive : List (String × FileTree) → Prop} (nil : motive [])
    (cons : ∀ name t es, motive t.entries → motive es → motive ((name, t) :: es)) :
    ∀ es, motive es
  | [] => nil
  | (name, file text) :: es => cons name (file text) es nil (entriesInduction nil cons es)
  | (name, directory inner) :: es =>
    cons name (directory inner) es (entriesInduction nil cons inner) (entriesInduction nil cons es)

/-! ## 2. Ways into a tree -/

@[simp] theorem entries_directory (es : List (String × FileTree)) : (directory es).entries = es :=
  rfl

/-- A way of some names leads through the entries. -/
theorem at?_directory_entries (t : FileTree) (way : List String) (name : String) :
    (directory t.entries).at? (way ++ [name]) = t.at? (way ++ [name]) := by
  cases way <;> rfl

/-- A way leads through the first entry or through the others. -/
theorem at?_directory_cons {x : FileTree} {n : String} (hname : name ∉ es.map (·.1)) :
    (directory ((name, t) :: es)).at? (n :: way) = some x ↔
      (n = name ∧ t.at? way = some x) ∨ (directory es).at? (n :: way) = some x := by
  simp only [at?, entries, List.lookup_cons]
  by_cases hn : n = name
  · subst hn
    have hnone : es.lookup n = none := List.lookup_eq_none_iff.mpr fun e he => by
      have hne : n ≠ e.1 := fun heq => hname (heq ▸ List.mem_map_of_mem he)
      simpa using hne
    simp [hnone]
  · have hbeq : (n == name) = false := beq_eq_false_iff_ne.mpr hn
    simp [hbeq, hn]

theorem areNamed_of_lookup (hes : areNamed es) (h : es.lookup name = some t) :
    isName name ∧ areNamed t.entries := by
  induction es with
  | nil => simp at h
  | cons e es ih =>
    obtain ⟨hname, -, hinner, hrest⟩ := areNamed_cons.mp hes
    rw [List.lookup_cons] at h
    split at h
    next heq =>
      obtain rfl := Option.some.inj h
      exact ⟨eq_of_beq heq ▸ hname, hinner⟩
    next => exact ih hrest h

/-- Ways lead through names. -/
theorem isName_of_at? {x : FileTree} (hes : areNamed es) (h : (directory es).at? way = some x) :
    ∀ n ∈ way, isName n := by
  induction way generalizing es with
  | nil => exact fun _ hn => absurd hn List.not_mem_nil
  | cons a way ih =>
    obtain ⟨t, ht, hat⟩ := Option.bind_eq_some_iff.mp h
    obtain ⟨ha, hinner⟩ := areNamed_of_lookup hes ht
    refine List.forall_mem_cons.mpr ⟨ha, ?_⟩
    cases way with
    | nil => exact fun _ hn => absurd hn List.not_mem_nil
    | cons b way => exact ih hinner hat

/-! ## 3. What is found -/

/-- Whether a tree is a directory. -/
def isDirectory : FileTree → Bool
  | directory _ => true
  | file _ => false

end FileTree

open FileTree

/-- No directory on a way is left out. -/
def IsKept (way : List String) : Prop := ∀ n ∈ way, n ∉ prunedDirectories
deriving Decidable

theorem isKept_nil : IsKept [] := fun _ hn => absurd hn List.not_mem_nil

theorem isKept_cons {way : List String} :
    IsKept (name :: way) ↔ name ∉ prunedDirectories ∧ IsKept way := List.forall_mem_cons

/-- What is found for a file or a directory. -/
def Found.here (way : List String) (name : String) : FileTree → Found
  | .file text => .file (pathOf (way ++ [name])) (pathOf way) name text
  | .directory _ => .directory (pathOf (way ++ [name]))

/-- The path of what is found. -/
def Found.path : Found → String
  | directory path => path
  | file path _ _ _ => path

@[simp] theorem Found.path_here (way : List String) (name : String) (t : FileTree) :
    (Found.here way name t).path = pathOf (way ++ [name]) := by cases t <;> rfl

/-- What is found stands for an entry in some directory; neither that directory, nor the entry if
it is a directory, is left out. -/
def Found.LiesIn (f : Found) (before : List String) (es : List (String × FileTree)) : Prop :=
  ∃ dir name t, IsKept dir ∧ (t.isDirectory → name ∉ prunedDirectories) ∧
    (FileTree.directory es).at? (dir ++ [name]) = some t ∧ f = .here (before ++ dir) name t

/-- What lies in a directory is its first entry, lies in that one if it is kept, or lies in the
others. -/
theorem Found.liesIn_cons (hname : name ∉ es.map (·.1)) :
    f.LiesIn before ((name, t) :: es) ↔
      (t.isDirectory → name ∉ prunedDirectories) ∧ f = .here before name t ∨
      name ∉ prunedDirectories ∧ f.LiesIn (before ++ [name]) t.entries ∨ f.LiesIn before es := by
  constructor
  · rintro ⟨dir, n, x, hkept, hdirectory, hat, rfl⟩
    cases dir with
    | nil =>
      rcases (at?_directory_cons hname).mp hat with ⟨rfl, hx⟩ | hrest
      · obtain rfl := Option.some.inj hx
        exact Or.inl ⟨hdirectory, by rw [List.append_nil]⟩
      · exact Or.inr (Or.inr ⟨[], n, x, hkept, hdirectory, hrest, rfl⟩)
    | cons d dir =>
      rcases (at?_directory_cons hname).mp hat with ⟨rfl, hx⟩ | hrest
      · obtain ⟨hd, hkept⟩ := isKept_cons.mp hkept
        refine Or.inr (Or.inl ⟨hd, dir, n, x, hkept, hdirectory, ?_, ?_⟩)
        · exact (at?_directory_entries t dir n).trans hx
        · rw [List.append_assoc, List.singleton_append]
      · exact Or.inr (Or.inr ⟨d :: dir, n, x, hkept, hdirectory, hrest, rfl⟩)
  · rintro (⟨hdirectory, rfl⟩ | ⟨hd, hinner⟩ | hrest)
    · exact ⟨[], name, t, isKept_nil, hdirectory,
        (at?_directory_cons hname).mpr (Or.inl ⟨rfl, rfl⟩), by rw [List.append_nil]⟩
    · obtain ⟨dir, n, x, hkept, hdirectory, hat, rfl⟩ := hinner
      refine ⟨name :: dir, n, x, isKept_cons.mpr ⟨hd, hkept⟩, hdirectory, ?_, ?_⟩
      · rw [at?_directory_entries] at hat
        exact (at?_directory_cons hname).mpr (Or.inl ⟨rfl, hat⟩)
      · rw [List.append_assoc, List.singleton_append]
    · obtain ⟨dir, n, x, hkept, hdirectory, hat, rfl⟩ := hrest
      refine ⟨dir, n, x, hkept, hdirectory, ?_, rfl⟩
      cases dir <;> exact (at?_directory_cons hname).mpr (Or.inr hat)

/-- What is found at an entry: nothing if it is a directory that is left out, otherwise the entry
and what is found in it. -/
theorem FileTree.found_pathOf (hbefore : ∀ n ∈ before, isName n) (hname : isName name) :
    t.found (pathOf before) name =
      if t.isDirectory ∧ name ∈ prunedDirectories then []
      else .here before name t :: foundIn (pathOf (before ++ [name])) t.entries := by
  have hconcat := forall_isName_concat hbefore hname
  cases t with
  | file text =>
    rw [found, pathIn_pathOf hbefore, withSlashes_pathOf hconcat, withSlashes_pathOf hbefore,
      if_neg (by simp [isDirectory])]
    rfl
  | directory inner =>
    rw [found]
    by_cases hpruned : name ∈ prunedDirectories
    · rw [if_pos (List.contains_iff_mem.mpr hpruned), if_pos ⟨rfl, hpruned⟩]
    · rw [if_neg (by simpa using hpruned), if_neg (fun h => hpruned h.2)]
      simp only [pathIn_pathOf hbefore, withSlashes_pathOf hconcat]
      rfl

/-- **An entry is found if and only if nothing on the way to it is left out.** -/
theorem mem_foundIn (hbefore : ∀ n ∈ before, isName n) (hes : areNamed es) :
    f ∈ foundIn (pathOf before) es ↔ f.LiesIn before es := by
  induction es using entriesInduction generalizing before with
  | nil =>
    refine ⟨fun h => absurd h List.not_mem_nil, ?_⟩
    rintro ⟨dir, n, x, -, -, hat, -⟩
    cases dir <;> simp [at?, entries] at hat
  | cons name t es ihinner ihrest =>
    obtain ⟨hname, hnew, hinner, hrest⟩ := areNamed_cons.mp hes
    have hconcat := forall_isName_concat hbefore hname
    rw [foundIn, List.mem_append, ihrest hbefore hrest, Found.liesIn_cons hnew, ← or_assoc,
      found_pathOf hbefore hname]
    refine or_congr_left ?_
    by_cases hpruned : name ∈ prunedDirectories
    · cases t with
      | file text => simp [isDirectory, hpruned, entries, foundIn]
      | directory inner => simp [isDirectory, hpruned]
    · rw [if_neg (fun h => hpruned h.2), List.mem_cons, ihinner hconcat hinner]
      simp [hpruned]

/-- What is found in a directory has a path through the name of one of its entries. -/
theorem exists_path_of_mem_foundIn (hbefore : ∀ n ∈ before, isName n) (hes : areNamed es)
    (hf : f ∈ foundIn (pathOf before) es) :
    ∃ n ∈ es.map (·.1), ∃ rest, (∀ r ∈ n :: rest, isName r) ∧
      f.path = pathOf (before ++ n :: rest) := by
  obtain ⟨dir, name, t, -, -, hat, rfl⟩ := (mem_foundIn hbefore hes).mp hf
  have hnames := isName_of_at? hes hat
  obtain ⟨n, rest, hway⟩ : ∃ n rest, dir ++ [name] = n :: rest := by cases dir <;> simp
  rw [hway] at hat hnames
  obtain ⟨x, hx, -⟩ := Option.bind_eq_some_iff.mp hat
  obtain ⟨l, r, hsplit, -⟩ := List.lookup_eq_some_iff.mp hx
  have hn : n ∈ es.map (·.1) := by simp [show es = l ++ (n, x) :: r from hsplit]
  exact ⟨n, hn, rest, hnames, by rw [Found.path_here, List.append_assoc, hway]⟩

/-- What is found at an entry has a path through its name. -/
theorem exists_path_of_mem_found (hbefore : ∀ n ∈ before, isName n) (hname : isName name)
    (hinner : areNamed t.entries) (hf : f ∈ t.found (pathOf before) name) :
    ∃ rest, (∀ r ∈ rest, isName r) ∧ f.path = pathOf (before ++ name :: rest) := by
  rw [found_pathOf hbefore hname] at hf
  split at hf
  · exact absurd hf List.not_mem_nil
  · rcases List.mem_cons.mp hf with rfl | hf
    · exact ⟨[], forall_isName_nil, Found.path_here before name t⟩
    · obtain ⟨n, -, rest, hnames, hpath⟩ :=
        exists_path_of_mem_foundIn (forall_isName_concat hbefore hname) hinner hf
      exact ⟨n :: rest, hnames, by rw [hpath, List.append_assoc, List.singleton_append]⟩

/-- **Nothing is found twice.** -/
theorem nodup_foundIn (hbefore : ∀ n ∈ before, isName n) (hes : areNamed es) :
    ((foundIn (pathOf before) es).map Found.path).Nodup := by
  induction es using entriesInduction generalizing before with
  | nil => exact List.nodup_nil
  | cons name t es ihinner ihrest =>
    obtain ⟨hname, hnew, hinner, hrest⟩ := areNamed_cons.mp hes
    have hconcat := forall_isName_concat hbefore hname
    rw [foundIn, List.map_append]
    refine List.Nodup.append ?_ (ihrest hbefore hrest) fun p hp hp' => ?_
    · rw [found_pathOf hbefore hname]
      split
      · exact List.nodup_nil
      · refine List.nodup_cons.mpr ⟨fun hmem => ?_, ihinner hconcat hinner⟩
        -- what is found in the entry has a longer way than the entry
        obtain ⟨f, hf, hpath⟩ := List.mem_map.mp hmem
        obtain ⟨n, -, rest, hnames, hlong⟩ := exists_path_of_mem_foundIn hconcat hinner hf
        rw [Found.path_here, hlong, pathOf_inj (List.forall_mem_append.mpr ⟨hconcat, hnames⟩)
          hconcat] at hpath
        simp at hpath
    · -- what is found elsewhere has a way through another name
      obtain ⟨f, hf, rfl⟩ := List.mem_map.mp hp
      obtain ⟨f', hf', hsame⟩ := List.mem_map.mp hp'
      obtain ⟨rest, hnames, hpath⟩ := exists_path_of_mem_found hbefore hname hinner hf
      obtain ⟨n, hn, rest', hnames', hpath'⟩ := exists_path_of_mem_foundIn hbefore hrest hf'
      have hway := hpath.symm.trans (hsame.symm.trans hpath')
      rw [pathOf_inj (List.forall_mem_append.mpr ⟨hbefore, List.forall_mem_cons.mpr
        ⟨hname, hnames⟩⟩) (List.forall_mem_append.mpr ⟨hbefore, hnames'⟩),
        List.append_cancel_left_eq, List.cons.injEq] at hway
      exact hnew (hway.1 ▸ hn)

/-! ## 4. Taking files out -/

/-- The tree without the entry of some name in a directory. -/
def FileTree.remove (name : String) : List String → FileTree → FileTree
  | [], t => .directory (t.entries.filter fun e => e.1 != name)
  | d :: dir, t =>
    .directory (t.entries.map fun e => if e.1 == d then (e.1, remove name dir e.2) else e)

theorem FileTree.foundIn_append (parent : String) (es es' : List (String × FileTree)) :
    foundIn parent (es ++ es') = foundIn parent es ++ foundIn parent es' := by
  induction es with
  | nil => rfl
  | cons e es ih => rw [List.cons_append, foundIn, foundIn, ih, List.append_assoc]

/-- An entry that is found by its name stands between entries of other names. -/
theorem FileTree.exists_split_of_lookup (hes : areNamed es) (h : es.lookup name = some t) :
    ∃ l r, es = l ++ (name, t) :: r ∧ (∀ e ∈ l, e.1 ≠ name) ∧ ∀ e ∈ r, e.1 ≠ name := by
  obtain ⟨l, r, rfl, hl⟩ := List.lookup_eq_some_iff.mp h
  refine ⟨l, r, rfl, fun e he heq => by simpa [heq] using hl e he, ?_⟩
  clear h hl
  induction l with
  | nil =>
    obtain ⟨-, hnew, -⟩ := areNamed_cons.mp hes
    exact fun e he heq => hnew (heq ▸ List.mem_map_of_mem he)
  | cons e l ih => exact ih (areNamed_cons.mp hes).2.2.2

/-- Taking an entry out changes one entry of the directory on the way to it. -/
theorem FileTree.entries_remove_cons {d : String} {l r : List (String × FileTree)}
    (hl : ∀ e ∈ l, e.1 ≠ d) (hr : ∀ e ∈ r, e.1 ≠ d) :
    ((directory (l ++ (d, t) :: r)).remove name (d :: dir)).entries =
      l ++ (d, t.remove name dir) :: r := by
  have hsame : ∀ e : String × FileTree, e.1 ≠ d →
      (if e.1 == d then (e.1, remove name dir e.2) else e) = e :=
    fun e he => if_neg (by simpa using he)
  simp only [remove, entries_directory, List.map_append, List.map_cons, beq_self_eq_true, if_true]
  rw [List.map_congr_left fun e he => hsame e (hl e he),
    List.map_congr_left fun e he => hsame e (hr e he), List.map_id', List.map_id']

theorem FileTree.isDirectory_remove (name : String) (dir : List String) (t : FileTree) :
    (t.remove name dir).isDirectory = true := by
  cases dir <;> rfl

theorem Found.here_of_isDirectory (h : t.isDirectory = true) :
    Found.here before name t = .directory (pathOf (before ++ [name])) := by
  cases t with
  | directory inner => rfl
  | file text => exact absurd h Bool.false_ne_true

/-- **Taking a file out of a tree takes it out of what is found**, if it was found at all. -/
theorem FileTree.foundIn_entries_remove {text : Option String} (hbefore : ∀ n ∈ before, isName n)
    (hes : areNamed es) (hat : (directory es).at? (dir ++ [name]) = some (file text)) :
    ∃ l r, foundIn (pathOf before) es =
        l ++ (if IsKept dir then [Found.here (before ++ dir) name (file text)] else []) ++ r ∧
      foundIn (pathOf before) ((directory es).remove name dir).entries = l ++ r := by
  induction dir generalizing before es with
  | nil =>
    obtain ⟨t, ht, hfile⟩ := Option.bind_eq_some_iff.mp hat
    obtain rfl := Option.some.inj hfile
    obtain ⟨l, r, rfl, hl, hr⟩ := exists_split_of_lookup hes ht
    have hname := (areNamed_of_lookup hes ht).1
    refine ⟨foundIn (pathOf before) l, foundIn (pathOf before) r, ?_, ?_⟩
    · rw [if_pos isKept_nil, List.append_nil, foundIn_append, foundIn,
        found_pathOf hbefore hname, if_neg (by simp [isDirectory])]
      simp [entries, foundIn]
    · have hfilter : (l ++ (name, file text) :: r).filter (fun e => e.1 != name) = l ++ r := by
        rw [List.filter_append, List.filter_cons_of_neg (by simp),
          List.filter_eq_self.mpr (by simpa using hl), List.filter_eq_self.mpr (by simpa using hr)]
      rw [← foundIn_append, ← hfilter]
      rfl
  | cons d dir ih =>
    obtain ⟨t, ht, hinner⟩ := Option.bind_eq_some_iff.mp hat
    obtain ⟨hd, hnamed⟩ := areNamed_of_lookup hes ht
    obtain ⟨l, r, rfl, hl, hr⟩ := exists_split_of_lookup hes ht
    have hconcat := forall_isName_concat hbefore hd
    -- the way goes on, so it goes on in a directory
    have hdirectory : t.isDirectory = true := by
      cases t with
      | directory inner => rfl
      | file text => cases dir <;> exact absurd hinner (by simp [at?, entries])
    have hinner := (at?_directory_entries t dir name).trans hinner
    have hentries : (directory t.entries).remove name dir = t.remove name dir := by
      cases dir <;> rfl
    obtain ⟨l', r', hfound, hremoved⟩ := ih hconcat hnamed hinner
    rw [hentries] at hremoved
    rw [entries_remove_cons hl hr]
    simp only [foundIn_append, foundIn, found_pathOf hbefore hd, isDirectory_remove, hdirectory,
      Found.here_of_isDirectory, true_and, isKept_cons]
    by_cases hpruned : d ∈ prunedDirectories
    · refine ⟨foundIn (pathOf before) l, foundIn (pathOf before) r, ?_, ?_⟩
      · simp [hpruned]
      · simp [hpruned]
    · refine ⟨foundIn (pathOf before) l ++ .directory (pathOf (before ++ [d])) :: l',
        r' ++ foundIn (pathOf before) r, ?_, ?_⟩
      · rw [if_neg hpruned, hfound]
        simp [hpruned, List.append_assoc]
      · rw [if_neg hpruned, hremoved]
        simp [List.append_assoc]

end Codemap
