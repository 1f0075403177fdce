/-
# What a scan shows of a repository

The layout that is scanned shows a tree of files exactly (`Layout.Shows`): its directories, its
source files and its manifests, without those in directories that are left out, and the patterns
for workspaces that two files at its root declare.  A manifest that cannot be read has no part in
that: the layout of the tree without it is the same, except that the file itself is no longer among
the source files if it was there.

Main statement: `Layout.scan_shows_and_remove`.
-/
import Codemap.Proofs.Layout.Tree
import Codemap.Proofs.Order.Ascending

namespace Codemap

open FileTree

variable {dir : List String} {name pattern path : String} {t root : FileTree}
  {entries : List (String × FileTree)}

/-! ## 1. What is promised -/

/-- The package file or the file of workspaces at the root declares a pattern for workspaces. -/
inductive DeclaredAtRoot (root : FileTree) (pattern : String) : Prop
  | package {text : String} {d : Declarations}
      (hfile : root.at? [ManifestKind.packageFile.fileName] = some (.file (some text)))
      (hread : Manifests.readPackage? text = some d) (hmem : pattern ∈ d.workspaces)
  | workspaces {text : String} {patterns : List String}
      (hfile : root.at? [workspaceFile] = some (.file (some text)))
      (hread : Manifests.readWorkspaces? text = some patterns) (hmem : pattern ∈ patterns)

/-- A layout shows just what is in a tree. -/
structure Layout.Shows (l : Layout) (root : FileTree) : Prop where
  directories : l.directories.Pairwise (· < ·)
  mem_directories : ∀ path, path ∈ l.directories ↔
    ∃ way es, way ≠ [] ∧ IsKept way ∧ root.at? way = some (.directory es) ∧ path = pathOf way
  sourceFiles : l.sourceFiles.Pairwise (· < ·)
  mem_sourceFiles : ∀ path, path ∈ l.sourceFiles ↔
    ∃ dir name text, IsKept dir ∧ root.at? (dir ++ [name]) = some (.file text) ∧
      HasSourceExtension name ∧ path = pathOf (dir ++ [name])
  manifests : l.manifests.Pairwise (·.path < ·.path)
  mem_manifests : ∀ m, m ∈ l.manifests ↔
    ∃ dir name text, IsKept dir ∧ root.at? (dir ++ [name]) = some (.file (some text)) ∧
      ManifestKind.ofFileName? name = some m.kind ∧ m.kind.read text = .ok m.declared ∧
      m.directory = pathOf dir ∧ m.path = pathOf (dir ++ [name])
  workspaces : l.workspaces.Pairwise (· < ·)
  mem_workspaces : ∀ pattern, pattern ∈ l.workspaces ↔ DeclaredAtRoot root pattern

/-- A file declares nothing: either it cannot be read as the manifest that its name stands for, or
its name stands for none; and at the root it does not list workspaces either. -/
def DeclaresNothing (dir : List String) (name : String) (text : Option String) : Prop :=
  (∀ kind content declared, ManifestKind.ofFileName? name = some kind → text = some content →
    kind.read content ≠ .ok declared) ∧
  (dir = [] → name = workspaceFile → text.bind Manifests.readWorkspaces? = none)

/-! ## 2. Manifests -/

/-- Only package files declare workspaces. -/
theorem ManifestKind.eq_packageFile_of_read {kind : ManifestKind} {text : String}
    {d : Declarations} (h : kind.read text = .ok d) (hmem : pattern ∈ d.workspaces) :
    kind = packageFile := by
  have hempty : kind = packageFile ∨ d.workspaces = [] := by
    cases kind with
    | packageFile => exact Or.inl rfl
    | goModule =>
      simp only [read, Manifests.readGoModule] at h
      split at h
      · exact absurd h (by simp)
      · obtain rfl := Except.ok.inj h
        exact Or.inr rfl
    | _ =>
      obtain rfl := Except.ok.inj h
      exact Or.inr rfl
  exact hempty.resolve_right fun hnil => absurd (hnil ▸ hmem) List.not_mem_nil

theorem ManifestKind.ofFileName?_eq_packageFile :
    ofFileName? name = some packageFile ↔ name = packageFile.fileName := by
  constructor
  · intro h
    rw [ofFileName?] at h
    split at h
    next kind hkind =>
      obtain rfl := Option.some.inj h
      have hbeq := List.find?_some hkind
      exact (eq_of_beq hbeq).symm
    next =>
      dsimp only at h
      split at h
      · exact absurd h (by simp)
      · split at h <;> exact absurd h (by simp)
  · rintro rfl
    decide

/-! ## 3. What is made of what is found -/

theorem Found.directory?_here :
    (here dir name t).directory? = some path ↔
      (∃ es, t = .directory es) ∧ path = pathOf (dir ++ [name]) := by
  cases t <;> simp [here, directory?, eq_comm]

theorem Found.source?_here :
    (here dir name t).source? = some path ↔
      (∃ text, t = .file text) ∧ HasSourceExtension name ∧ path = pathOf (dir ++ [name]) := by
  cases t with
  | directory es => simp [here, source?]
  | file text =>
    rw [here, source?]
    split
    next h =>
      have hname := (hasSourceExtension_pathOf dir name).mp (isSome_ofPath?_iff.mp h)
      simp [hname, eq_comm]
    next h =>
      have hname : ¬ HasSourceExtension name := fun hname =>
        h (isSome_ofPath?_iff.mpr ((hasSourceExtension_pathOf dir name).mpr hname))
      simp [hname]

theorem Found.manifest?_here (hdir : ∀ n ∈ dir, isName n) {m : Manifest} :
    (here dir name t).manifest? = some m ↔
      ∃ text, t = .file (some text) ∧ ManifestKind.ofFileName? name = some m.kind ∧
        m.kind.read text = .ok m.declared ∧ m.directory = pathOf dir ∧
        m.path = pathOf (dir ++ [name]) := by
  obtain ⟨kind, directory, path, declared⟩ := m
  cases t with
  | directory es => simp [here, manifest?]
  | file text =>
    simp only [here, manifest?, pathIn_pathOf hdir, Option.bind_eq_bind, Option.bind_eq_some_iff,
      FileTree.file.injEq]
    constructor
    · rintro ⟨k, hkind, content, rfl, h⟩
      split at h
      next d hread =>
        obtain ⟨rfl, rfl, rfl, rfl⟩ := Manifest.mk.inj (Option.some.inj h)
        exact ⟨content, rfl, hkind, hread, rfl, rfl⟩
      next => exact absurd h (by simp)
    · rintro ⟨content, rfl, hkind, hread, rfl, rfl⟩
      exact ⟨kind, hkind, content, rfl, by rw [hread]⟩

theorem ManifestKind.read_packageFile {text : String} {d : Declarations} :
    packageFile.read text = .ok d ↔ Manifests.readPackage? text = some d := by
  rw [read]
  cases Manifests.readPackage? text <;> simp

theorem mem_getD_nil {α : Type} {a : α} {o : Option (List α)} :
    a ∈ o.getD [] ↔ ∃ xs, o = some xs ∧ a ∈ xs := by
  cases o <;> simp

/-- Only files at the root declare workspaces. -/
theorem Found.eq_nil_of_mem_workspaces (hdir : ∀ n ∈ dir, isName n)
    (h : pattern ∈ (here dir name t).workspaces) : dir = [] := by
  cases t with
  | directory es => exact absurd h List.not_mem_nil
  | file text =>
    simp only [here, workspaces, isEmpty_pathOf hdir] at h
    split at h
    next => exact absurd h List.not_mem_nil
    next hempty => simpa using hempty

theorem Found.workspaces_here_workspaceFile (text : Option String) :
    (here [] workspaceFile (.file text)).workspaces =
      (text.bind Manifests.readWorkspaces?).getD [] := by
  simp [here, workspaces]

theorem Found.workspaces_here_of_ne (hname : name ≠ workspaceFile) :
    (here [] name t).workspaces =
      ((here [] name t).manifest?.map fun m => m.declared.workspaces).getD [] := by
  cases t with
  | directory es => rfl
  | file text => simp [here, workspaces, hname]

/-- The patterns that are found are those that two files at the root declare. -/
theorem exists_mem_workspaces_iff :
    (∃ name t, (t.isDirectory → name ∉ prunedDirectories) ∧ root.at? [name] = some t ∧
      pattern ∈ (Found.here [] name t).workspaces) ↔ DeclaredAtRoot root pattern := by
  constructor
  · rintro ⟨name, t, -, hat, hmem⟩
    by_cases hname : name = workspaceFile
    · subst hname
      cases t with
      | directory es => exact absurd hmem List.not_mem_nil
      | file text =>
        rw [Found.workspaces_here_workspaceFile] at hmem
        obtain ⟨patterns, hpatterns, hin⟩ := mem_getD_nil.mp hmem
        obtain ⟨content, rfl, hread⟩ := Option.bind_eq_some_iff.mp hpatterns
        exact .workspaces hat hread hin
    · rw [Found.workspaces_here_of_ne hname] at hmem
      obtain ⟨patterns, hpatterns, hin⟩ := mem_getD_nil.mp hmem
      obtain ⟨m, hm, rfl⟩ := Option.map_eq_some_iff.mp hpatterns
      obtain ⟨content, rfl, hkind, hread, -, -⟩ := (Found.manifest?_here forall_isName_nil).mp hm
      rw [ManifestKind.eq_packageFile_of_read hread hin] at hkind hread
      rw [ManifestKind.ofFileName?_eq_packageFile.mp hkind] at hat
      exact .package hat (ManifestKind.read_packageFile.mp hread) hin
  · intro h
    cases h with
    | @package text d hat hread hmem =>
      have hm : (Found.here [] ManifestKind.packageFile.fileName (.file (some text))).manifest? =
          some ⟨.packageFile, "", ManifestKind.packageFile.fileName, d⟩ :=
        (Found.manifest?_here forall_isName_nil).mpr ⟨text, rfl,
          ManifestKind.ofFileName?_eq_packageFile.mpr rfl, ManifestKind.read_packageFile.mpr hread,
          rfl, rfl⟩
      refine ⟨_, .file (some text), fun h => absurd h Bool.false_ne_true, hat, ?_⟩
      rw [Found.workspaces_here_of_ne (by decide), hm]
      exact hmem
    | @workspaces text patterns hat hread hmem =>
      refine ⟨_, .file (some text), fun h => absurd h Bool.false_ne_true, hat, ?_⟩
      rw [Found.workspaces_here_workspaceFile]
      exact mem_getD_nil.mpr ⟨patterns, hread, hmem⟩

/-! ## 4. The whole layout -/

/-- What is found at the root or below it. -/
theorem exists_mem_foundIn {P : Found → Prop} (h : areNamed entries) :
    (∃ f ∈ foundIn "" entries, P f) ↔
      ∃ dir name t, IsKept dir ∧ (t.isDirectory → name ∉ prunedDirectories) ∧
        (directory entries).at? (dir ++ [name]) = some t ∧ P (.here dir name t) := by
  have hmem : ∀ f, f ∈ foundIn "" entries ↔ f.LiesIn [] entries := fun f =>
    mem_foundIn forall_isName_nil h
  constructor
  · rintro ⟨f, hf, hP⟩
    obtain ⟨dir, name, t, hkept, hdirectory, hat, rfl⟩ := (hmem f).mp hf
    exact ⟨dir, name, t, hkept, hdirectory, hat, hP⟩
  · rintro ⟨dir, name, t, hkept, hdirectory, hat, hP⟩
    exact ⟨_, (hmem _).mpr ⟨dir, name, t, hkept, hdirectory, hat, rfl⟩, hP⟩

theorem isName_of_at?_concat (h : areNamed entries)
    (hat : (directory entries).at? (dir ++ [name]) = some t) : ∀ n ∈ dir, isName n :=
  fun n hn => isName_of_at? h hat n (List.mem_append_left _ hn)

theorem map_filterMap_sublist {α β κ : Type} {g : α → Option β} {key : β → κ} {key' : α → κ}
    {xs : List α} (h : ∀ a ∈ xs, ∀ b, g a = some b → key b = key' a) :
    ((xs.filterMap g).map key).Sublist (xs.map key') := by
  induction xs with
  | nil => exact List.Sublist.slnil
  | cons a xs ih =>
    obtain ⟨ha, hxs⟩ := List.forall_mem_cons.mp h
    cases hb : g a with
    | none =>
      rw [List.filterMap_cons_none hb]
      exact (ih hxs).cons _
    | some b =>
      rw [List.filterMap_cons_some hb, List.map_cons, List.map_cons, ha b hb]
      exact (ih hxs).cons_cons _

/-- What is made of what is found has distinct paths, if each keeps the path of what it is made
of. -/
theorem nodup_map_filterMap_foundIn {α : Type} {g : Found → Option α} {key : α → String}
    (h : areNamed entries) (hkey : ∀ dir name t, (∀ n ∈ dir, isName n) → ∀ a,
      g (.here dir name t) = some a → key a = pathOf (dir ++ [name])) :
    (((foundIn "" entries).filterMap g).map key).Nodup := by
  have hpaths : ((foundIn "" entries).map Found.path).Nodup :=
    nodup_foundIn forall_isName_nil h
  refine hpaths.sublist (map_filterMap_sublist fun f hf a ha => ?_)
  obtain ⟨dir, name, t, -, -, hat, rfl⟩ := (exists_mem_foundIn h).mp ⟨f, hf, rfl⟩
  rw [hkey dir name t (isName_of_at?_concat h hat) a ha, Found.path_here]

/-- **A scan shows just what is in a tree**, as far as it is not left out. -/
theorem Layout.shows_scan (rootName : String) (h : areNamed entries) :
    (scan rootName entries).Shows (directory entries) := by
  constructor
  case directories => exact Order.pairwise_ascending _
  case mem_directories =>
    intro path
    rw [scan, Order.mem_ascending, List.mem_filterMap, exists_mem_foundIn h]
    constructor
    · rintro ⟨dir, name, t, hkept, hdirectory, hat, hpath⟩
      obtain ⟨⟨es, rfl⟩, rfl⟩ := Found.directory?_here.mp hpath
      refine ⟨dir ++ [name], es, by simp, ?_, hat, rfl⟩
      exact List.forall_mem_append.mpr ⟨hkept, List.forall_mem_singleton.mpr (hdirectory rfl)⟩
    · rintro ⟨way, es, hne, hkept, hat, rfl⟩
      obtain ⟨dir, name, rfl⟩ := (List.eq_nil_or_concat' way).resolve_left hne
      obtain ⟨hdir, hname⟩ := List.forall_mem_append.mp hkept
      have hname := hname name List.mem_cons_self
      exact ⟨dir, name, _, hdir, fun _ => hname, hat,
        Found.directory?_here.mpr ⟨⟨es, rfl⟩, rfl⟩⟩
  case sourceFiles =>
    have hnodup : (((foundIn "" entries).filterMap Found.source?).map id).Nodup :=
      nodup_map_filterMap_foundIn h fun dir name t _ path hpath =>
        (Found.source?_here.mp hpath).2.2
    rw [List.map_id] at hnodup
    exact Order.pairwise_lt_sort hnodup
  case mem_sourceFiles =>
    intro path
    rw [scan, List.mem_mergeSort, List.mem_filterMap, exists_mem_foundIn h]
    constructor
    · rintro ⟨dir, name, t, hkept, -, hat, hpath⟩
      obtain ⟨⟨text, rfl⟩, hsource, rfl⟩ := Found.source?_here.mp hpath
      exact ⟨dir, name, text, hkept, hat, hsource, rfl⟩
    · rintro ⟨dir, name, text, hkept, hat, hsource, rfl⟩
      exact ⟨dir, name, .file _, hkept, fun h => absurd h Bool.false_ne_true, hat,
        Found.source?_here.mpr ⟨⟨text, rfl⟩, hsource, rfl⟩⟩
  case manifests =>
    refine Order.pairwise_lt_sortBy (nodup_map_filterMap_foundIn h fun dir name t hdir m hm => ?_)
    obtain ⟨text, -, -, -, -, hpath⟩ := (Found.manifest?_here hdir).mp hm
    exact hpath
  case mem_manifests =>
    intro m
    rw [scan, List.mem_mergeSort, List.mem_filterMap, exists_mem_foundIn h]
    constructor
    · rintro ⟨dir, name, t, hkept, -, hat, hm⟩
      obtain ⟨text, rfl, hrest⟩ := (Found.manifest?_here (isName_of_at?_concat h hat)).mp hm
      exact ⟨dir, name, text, hkept, hat, hrest⟩
    · rintro ⟨dir, name, text, hkept, hat, hrest⟩
      exact ⟨dir, name, .file _, hkept, fun h => absurd h Bool.false_ne_true, hat,
        (Found.manifest?_here (isName_of_at?_concat h hat)).mpr ⟨text, rfl, hrest⟩⟩
  case workspaces => exact Order.pairwise_ascending _
  case mem_workspaces =>
    intro pattern
    rw [scan, Order.mem_ascending, List.mem_flatMap, exists_mem_foundIn h,
      ← exists_mem_workspaces_iff]
    constructor
    · rintro ⟨dir, name, t, -, hdirectory, hat, hmem⟩
      obtain rfl := Found.eq_nil_of_mem_workspaces (isName_of_at?_concat h hat) hmem
      exact ⟨name, t, hdirectory, hat, hmem⟩
    · rintro ⟨name, t, hdirectory, hat, hmem⟩
      exact ⟨[], name, t, isKept_nil, hdirectory, hat, hmem⟩

/-! ## 5. Files that declare nothing -/

theorem Found.manifest?_of_declaresNothing {text : Option String} (hdir : ∀ n ∈ dir, isName n)
    (h : DeclaresNothing dir name text) : (here dir name (.file text)).manifest? = none := by
  refine Option.eq_none_iff_forall_ne_some.mpr fun m hm => ?_
  obtain ⟨content, hfile, hkind, hread, -, -⟩ := (manifest?_here hdir).mp hm
  exact h.1 m.kind content m.declared hkind (FileTree.file.inj hfile) hread

theorem Found.workspaces_of_declaresNothing {text : Option String} (hdir : ∀ n ∈ dir, isName n)
    (h : DeclaresNothing dir name text) : (here dir name (.file text)).workspaces = [] := by
  refine List.eq_nil_iff_forall_not_mem.mpr fun pattern hmem => ?_
  obtain rfl := eq_nil_of_mem_workspaces hdir hmem
  by_cases hname : name = workspaceFile
  · subst hname
    rw [workspaces_here_workspaceFile, h.2 rfl rfl] at hmem
    exact absurd hmem List.not_mem_nil
  · rw [workspaces_here_of_ne hname, manifest?_of_declaresNothing hdir h] at hmem
    exact absurd hmem List.not_mem_nil

/-- The path of a file is that of no source file which is found beside it. -/
theorem source?_ne_of_mem {text : Option String} {l r : List Found} (h : areNamed entries)
    (hat : (directory entries).at? (dir ++ [name]) = some (file text))
    (hfound : foundIn "" entries =
      l ++ (if IsKept dir then [Found.here dir name (file text)] else []) ++ r) :
    ∀ f ∈ l ++ r, f.source? ≠ some (pathOf (dir ++ [name])) := by
  intro f hf hsource
  have hmem : f ∈ foundIn "" entries := by
    rw [hfound]
    simp only [List.mem_append] at hf ⊢
    tauto
  obtain ⟨dir', name', t, hkept, -, hat', rfl⟩ := (exists_mem_foundIn h).mp ⟨f, hmem, rfl⟩
  have hway := (pathOf_inj (isName_of_at? h hat) (isName_of_at? h hat')).mp
    (Found.source?_here.mp hsource).2.2
  obtain ⟨rfl, hname⟩ := List.append_inj' hway rfl
  obtain rfl := (List.cons.inj hname).1
  -- so the file is found as well, and nothing is found twice
  have hnodup := nodup_foundIn forall_isName_nil h
  rw [pathOf_nil, hfound, if_pos hkept, List.append_assoc, List.singleton_append,
    List.map_append, List.map_cons, List.nodup_middle] at hnodup
  refine (List.nodup_cons.mp hnodup).1 ?_
  rw [← List.map_append, Found.path_here]
  exact List.mem_map.mpr ⟨_, hf, Found.path_here _ _ _⟩

/-- What is made of the items in the middle is left out of what is made of all. -/
theorem filter_filterMap_append {α β : Type} {g : α → Option β} {p : β → Bool} {l x r : List α}
    (hkeep : ∀ a ∈ l ++ r, ∀ b, g a = some b → p b) (hdrop : ∀ a ∈ x, ∀ b, g a = some b → ¬ p b) :
    ((l ++ x ++ r).filterMap g).filter p = (l ++ r).filterMap g := by
  obtain ⟨hl, hr⟩ := List.forall_mem_append.mp hkeep
  have hself : ∀ xs : List α, (∀ a ∈ xs, ∀ b, g a = some b → p b) →
      (xs.filterMap g).filter p = xs.filterMap g := by
    intro xs hxs
    refine List.filter_eq_self.mpr fun b hb => ?_
    obtain ⟨a, ha, hab⟩ := List.mem_filterMap.mp hb
    exact hxs a ha b hab
  have hnone : (x.filterMap g).filter p = [] := by
    refine List.filter_eq_nil_iff.mpr fun b hb => ?_
    obtain ⟨a, ha, hab⟩ := List.mem_filterMap.mp hb
    exact hdrop a ha b hab
  rw [List.filterMap_append, List.filterMap_append, List.filter_append, List.filter_append, hnone,
    hself l hl, hself r hr, List.append_nil, List.filterMap_append]

/-- **A file that declares nothing changes nothing else**: without it the layout is the same, but
for the path of the file among the source files. -/
theorem Layout.scan_remove (rootName : String) (h : areNamed entries) {text : Option String}
    (hat : (directory entries).at? (dir ++ [name]) = some (file text))
    (hnothing : DeclaresNothing dir name text) :
    scan rootName ((directory entries).remove name dir).entries =
      { scan rootName entries with
        sourceFiles := (scan rootName entries).sourceFiles.filter
          (· != pathOf (dir ++ [name])) } := by
  have hdir := isName_of_at?_concat h hat
  obtain ⟨l, r, hfound, hremoved⟩ :=
    foundIn_entries_remove forall_isName_nil h hat
  rw [pathOf_nil, List.nil_append] at hfound
  rw [pathOf_nil] at hremoved
  have hother := source?_ne_of_mem h hat hfound
  set here := if IsKept dir then [Found.here dir name (file text)] else [] with hhere
  have hmem : ∀ f ∈ here, f = .here dir name (file text) := by
    intro f hf
    rw [hhere] at hf
    split at hf
    · exact List.mem_singleton.mp hf
    · exact absurd hf List.not_mem_nil
  have hmanifests : here.filterMap Found.manifest? = [] :=
    List.filterMap_eq_nil_iff.mpr fun f hf => by
      rw [hmem f hf, Found.manifest?_of_declaresNothing hdir hnothing]
  have hdirectories : here.filterMap Found.directory? = [] :=
    List.filterMap_eq_nil_iff.mpr fun f hf => by rw [hmem f hf]; rfl
  have hworkspaces : here.flatMap Found.workspaces = [] :=
    List.flatMap_eq_nil_iff.mpr fun f hf => by
      rw [hmem f hf, Found.workspaces_of_declaresNothing hdir hnothing]
  have hsources : ((foundIn "" entries).filterMap Found.source?).filter
      (· != pathOf (dir ++ [name])) = (l ++ r).filterMap Found.source? := by
    rw [hfound]
    refine filter_filterMap_append (fun f hf p hp => ?_) fun f hf p hp => ?_
    · exact bne_iff_ne.mpr fun heq => hother f hf (heq ▸ hp)
    · rw [hmem f hf] at hp
      simpa using (Found.source?_here.mp hp).2.2
  simp only [scan, hremoved, Order.filter_sort, hsources]
  simp only [hfound, List.filterMap_append, List.flatMap_append, hmanifests, hdirectories,
    hworkspaces, List.append_nil]

/-- **A scan shows just what is in a tree**; a file that declares nothing changes nothing else; and
a root of any other name shows the same. -/
theorem Layout.scan_shows_and_remove (rootName : String) (h : areNamed entries) :
    (scan rootName entries).Shows (directory entries) ∧
      (∀ dir name text, (directory entries).at? (dir ++ [name]) = some (file text) →
        DeclaresNothing dir name text →
          scan rootName ((directory entries).remove name dir).entries =
            { scan rootName entries with
              sourceFiles := (scan rootName entries).sourceFiles.filter
                (· != pathOf (dir ++ [name])) }) ∧
      ∀ other, scan other entries = { scan rootName entries with rootName := other } :=
  ⟨shows_scan rootName h, fun _ _ _ hat hnothing => scan_remove rootName h hat hnothing,
    fun _ => rfl⟩

/-- A repository whose root declares workspaces in both ways.  A package has a source file that is
no text, a package file that is broken, and packages that are installed. -/
def monorepo : List (String × FileTree) :=
  [("package.json", .file (some "\x7b \"workspaces\": [\"packages/*\"] \x7d")),
    ("pnpm-workspace.yaml", .file (some "packages:\n  - apps/*\n")),
    ("packages", .directory [("web", .directory
      [("App.tsx", .file none), ("package.json", .file (some "\x7b broken")),
        ("node_modules", .directory [("index.js", .file (some ""))])])])]

/-- The broken package file declares nothing. -/
theorem declaresNothing_broken :
    DeclaresNothing ["packages", "web"] "package.json" (some "\x7b broken") := by
  refine ⟨fun kind content declared hkind hcontent => ?_, fun h => absurd h (by simp)⟩
  have hbroken : Manifests.readPackage? "\x7b broken" = none := by decide
  obtain rfl := Option.some.inj hcontent
  obtain rfl : ManifestKind.packageFile = kind := Option.some.inj hkind
  rw [Ne, ManifestKind.read_packageFile, hbroken]
  exact fun h => Option.some_ne_none _ h.symm

theorem Layout.scan_shows_and_remove_monorepo :
    areNamed monorepo ∧ (Layout.scan "dist" monorepo).Shows (directory monorepo) ∧
      (directory monorepo).at? (["packages", "web"] ++ ["package.json"]) =
        some (file (some "\x7b broken")) ∧
      Layout.scan "dist" ((directory monorepo).remove "package.json" ["packages", "web"]).entries =
        { Layout.scan "dist" monorepo with
          sourceFiles := (Layout.scan "dist" monorepo).sourceFiles.filter
            (· != "packages/web/package.json") } ∧
      (Layout.scan "dist" monorepo).directories = ["packages", "packages/web"] ∧
      (Layout.scan "dist" monorepo).workspaces = ["apps/*", "packages/*"] := by
  have hnamed : areNamed monorepo := by decide
  have hat : (directory monorepo).at? (["packages", "web"] ++ ["package.json"]) =
      some (file (some "\x7b broken")) := rfl
  obtain ⟨hshows, hremove, -⟩ := Layout.scan_shows_and_remove "dist" hnamed
  exact ⟨hnamed, hshows, hat, hremove _ _ _ hat declaresNothing_broken, by decide +kernel,
    by decide +kernel⟩

end Codemap
