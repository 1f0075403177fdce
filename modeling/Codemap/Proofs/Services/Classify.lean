/-
# The kind of a service follows from ranked rules

Seven rules ask for the kind of a service, in order: packages of four sets, names of directories
twice, and the last one asks for nothing.  The first rule that fires decides (`IsDeciding`).  The
kinds that the rules stand for never rise on the way down the list (`pairwise_rules`), and a rule
that fires goes on firing when packages and directories are added (`Rule.Fires.mono`).  So with more
packages and directories the deciding rule stands at the same place or further up, and the kind
does not fall.

Main statement: `classify_ranked`.
-/
import Codemap.Proofs.Packages.Known
import Codemap.Services.Detect
import Mathlib.Data.List.Basic

namespace Codemap.Services

variable {packages packages' directories directories' : List String}

/-! ## 1. Rules -/

/-- The sets of known packages that tell kinds, as lists in the order in which they are tried. -/
structure KnownPackages where
  frontend : List String
  web : List String
  worker : List String
  cli : List String

/-- The packages that are known, in the order in which they are listed. -/
def KnownPackages.listed : KnownPackages :=
  ⟨Packages.frontend, Packages.web, Packages.worker, Packages.cli⟩

/-- The same packages are known, but tried in another order. -/
structure KnownPackages.Reorders (known known' : KnownPackages) : Prop where
  frontend : known.frontend.Perm known'.frontend
  web : known.web.Perm known'.web
  worker : known.worker.Perm known'.worker
  cli : known.cli.Perm known'.cli

/-- A rule: one of some packages, or one of some directories, tells a kind; or nothing is asked. -/
inductive Rule where
  | package (keys : List String) (kind : ServiceKind)
  | directory (names : List String) (kind : ServiceKind)
  | otherwise (kind : ServiceKind)

namespace Rule

/-- The kind that a rule tells. -/
def kind : Rule → ServiceKind
  | package _ kind | directory _ kind | otherwise kind => kind

/-- A rule that asks for packages. -/
def IsPackageRule : Rule → Prop
  | package .. => True
  | directory .. | otherwise _ => False

/-- What a rule asks for is there. -/
def Fires (packages directories : List String) : Rule → Prop
  | package keys _ => ∃ p ∈ packages, ∃ key ∈ keys, Packages.belongsTo p key
  | directory names _ => ∃ name ∈ names, name ∈ directories
  | otherwise _ => True

/-- What a rule says: the kind, and the package that told it. -/
def verdict? (packages directories : List String) : Rule → Option (ServiceKind × Option String)
  | package keys kind => (knownPackage? keys packages).map fun p => (kind, some p)
  | directory names kind => if names.any directories.contains then some (kind, none) else none
  | otherwise kind => some (kind, none)

end Rule

/-- The rules in the order in which they are asked. -/
def rules (known : KnownPackages) : List Rule :=
  [.package known.frontend .frontend, .package known.web .apiServer,
    .directory apiDirectories .apiServer, .package known.worker .worker,
    .directory workerDirectories .worker, .package known.cli .cli, .otherwise .library]

/-- What the rules say. -/
def verdict? (known : KnownPackages) (packages directories : List String) :
    Option (ServiceKind × Option String) :=
  (rules known).findSome? (Rule.verdict? packages directories)

/-- The first of the rules that fires. -/
def IsDeciding (packages directories : List String) (r : Rule) : Prop :=
  ∃ before after, rules .listed = before ++ r :: after ∧ r.Fires packages directories ∧
    ∀ q ∈ before, ¬ q.Fires packages directories

/-- The kinds that can be told, the least first. -/
def ladder : List ServiceKind := [.library, .cli, .worker, .apiServer, .frontend]

/-! ## 2. What a rule says -/

namespace Rule

variable {r : Rule} {v : ServiceKind × Option String}

theorem isSome_verdict?_iff :
    (r.verdict? packages directories).isSome ↔ r.Fires packages directories := by
  cases r with
  | package keys kind =>
    simp [verdict?, Fires, knownPackage?, List.findSome?_isSome_iff,
      Packages.isSome_longestMatch?_iff]
  | directory names kind => simp [verdict?, Fires]
  | otherwise kind => simp [verdict?, Fires]

/-- A rule says its kind, and names a package if it asks for packages. -/
theorem verdict?_eq_some (h : r.verdict? packages directories = some v) :
    v.1 = r.kind ∧ (v.2.isSome ↔ r.IsPackageRule) := by
  cases r with
  | package keys kind =>
    obtain ⟨p, -, rfl⟩ := Option.map_eq_some_iff.mp h
    simp [Rule.kind, IsPackageRule]
  | directory names kind =>
    rw [verdict?] at h
    split at h
    · obtain rfl := Option.some.inj h
      simp [Rule.kind, IsPackageRule]
    · exact absurd h (by simp)
  | otherwise kind =>
    obtain rfl := Option.some.inj h
    simp [Rule.kind, IsPackageRule]

/-- A rule goes on firing when packages and directories are added. -/
theorem Fires.mono (h : r.Fires packages directories) (hp : packages ⊆ packages')
    (hd : directories ⊆ directories') : r.Fires packages' directories' := by
  cases r with
  | package keys kind =>
    obtain ⟨p, hmem, hkey⟩ := h
    exact ⟨p, hp hmem, hkey⟩
  | directory names kind =>
    obtain ⟨name, hname, hmem⟩ := h
    exact ⟨name, hname, hd hmem⟩
  | otherwise kind => exact h

end Rule

/-! ## 3. What the rules say together -/

section Together

variable {rest : List Rule} {kind : ServiceKind} {v : ServiceKind × Option String}
  (h : rest.findSome? (Rule.verdict? packages directories) = some v)
include h

theorem findSome?_package_cons (keys : List String) :
    (Rule.package keys kind :: rest).findSome? (Rule.verdict? packages directories) =
      some (match knownPackage? keys packages with
        | some p => (kind, some p)
        | none => v) := by
  rw [List.findSome?_cons, Rule.verdict?]
  cases knownPackage? keys packages with
  | some p => rfl
  | none => exact h

theorem findSome?_directory_cons (names : List String) :
    (Rule.directory names kind :: rest).findSome? (Rule.verdict? packages directories) =
      some (if names.any directories.contains then (kind, none) else v) := by
  rw [List.findSome?_cons, Rule.verdict?]
  by_cases hany : names.any directories.contains
  · rw [if_pos hany, if_pos hany]
  · rw [if_neg hany, if_neg hany]
    exact h

end Together

/-- **The kind of a service and its framework are what the rules say.** -/
theorem verdict?_listed (packages directories : List String) :
    verdict? .listed packages directories = some (classify packages directories) :=
  findSome?_package_cons (findSome?_package_cons (findSome?_directory_cons
    (findSome?_package_cons (findSome?_directory_cons (findSome?_package_cons rfl _) _) _) _) _) _

/-- The first rule that fires decides on the kind, and on whether there is a framework. -/
theorem exists_isDeciding (packages directories : List String) :
    ∃ r, IsDeciding packages directories r ∧ (classify packages directories).1 = r.kind ∧
      ((classify packages directories).2.isSome ↔ r.IsPackageRule) := by
  obtain ⟨before, r, after, hsplit, hr, hbefore⟩ :=
    List.findSome?_eq_some_iff.mp (verdict?_listed packages directories)
  refine ⟨r, ⟨before, after, hsplit, ?_, fun q hq hfires => ?_⟩, Rule.verdict?_eq_some hr⟩
  · exact Rule.isSome_verdict?_iff.mp (Option.isSome_of_eq_some hr)
  · simp [← Rule.isSome_verdict?_iff, hbefore q hq] at hfires

theorem knownPackage?_eq_of_perm {keys keys' : List String}
    (hkeys : keys ∈ Packages.knownSets) (h : keys.Perm keys') :
    knownPackage? keys = knownPackage? keys' := by
  funext packages
  rw [knownPackage?, knownPackage?,
    Packages.longestMatch?_eq_of_perm h fun k => Packages.isPlain_of_mem hkeys]

/-- **It does not matter in which order the known packages are tried.** -/
theorem verdict?_reordered {known : KnownPackages} (h : KnownPackages.listed.Reorders known)
    (packages directories : List String) :
    verdict? known packages directories = some (classify packages directories) := by
  have hfrontend := knownPackage?_eq_of_perm
    (by simp [KnownPackages.listed, Packages.knownSets]) h.frontend
  have hweb := knownPackage?_eq_of_perm
    (by simp [KnownPackages.listed, Packages.knownSets]) h.web
  have hworker := knownPackage?_eq_of_perm
    (by simp [KnownPackages.listed, Packages.knownSets]) h.worker
  have hcli := knownPackage?_eq_of_perm
    (by simp [KnownPackages.listed, Packages.knownSets]) h.cli
  rw [← verdict?_listed]
  simp only [verdict?, rules, List.findSome?_cons, Rule.verdict?, hfrontend, hweb, hworker, hcli]

/-! ## 4. More packages and directories -/

/-- Kinds do not rise on the way down the list of rules. -/
theorem pairwise_rules (known : KnownPackages) :
    (rules known).Pairwise fun q r => ladder.idxOf r.kind ≤ ladder.idxOf q.kind := by
  have hkinds : (rules known).map Rule.kind =
      [.frontend, .apiServer, .apiServer, .worker, .worker, .cli, .library] := rfl
  have hpairwise :
      ((rules known).map Rule.kind).Pairwise fun a b => ladder.idxOf b ≤ ladder.idxOf a := by
    rw [hkinds]
    decide
  exact List.pairwise_map.mp hpairwise

/-- With more packages and directories, the deciding rule stands no further down. -/
theorem IsDeciding.kind_le {r r' : Rule} (h : IsDeciding packages directories r)
    (h' : IsDeciding packages' directories' r') (hp : packages ⊆ packages')
    (hd : directories ⊆ directories') : ladder.idxOf r.kind ≤ ladder.idxOf r'.kind := by
  obtain ⟨before, after, hsplit, hr, -⟩ := h
  obtain ⟨before', after', hsplit', -, hbefore'⟩ := h'
  -- `r` fires on the larger evidence too, so it does not stand before the rule that decides there.
  have hmem : r ∈ before' ++ r' :: after' := hsplit' ▸ hsplit ▸ by simp
  have hnot : r ∉ before' := fun hmem' => hbefore' r hmem' (hr.mono hp hd)
  rcases List.mem_cons.mp ((List.mem_append.mp hmem).resolve_left hnot) with rfl | hafter
  · exact le_rfl
  · have hpairwise := pairwise_rules .listed
    rw [hsplit', List.pairwise_append, List.pairwise_cons] at hpairwise
    exact hpairwise.2.1.1 r hafter

theorem kind_mem_ladder {r : Rule} (h : r ∈ rules .listed) : r.kind ∈ ladder := by
  have hall : ∀ kind ∈ (rules .listed).map Rule.kind, kind ∈ ladder := by decide
  exact hall r.kind (List.mem_map_of_mem h)

/-- **The kind of a service is ranked.**  More packages and more names of directories never tell a
lower kind.  What is told, the package included, does not depend on the order in which the known
packages are tried; the kind is that of the first rule that fires, and there is a framework just
when that rule asks for packages. -/
theorem classify_ranked :
    (∀ packages packages' directories directories' : List String,
      packages ⊆ packages' → directories ⊆ directories' →
        ladder.idxOf (classify packages directories).1 ≤
          ladder.idxOf (classify packages' directories').1) ∧
    ∀ packages directories : List String,
      (classify packages directories).1 ∈ ladder ∧
      (∀ known, KnownPackages.listed.Reorders known →
        verdict? known packages directories = some (classify packages directories)) ∧
      ∃ r, IsDeciding packages directories r ∧ (classify packages directories).1 = r.kind ∧
        ((classify packages directories).2.isSome ↔ r.IsPackageRule) := by
  refine ⟨fun packages packages' directories directories' hp hd => ?_,
    fun packages directories => ⟨?_, fun known h => verdict?_reordered h packages directories,
      exists_isDeciding packages directories⟩⟩
  · obtain ⟨r, hr, hkind, -⟩ := exists_isDeciding packages directories
    obtain ⟨r', hr', hkind', -⟩ := exists_isDeciding packages' directories'
    rw [hkind, hkind']
    exact hr.kind_le hr' hp hd
  · obtain ⟨r, ⟨before, after, hsplit, -⟩, hkind, -⟩ := exists_isDeciding packages directories
    rw [hkind]
    exact kind_mem_ladder (hsplit ▸ by simp)

end Codemap.Services
