/-
# Services do not see each other's files

Where some directory has a manifest, the roots of services come from the manifests and the patterns
for workspaces alone (`roots_eq_of_manifests`); only without any manifests are files asked for
roots.  So two runs on different files have the same roots, and what they say of a root differs
only if the files that it owns do: a service is built from the layout and from what is seen of its
own files (`build_eq_of_seen`).  The owner of a file is told by its path, so what happens to the
files of one service leaves those of the others as they are (`map_seen_owned`).

Main statement: `detect_isolated`, about two runs.
-/
import Codemap.Proofs.Services.Detect
import Codemap.Proofs.Services.Owner

namespace Codemap.Services

variable {l : Layout} {files files' : List FileFacts} {r root : String} {s : Service}

/-! ## 1. What is promised -/

/-- What is said of a service without its files being looked at. -/
def frame (s : Service) : String × String × Option String × List String :=
  (s.root, s.name, s.manifest, s.dependencies)

/-- What the services of two runs with one layout have in common. -/
structure Isolated (l : Layout) (files files' : List FileFacts) : Prop where
  /-- The runs give services with the same roots, names, manifests and dependencies, in the same
  order. -/
  frames : (detect l files).map frame = (detect l files').map frame
  /-- A service is the same in both runs if the same is seen of its files. -/
  mem_of_owned : ∀ s ∈ detect l files,
    ((owned l files s.root).map seen).Perm ((owned l files' s.root).map seen) →
      s ∈ detect l files'
  /-- Whatever is done to the files of one root, all other services are the same. -/
  mem_of_others : ∀ r,
    ((files.filter (· ∉ owned l files r)).map seen).Perm
      ((files'.filter (· ∉ owned l files' r)).map seen) →
        ∀ s ∈ detect l files, s.root ≠ r → s ∈ detect l files'

/-! ## 2. Roots -/

theorem roots_eq_of_manifests (h : l.manifests ≠ []) (files files' : List FileFacts) :
    roots l files = roots l files' := by
  have hne : ¬ l.manifestDirectories.isEmpty := by
    obtain ⟨m, hm⟩ := List.exists_mem_of_ne_nil _ h
    rw [List.isEmpty_iff]
    exact List.ne_nil_of_mem (Order.mem_ascending.mpr (List.mem_map_of_mem hm))
  rw [roots, roots, if_neg hne, if_neg hne]

/-! ## 3. Files -/

theorem mem_owned_iff {f : FileFacts} :
    f ∈ owned l files r ↔ f ∈ files ∧ owningRoot? (roots l files) f.path = some r := by
  rw [owned, List.mem_filter, beq_iff_eq]

/-- What is seen of the files of a root is found among what is seen of the files that another root
does not own. -/
theorem map_seen_owned (hne : root ≠ r) :
    (owned l files root).map seen = ((files.filter (· ∉ owned l files r)).map seen).filter
      fun x => owningRoot? (roots l files) x.1 == some root := by
  rw [List.filter_map, List.filter_filter, owned]
  refine congrArg _ (List.filter_congr fun f hf => ?_)
  rw [Bool.eq_iff_iff, Bool.and_eq_true, decide_eq_true_iff, mem_owned_iff]
  refine ⟨fun howner => ⟨howner, fun hmem => hne ?_⟩, And.left⟩
  exact Option.some.inj ((beq_iff_eq.mp howner).symm.trans hmem.2)

/-! ## 4. Two runs -/

section Runs

variable (h : l.manifests ≠ [])
include h

theorem map_frame_detect_eq : (detect l files).map frame = (detect l files').map frame := by
  rw [detect, detect, List.map_map, List.map_map, roots_eq_of_manifests h files files']
  exact List.map_congr_left fun _ _ => rfl

/-- A service of one run is one of the other run if the same is seen of its files. -/
theorem mem_detect_of_owned (hs : s ∈ detect l files)
    (hseen : ((owned l files s.root).map seen).Perm ((owned l files' s.root).map seen)) :
    s ∈ detect l files' := by
  obtain ⟨root, hroot, rfl⟩ := mem_detect.mp hs
  refine mem_detect.mpr ⟨root, roots_eq_of_manifests h files files' ▸ hroot, ?_⟩
  exact (build_eq_of_seen hseen root).symm

/-- **Services do not see each other's files.**  Where something has a manifest, two runs on
whatever files give services with the same roots, names, manifests and dependencies in the same
order, and a service is the same altogether if the same is seen of its own files, in whatever
order: what happens to the files of one service changes no other. -/
theorem detect_isolated (files files' : List FileFacts) : Isolated l files files' where
  frames := map_frame_detect_eq h
  mem_of_owned _ hs hseen := mem_detect_of_owned h hs hseen
  mem_of_others r hothers s hs hne := by
    refine mem_detect_of_owned h hs ?_
    rw [map_seen_owned hne, map_seen_owned hne, roots_eq_of_manifests h files' files]
    exact hothers.filter _

end Runs

/-- A repository of two packages, one of them within the other. -/
def nestedPackages : Layout where
  rootName := "shop"
  manifests :=
    [.inDirectory .packageFile "packages/api" ⟨some "api", ["express"], []⟩,
      .inDirectory .packageFile "packages/api/packages/admin" ⟨none, [], []⟩]
  directories :=
    ["packages", "packages/api", "packages/api/packages", "packages/api/packages/admin"]
  workspaces := []
  sourceFiles := []

/-- A file of the outer package. -/
def serverFile : FileFacts := .empty "packages/api/server.ts" .typescript

/-- A file of the inner package, which lies within the outer one as well. -/
def pageFile : FileFacts :=
  { FileFacts.empty "packages/api/packages/admin/page.ts" .typescript with
    imports := [⟨"react", [], default⟩] }

/-- The outer package stays what it is when the inner one gets a file. -/
theorem detect_isolated_nestedPackages :
    nestedPackages.manifests ≠ [] ∧
      ∃ s ∈ detect nestedPackages [serverFile], s.root = "packages/api" ∧
        s ∈ detect nestedPackages [serverFile, pageFile] := by
  have hmanifests : nestedPackages.manifests ≠ [] := List.cons_ne_nil _ _
  have hroot : "packages/api" ∈ roots nestedPackages [serverFile] := by decide +kernel
  have hothers : [serverFile].filter
      (· ∉ owned nestedPackages [serverFile] "packages/api/packages/admin") =
        [serverFile, pageFile].filter
          (· ∉ owned nestedPackages [serverFile, pageFile] "packages/api/packages/admin") := by
    decide +kernel
  have hs := mem_detect.mpr ⟨"packages/api", hroot, rfl⟩
  refine ⟨hmanifests, _, hs, rfl, ?_⟩
  exact (detect_isolated hmanifests [serverFile] [serverFile, pageFile]).mem_of_others
    "packages/api/packages/admin" (hothers ▸ .refl _) _ hs (by decide)

end Codemap.Services
