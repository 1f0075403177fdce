/-
# Every file belongs to the service with the deepest root around it

Services get their files by the roots (`owningRoot?`), and the service of a path is looked up among
the services that were built (`serviceOf?`).  Both take the longest root that the path lies within.
Roots around one path are beginnings of that path, so the longest one is unique and lies within all
others (`owningRoot?_eq_some_iff`, `isWithin_of_length_lt`); and services are told apart by their
roots, so the two agree (`serviceOf?_detect_iff`).

Main statement: `detect_ownership`, what is promised of services and their files.
-/
import Codemap.Proofs.Order.Ascending
import Codemap.Proofs.Services.Containment
import Codemap.Services.Detect

namespace Codemap

open Codemap.Order

/-! ## 1. The deepest one -/

section Longest

variable {α : Type} {key : α → String}

/-- Of the first two items, the one with the longer key goes on, the later one if none is longer. -/
theorem longestBy_cons_cons (a b : α) (items : List α) :
    longestBy key (a :: b :: items) =
      longestBy key ((if (key a).length ≤ (key b).length then b else a) :: items) := by
  simp only [longestBy, List.foldl_cons]
  split <;> rfl

/-- There is an item with the longest key, if there are items at all. -/
theorem exists_longestBy_cons (key : α → String) (a : α) (items : List α) :
    ∃ x, longestBy key (a :: items) = some x ∧ x ∈ a :: items ∧
      ∀ y ∈ a :: items, (key y).length ≤ (key x).length := by
  induction items generalizing a with
  | nil => exact ⟨a, rfl, List.mem_cons_self, by simp⟩
  | cons b items ih =>
    rw [longestBy_cons_cons]
    by_cases hab : (key a).length ≤ (key b).length
    · rw [if_pos hab]
      obtain ⟨x, hx, hmem, hall⟩ := ih b
      refine ⟨x, hx, List.mem_cons_of_mem _ hmem, fun y hy => ?_⟩
      rcases List.mem_cons.mp hy with rfl | hy
      · exact hab.trans (hall b List.mem_cons_self)
      · exact hall y hy
    · rw [if_neg hab]
      obtain ⟨x, hx, hmem, hall⟩ := ih a
      refine ⟨x, hx, ?_, fun y hy => ?_⟩
      · rcases List.mem_cons.mp hmem with rfl | hmem
        · exact List.mem_cons_self
        · exact List.mem_cons_of_mem _ (List.mem_cons_of_mem _ hmem)
      · have ha := hall a List.mem_cons_self
        rcases List.mem_cons.mp hy with rfl | hy
        · exact ha
        · rcases List.mem_cons.mp hy with rfl | hy
          · omega
          · exact hall y (List.mem_cons_of_mem _ hy)

theorem longestBy_eq_none {items : List α} : longestBy key items = none ↔ items = [] := by
  cases items with
  | nil => simp [longestBy]
  | cons x items =>
    obtain ⟨y, hy, -⟩ := exists_longestBy_cons key x items
    simp [hy]

/-- The item with the longest key is one of the items, and no key is longer. -/
theorem longestBy_eq_some {items : List α} {x : α} (h : longestBy key items = some x) :
    x ∈ items ∧ ∀ y ∈ items, (key y).length ≤ (key x).length := by
  cases items with
  | nil => simp [longestBy] at h
  | cons z items =>
    obtain ⟨y, hy, hmem, hall⟩ := exists_longestBy_cons key z items
    obtain rfl : y = x := Option.some.inj (hy.symm.trans h)
    exact ⟨hmem, hall⟩

/-- **The item whose key is the deepest directory around a path**, when keys tell items apart. -/
theorem longestBy_isWithin_iff {items : List α} {p : String} {x : α}
    (hkey : ∀ y ∈ items, ∀ z ∈ items, key y = key z → y = z) :
    longestBy key (items.filter fun y => isWithin (key y) p) = some x ↔
      x ∈ items ∧ isWithin (key x) p ∧
        ∀ y ∈ items, isWithin (key y) p → (key y).length ≤ (key x).length := by
  constructor
  · intro h
    obtain ⟨hx, hall⟩ := longestBy_eq_some h
    obtain ⟨hx, hp⟩ := List.mem_filter.mp hx
    exact ⟨hx, hp, fun y hy hyp => hall y (List.mem_filter.mpr ⟨hy, hyp⟩)⟩
  · rintro ⟨hx, hp, hall⟩
    cases hl : longestBy key (items.filter fun y => isWithin (key y) p) with
    | none =>
      have hmem : x ∈ items.filter fun y => isWithin (key y) p := List.mem_filter.mpr ⟨hx, hp⟩
      rw [longestBy_eq_none.mp hl] at hmem
      exact absurd hmem List.not_mem_nil
    | some z =>
      obtain ⟨hz, hzall⟩ := longestBy_eq_some hl
      have hxz := hzall x (List.mem_filter.mpr ⟨hx, hp⟩)
      obtain ⟨hz, hzp⟩ := List.mem_filter.mp hz
      have hlen : (key z).length = (key x).length := Nat.le_antisymm (hall z hz hzp) hxz
      rw [hkey z hz x hx (eq_of_isWithin_of_length_eq hzp hp hlen)]

end Longest

/-- **The owning root is the deepest of the roots around a path.** -/
theorem owningRoot?_eq_some_iff {roots : List String} {p r : String} :
    owningRoot? roots p = some r ↔
      r ∈ roots ∧ isWithin r p ∧ ∀ t ∈ roots, isWithin t p → t.length ≤ r.length := by
  simp only [owningRoot?, isRootOf_eq_isWithin]
  exact @longestBy_isWithin_iff String id _ _ _ fun _ _ _ _ h => h

/-- **The service of a path has the deepest root around it**, when services are told apart by their
roots. -/
theorem serviceOf?_eq_some_iff {services : List Service} {p : String} {s : Service}
    (hroot : ∀ t ∈ services, ∀ u ∈ services, t.root = u.root → t = u) :
    serviceOf? services p = some s ↔
      s ∈ services ∧ isWithin s.root p ∧
        ∀ t ∈ services, isWithin t.root p → t.root.length ≤ s.root.length := by
  simp only [serviceOf?, isRootOf_eq_isWithin]
  exact longestBy_isWithin_iff hroot

theorem serviceOf?_eq_none_iff {services : List Service} {p : String} :
    serviceOf? services p = none ↔ ∀ s ∈ services, ¬ isWithin s.root p := by
  simp only [serviceOf?, isRootOf_eq_isWithin]
  rw [longestBy_eq_none, List.filter_eq_nil_iff]

/-! ## 2. The roots of services -/

namespace Services

theorem firstOf_ne_nil {lists : List (List String)} {xs : List String} (hmem : xs ∈ lists)
    (hne : xs ≠ []) : firstOf lists ≠ [] := by
  induction lists with
  | nil => exact absurd hmem List.not_mem_nil
  | cons ys more ih =>
    rw [firstOf]
    by_cases hys : ys.isEmpty
    · rw [if_pos hys]
      rcases List.mem_cons.mp hmem with rfl | hmem
      · exact absurd (List.isEmpty_iff.mp hys) hne
      · exact ih hmem
    · rw [if_neg hys]
      exact mt List.isEmpty_iff.mpr hys

theorem pairwise_firstOf {lists : List (List String)}
    (h : ∀ xs ∈ lists, xs.Pairwise (· < ·)) : (firstOf lists).Pairwise (· < ·) := by
  induction lists with
  | nil => exact List.Pairwise.nil
  | cons xs more ih =>
    rw [firstOf]
    split
    · exact ih fun ys hys => h ys (List.mem_cons_of_mem _ hys)
    · exact h xs List.mem_cons_self

theorem pairwise_several {xs : List String} (h : xs.Pairwise (· < ·)) :
    (several xs).Pairwise (· < ·) := by
  rw [several]
  split
  · exact h
  · exact List.Pairwise.nil

variable {l : Layout} {files : List FileFacts}

theorem roots_ne_nil : roots l files ≠ [] := by
  refine @firstOf_ne_nil _ [""] ?_ (by simp)
  simp

/-- **The roots strictly ascend**, wherever they come from. -/
theorem pairwise_roots : (roots l files).Pairwise (· < ·) := by
  have hd : l.manifestDirectories.Pairwise (· < ·) := pairwise_ascending _
  refine pairwise_firstOf fun xs hxs => ?_
  simp only [List.mem_cons, List.not_mem_nil, or_false] at hxs
  rcases hxs with rfl | rfl | rfl | rfl
  · exact hd.sublist List.filter_sublist
  · split
    · exact List.Pairwise.nil
    · exact pairwise_several (hd.sublist List.filter_sublist)
  · split
    · exact pairwise_several (pairwise_ascending _)
    · exact List.Pairwise.nil
  · exact List.pairwise_singleton _ _

/-! ## 3. The services and their files -/

/-- The files that the service with a root gets. -/
def owned (l : Layout) (files : List FileFacts) (root : String) : List FileFacts :=
  files.filter fun f => owningRoot? (roots l files) f.path == some root

theorem mem_detect {s : Service} :
    s ∈ detect l files ↔ ∃ r ∈ roots l files, build l r (owned l files r) = s := by
  rw [detect, List.mem_map]
  rfl

@[simp] theorem root_build (root : String) (fs : List FileFacts) :
    (build l root fs).root = root := rfl

theorem map_root_detect : (detect l files).map (·.root) = roots l files := by
  rw [detect, List.map_map]
  exact List.map_id'' (fun _ => rfl) _

/-- Services are told apart by their roots. -/
theorem eq_of_root_eq {s t : Service} (hs : s ∈ detect l files) (ht : t ∈ detect l files)
    (h : s.root = t.root) : s = t := by
  obtain ⟨r, -, rfl⟩ := mem_detect.mp hs
  obtain ⟨r', -, rfl⟩ := mem_detect.mp ht
  obtain rfl : r = r' := h
  rfl

theorem root_mem_roots {s : Service} (hs : s ∈ detect l files) : s.root ∈ roots l files := by
  rw [← map_root_detect]
  exact List.mem_map_of_mem hs

/-- **Both ways to find the owner of a path agree.** -/
theorem serviceOf?_detect_iff {s : Service} (hs : s ∈ detect l files) {p : String} :
    serviceOf? (detect l files) p = some s ↔ owningRoot? (roots l files) p = some s.root := by
  rw [serviceOf?_eq_some_iff fun t ht u hu => eq_of_root_eq ht hu, owningRoot?_eq_some_iff]
  refine ⟨fun ⟨_, hp, hall⟩ => ⟨root_mem_roots hs, hp, fun r hr hrp => ?_⟩,
    fun ⟨_, hp, hall⟩ => ⟨hs, hp, fun t ht htp => hall t.root (root_mem_roots ht) htp⟩⟩
  rw [← map_root_detect, List.mem_map] at hr
  obtain ⟨t, ht, rfl⟩ := hr
  exact hall t ht hrp

/-- The files of a service are the paths that it owns, as often as they are given. -/
theorem files_perm {s : Service} (hs : s ∈ detect l files) :
    s.files.Perm ((files.map (·.path)).filter fun p => serviceOf? (detect l files) p = some s) := by
  have howner : ∀ p, decide (serviceOf? (detect l files) p = some s) =
      (owningRoot? (roots l files) p == some s.root) := by
    intro p
    rw [Bool.eq_iff_iff, decide_eq_true_iff, beq_iff_eq]
    exact serviceOf?_detect_iff hs
  have hfilter : (files.map (·.path)).filter (fun p => serviceOf? (detect l files) p = some s) =
      (owned l files s.root).map (·.path) := by
    rw [List.filter_map, owned]
    exact congrArg _ (List.filter_congr fun f _ => howner f.path)
  rw [hfilter]
  obtain ⟨r, -, rfl⟩ := mem_detect.mp hs
  exact List.mergeSort_perm _ _

theorem pairwise_files {s : Service} (hs : s ∈ detect l files) : s.files.Pairwise (· ≤ ·) := by
  obtain ⟨r, -, rfl⟩ := mem_detect.mp hs
  exact pairwise_sort _

/-- A file is listed by the service of its path, and by no other. -/
theorem path_mem_files_iff {s : Service} (hs : s ∈ detect l files) {f : FileFacts}
    (hf : f ∈ files) : f.path ∈ s.files ↔ serviceOf? (detect l files) f.path = some s := by
  rw [(files_perm hs).mem_iff, List.mem_filter, decide_eq_true_iff]
  exact and_iff_right (List.mem_map_of_mem hf)

end Services

/-! ## 4. What is promised -/

/-- How services share out files. -/
structure Ownership (services : List Service) (files : List FileFacts) : Prop where
  /-- Services come in strictly ascending order of their roots. -/
  ascending : (services.map (·.root)).Pairwise (· < ·)
  nonempty : services ≠ []
  /-- A service lists a file if and only if it is the service of the file's path. -/
  path_mem_files_iff : ∀ s ∈ services, ∀ f ∈ files,
    f.path ∈ s.files ↔ serviceOf? services f.path = some s
  /-- No file is listed by two services. -/
  eq_of_path_mem_files : ∀ s ∈ services, ∀ t ∈ services, ∀ f ∈ files,
    f.path ∈ s.files → f.path ∈ t.files → s = t
  /-- Of all roots around a listed file, that of the service lies within every other, and is
  longer. -/
  deepest : ∀ s ∈ services, ∀ f ∈ files, f.path ∈ s.files → isWithin s.root f.path ∧
    ∀ t ∈ services, isWithin t.root f.path → t ≠ s →
      isWithin t.root s.root ∧ t.root.length < s.root.length
  /-- The files of a service are sorted. -/
  sorted : ∀ s ∈ services, s.files.Pairwise (· ≤ ·)
  /-- They are the paths that the service owns, as often as they are given. -/
  perm : ∀ s ∈ services,
    s.files.Perm ((files.map (·.path)).filter fun p => serviceOf? services p = some s)
  /-- A file is listed by no service if and only if it lies under none of the roots. -/
  unowned_iff : ∀ f ∈ files,
    (∀ s ∈ services, f.path ∉ s.files) ↔ ∀ s ∈ services, ¬ isWithin s.root f.path
  /-- If the root of the repository is a service, every file is listed by some service. -/
  owned_of_root : (∃ s ∈ services, s.root = "") → ∀ f ∈ files, ∃ s ∈ services, f.path ∈ s.files

namespace Services

variable {l : Layout} {files : List FileFacts}

/-- A file that lies under a root is listed by a service. -/
theorem exists_path_mem_files {s : Service} (hs : s ∈ detect l files) {f : FileFacts}
    (hf : f ∈ files) (h : isWithin s.root f.path) : ∃ t ∈ detect l files, f.path ∈ t.files := by
  cases ho : serviceOf? (detect l files) f.path with
  | none => exact absurd h (serviceOf?_eq_none_iff.mp ho s hs)
  | some t =>
    have ht := ((serviceOf?_eq_some_iff fun t ht u hu => eq_of_root_eq ht hu).mp ho).1
    exact ⟨t, ht, (path_mem_files_iff ht hf).mpr ho⟩

/-- **Every file belongs to the service with the deepest root around it.** -/
theorem detect_ownership (l : Layout) (files : List FileFacts) :
    Ownership (detect l files) files where
  ascending := by
    rw [map_root_detect]
    exact pairwise_roots
  nonempty := by
    rw [detect, Ne, List.map_eq_nil_iff]
    exact roots_ne_nil
  path_mem_files_iff s hs f hf := path_mem_files_iff hs hf
  eq_of_path_mem_files := by
    intro s hs t ht f hf hfs hft
    rw [path_mem_files_iff hs hf] at hfs
    rw [path_mem_files_iff ht hf] at hft
    exact Option.some.inj (hfs.symm.trans hft)
  deepest := by
    intro s hs f hf hfs
    rw [path_mem_files_iff hs hf,
      serviceOf?_eq_some_iff fun t ht u hu => eq_of_root_eq ht hu] at hfs
    obtain ⟨-, hp, hall⟩ := hfs
    refine ⟨hp, fun t ht htp hne => ?_⟩
    have hlt : t.root.length < s.root.length := by
      refine lt_of_le_of_ne (hall t ht htp) fun heq => hne ?_
      exact eq_of_root_eq ht hs (eq_of_isWithin_of_length_eq htp hp heq)
    exact ⟨isWithin_of_length_lt htp hp hlt, hlt⟩
  sorted s hs := pairwise_files hs
  perm s hs := files_perm hs
  unowned_iff := by
    intro f hf
    constructor
    · intro h s hs hsp
      obtain ⟨t, ht, hft⟩ := exists_path_mem_files hs hf hsp
      exact h t ht hft
    · intro h s hs hfs
      rw [path_mem_files_iff hs hf, serviceOf?_eq_some_iff fun t ht u hu => eq_of_root_eq ht hu]
        at hfs
      exact h s hs hfs.2.1
  owned_of_root := by
    rintro ⟨s, hs, hroot⟩ f hf
    refine exists_path_mem_files hs hf ?_
    rw [hroot]
    exact isWithin_empty f.path

end Services

end Codemap
