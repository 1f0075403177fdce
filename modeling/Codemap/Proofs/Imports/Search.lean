/-
# The search for circles finds the circles

The depth-first search of `Imports/Graph.lean` is Tarjan's algorithm, and its correctness is about
what the search knows at any moment.  While files are being visited, one inside the other, every
file that has been met is in one of three states:

* it is on the path of files that are being visited;
* it waits on the stack: all that it leads to has been met, and it reaches a file on the path that
  was met no later (`Sound.down`);
* it is done: its group is complete, and it leads to done files only (`Sound.done_leads`).

`Sound` says this of a search and a path.  It does not mention low links at all: what they are worth
is said by `Visited`, of the files that one visit has met.  A low link is the number of some file
that can be reached (or says nothing, if it is not lower than the file's own number), and no edge
from the new files to an old one on the stack goes below it.

Main statement: `search_sound`, that the groups found are the classes of files that reach each
other, each found once.
-/
import Codemap.Imports.Graph
import Codemap.Proofs.Order.Ascending
import Mathlib.Logic.Relation

namespace Codemap

open Codemap.Order Relation

/-! ## 1. Edges and classes -/

namespace ImportGraph

/-- An edge leads from the first file to the second. -/
def Leads (g : ImportGraph) (a b : String) : Prop := (a, b) ∈ g.edges

/-- The second file can be reached from the first, in any number of steps. -/
def Reaches (g : ImportGraph) : String → String → Prop := ReflTransGen g.Leads

/-- Two files reach each other. -/
def Mutual (g : ImportGraph) (a b : String) : Prop := g.Reaches a b ∧ g.Reaches b a

/-- The files of a list are, without repetitions, all the files that reach one of them and are
reached from it. -/
def IsClass (g : ImportGraph) (c : List String) : Prop :=
  c.Nodup ∧ ∃ x ∈ c, ∀ y, y ∈ c ↔ g.Mutual x y

variable {g : ImportGraph} {a b c : String}

@[simp] theorem mem_dependenciesOf : b ∈ g.dependenciesOf a ↔ g.Leads a b := by
  rw [dependenciesOf, mem_ascending, List.mem_map]
  constructor
  · rintro ⟨⟨x, y⟩, he, rfl⟩
    obtain ⟨hmem, hx⟩ := List.mem_filter.mp he
    rw [beq_iff_eq] at hx
    exact hx ▸ hmem
  · intro h
    exact ⟨(a, b), List.mem_filter.mpr ⟨h, by simp⟩, rfl⟩

theorem Leads.source_mem_files (h : g.Leads a b) : a ∈ g.files := by
  rw [files, mem_ascending]
  exact List.mem_append_left _ (List.mem_map_of_mem (f := Prod.fst) h)

theorem Leads.target_mem_files (h : g.Leads a b) : b ∈ g.files := by
  rw [files, mem_ascending]
  exact List.mem_append_right _ (List.mem_map_of_mem (f := Prod.snd) h)

theorem Mutual.symm (h : g.Mutual a b) : g.Mutual b a := ⟨h.2, h.1⟩

theorem Mutual.trans (h : g.Mutual a b) (h' : g.Mutual b c) : g.Mutual a c :=
  ⟨ReflTransGen.trans h.1 h'.1, ReflTransGen.trans h'.2 h.2⟩

theorem Mutual.refl (a : String) : g.Mutual a a := ⟨ReflTransGen.refl, ReflTransGen.refl⟩

/-- Any member of a class can stand for it. -/
theorem IsClass.mem_iff {c : List String} (h : g.IsClass c) {x : String} (hx : x ∈ c)
    (y : String) : y ∈ c ↔ g.Mutual x y := by
  obtain ⟨-, r, -, hr⟩ := h
  have hrx : g.Mutual r x := (hr x).mp hx
  rw [hr y]
  exact ⟨fun hy => hrx.symm.trans hy, fun hy => hrx.trans hy⟩

end ImportGraph

/-! ## 2. What the steps of the search do to its parts -/

/-- The files on a stack above a given one leave it together with that one. -/
theorem popTo_append {file : String} {above : List String} (h : file ∉ above)
    (below : List String) :
    popTo file (above ++ file :: below) = (above ++ [file], below) := by
  induction above with
  | nil => simp [popTo]
  | cons x above ih =>
    obtain ⟨hne, hmem⟩ := not_or.mp (mt List.mem_cons.mpr h)
    rw [List.cons_append, popTo, if_neg (by simpa using Ne.symm hne), ih hmem]
    rfl

theorem lookup_cons_of_ne {x v : String} (h : x ≠ v) (n : Nat) (l : List (String × Nat)) :
    ((v, n) :: l).lookup x = l.lookup x := by
  rw [List.lookup_cons, beq_false_of_ne h]

namespace Search

/-- The file has been met. -/
def Met (s : Search) (x : String) : Prop := (s.index? x).isSome

/-- The number of a file that has been met. -/
def number (s : Search) (x : String) : Nat := (s.index? x).getD 0

/-- The file is done: it has been met and is off the stack. -/
def Done (s : Search) (x : String) : Prop := s.Met x ∧ x ∉ s.stack

variable {s t u : Search} {v w x y : String}

theorem not_met_iff : ¬ s.Met x ↔ s.index? x = none := by
  simp [Met]

theorem index?_eq_number (h : s.Met x) : s.index? x = some (s.number x) := by
  obtain ⟨i, hi⟩ := Option.isSome_iff_exists.mp h
  rw [number, hi, Option.getD_some]

theorem index?_meet : (s.meet v).index? x = if x = v then some s.counter else s.index? x := by
  by_cases h : x = v
  · simp [index?, meet, h]
  · rw [if_neg h, index?, meet, lookup_cons_of_ne h, index?]

@[simp] theorem met_meet : (s.meet v).Met x ↔ x = v ∨ s.Met x := by
  rw [Met, index?_meet]
  by_cases h : x = v <;> simp [h, Met]

@[simp] theorem number_meet_self : (s.meet v).number v = s.counter := by
  simp [number, index?_meet]

theorem number_meet_of_ne (h : x ≠ v) : (s.meet v).number x = s.number x := by
  simp [number, index?_meet, h]

@[simp] theorem stack_meet : (s.meet v).stack = v :: s.stack := rfl

@[simp] theorem low?_meet_self : (s.meet v).low? v = some s.counter := by
  simp [low?, meet]

theorem low?_meet_of_ne (h : x ≠ v) : (s.meet v).low? x = s.low? x := by
  rw [low?, meet, lookup_cons_of_ne h, low?]

/-- Lowering a link changes nothing but links. -/
theorem exists_lower_eq (s : Search) (v : String) (b : Option Nat) :
    ∃ low, s.lower v b = { s with low := low } := by
  unfold lower
  split
  · exact ⟨_, rfl⟩
  · exact ⟨s.low, rfl⟩

theorem low?_lower_self {m n : Nat} (h : s.low? v = some n) :
    (s.lower v (some m)).low? v = some (min m n) := by
  simp only [lower, h]
  simp [low?]

theorem low?_lower_of_ne {b : Option Nat} (h : x ≠ v) : (s.lower v b).low? x = s.low? x := by
  unfold lower
  split
  · rw [low?, lookup_cons_of_ne h, low?]
  · rfl

/-! ## 3. Later searches -/

/-- One search comes after another: what has been met keeps its number and its low link, and what
is met in between has a higher number. -/
structure Extends (s t : Search) : Prop where
  counter_le : s.counter ≤ t.counter
  met : ∀ {x}, s.Met x → t.Met x
  number_eq : ∀ {x}, s.Met x → t.number x = s.number x
  low_eq : ∀ {x}, s.Met x → t.low? x = s.low? x
  counter_le_number : ∀ {x}, ¬ s.Met x → t.Met x → s.counter ≤ t.number x

theorem Extends.trans (h : Extends s t) (h' : Extends t u) : Extends s u where
  counter_le := h.counter_le.trans h'.counter_le
  met hx := h'.met (h.met hx)
  number_eq hx := (h'.number_eq (h.met hx)).trans (h.number_eq hx)
  low_eq hx := (h'.low_eq (h.met hx)).trans (h.low_eq hx)
  counter_le_number := by
    intro x hx hu
    by_cases ht : t.Met x
    · rw [h'.number_eq ht]
      exact h.counter_le_number hx ht
    · exact h.counter_le.trans (h'.counter_le_number ht hu)

theorem extends_meet (hv : ¬ s.Met v) : Extends s (s.meet v) where
  counter_le := Nat.le_succ _
  met hx := met_meet.mpr (Or.inr hx)
  number_eq hx := number_meet_of_ne fun h => hv (h ▸ hx)
  low_eq hx := low?_meet_of_ne fun h => hv (h ▸ hx)
  counter_le_number := by
    intro x hx ht
    rcases met_meet.mp ht with rfl | ht
    · rw [number_meet_self]
    · exact absurd ht hx

/-- Lowering the link of a file that is new leaves the search a later one. -/
theorem Extends.lower (h : Extends s t) (hv : ¬ s.Met v) (b : Option Nat) :
    Extends s (t.lower v b) := by
  obtain ⟨low, hlow⟩ := exists_lower_eq t v b
  refine ⟨?_, ?_, ?_, fun {x} hx => ?_, ?_⟩
  · rw [hlow]; exact h.counter_le
  · rw [hlow]; exact h.met
  · rw [hlow]; exact h.number_eq
  · have hne : x ≠ v := fun e => hv (e ▸ hx)
    rw [low?_lower_of_ne hne]
    exact h.low_eq hx
  · rw [hlow]; exact h.counter_le_number

end Search

/-! ## 4. Sound searches -/

open Search ImportGraph

/-- What holds of a search while the files of `path` are being visited, the innermost first. -/
structure Sound (g : ImportGraph) (path : List String) (s : Search) : Prop where
  /-- Numbers have been given out below the counter. -/
  number_lt : ∀ {x}, s.Met x → s.number x < s.counter
  stack_nodup : s.stack.Nodup
  stack_met : ∀ {x}, x ∈ s.stack → s.Met x
  mem_onStack : ∀ {x}, x ∈ s.onStack ↔ x ∈ s.stack
  path_stack : ∀ {x}, x ∈ path → x ∈ s.stack
  /-- A file that is no longer visited leads to files that have been met. -/
  met_leads : ∀ {x y}, s.Met x → x ∉ path → g.Leads x y → s.Met y
  /-- A file that is done leads to files that are off the stack. -/
  done_leads : ∀ {x y}, s.Done x → g.Leads x y → y ∉ s.stack
  /-- A file on the path reaches all that waits and was met later. -/
  up : ∀ {a x}, a ∈ path → x ∈ s.stack → s.number a ≤ s.number x → g.Reaches a x
  /-- A file that waits reaches one on the path that was met no later. -/
  down : ∀ {x}, x ∈ s.stack → ∃ a ∈ path, s.number a ≤ s.number x ∧ g.Reaches x a
  /-- Every group is a class, and no two groups have a file in common. -/
  isClass : ∀ {c}, c ∈ s.components → g.IsClass c
  disjoint : s.components.Pairwise List.Disjoint
  /-- The files of the groups are those that are done. -/
  mem_components : ∀ {x}, (∃ c ∈ s.components, x ∈ c) ↔ s.Done x

theorem sound_start (g : ImportGraph) : Sound g [] Search.start where
  number_lt h := by simp [Met, start, index?] at h
  stack_nodup := List.nodup_nil
  stack_met h := by simp [start] at h
  mem_onStack := Iff.rfl
  path_stack h := by simp at h
  met_leads h := by simp [Met, start, index?] at h
  done_leads h := by simp [Done, Met, start, index?] at h
  up h := by simp at h
  down h := by simp [start] at h
  isClass h := by simp [start] at h
  disjoint := List.Pairwise.nil
  mem_components := by simp [Done, Met, start, index?]

namespace Sound

variable {g : ImportGraph} {path l : List String} {s t : Search} {v w x y : String}

/-- Soundness does not depend on low links. -/
theorem lower (h : Sound g path s) (v : String) (b : Option Nat) :
    Sound g path (s.lower v b) := by
  obtain ⟨low, hlow⟩ := exists_lower_eq s v b
  rw [hlow]
  exact ⟨h.number_lt, h.stack_nodup, h.stack_met, h.mem_onStack, h.path_stack, h.met_leads,
    h.done_leads, h.up, h.down, h.isClass, h.disjoint, h.mem_components⟩

/-- What is done reaches only what is done. -/
theorem done_of_reaches (h : Sound g path s) (hx : s.Done x) (hr : g.Reaches x y) :
    s.Done y := by
  induction hr with
  | refl => exact hx
  | @tail y z _ hl ih =>
    have hy : y ∉ path := fun hp => ih.2 (h.path_stack hp)
    exact ⟨h.met_leads ih.1 hy hl, h.done_leads ih hl⟩

/-- A file that has not been met can be visited, if all files on the path reach it. -/
theorem meet (h : Sound g path s) (hv : ¬ s.Met v) (hr : ∀ a ∈ path, g.Reaches a v) :
    Sound g (v :: path) (s.meet v) := by
  have hstack : ∀ {x}, x ∈ s.stack → x ≠ v := fun hx e => hv (e ▸ h.stack_met hx)
  have hnum : ∀ {x}, s.Met x → (s.meet v).number x = s.number x := fun hx =>
    number_meet_of_ne fun e => hv (e ▸ hx)
  have hdone : ∀ {x}, (s.meet v).Done x ↔ s.Done x := by
    intro x
    simp only [Done, met_meet, stack_meet, List.mem_cons, not_or]
    constructor
    · rintro ⟨hm, hne, hx⟩
      exact ⟨hm.resolve_left hne, hx⟩
    · rintro ⟨hm, hx⟩
      exact ⟨Or.inr hm, fun e => hv (e ▸ hm), hx⟩
  constructor
  case number_lt =>
    intro x hx
    rcases met_meet.mp hx with rfl | hx
    · rw [number_meet_self]
      exact Nat.lt_succ_self _
    · rw [hnum hx]
      exact Nat.lt_succ_of_lt (h.number_lt hx)
  case stack_nodup => exact List.nodup_cons.mpr ⟨fun hx => hstack hx rfl, h.stack_nodup⟩
  case stack_met =>
    intro x hx
    exact met_meet.mpr ((List.mem_cons.mp hx).imp_right h.stack_met)
  case mem_onStack =>
    intro x
    simp only [Search.meet, List.mem_cons, h.mem_onStack]
  case path_stack =>
    intro x hx
    exact List.mem_cons.mpr ((List.mem_cons.mp hx).imp_right h.path_stack)
  case met_leads =>
    intro x y hx hp hl
    obtain ⟨hne, hp⟩ := not_or.mp (mt List.mem_cons.mpr hp)
    exact met_meet.mpr (Or.inr (h.met_leads ((met_meet.mp hx).resolve_left hne) hp hl))
  case done_leads =>
    intro x y hx hl hy
    have hdx : s.Done x := hdone.mp hx
    have hxp : x ∉ path := fun hp => hdx.2 (h.path_stack hp)
    rcases List.mem_cons.mp hy with rfl | hy
    · exact hv (h.met_leads hdx.1 hxp hl)
    · exact h.done_leads hdx hl hy
  case up =>
    intro a x ha hx hle
    rw [List.mem_cons] at ha
    rw [stack_meet, List.mem_cons] at hx
    rcases hx with rfl | hx
    · rcases ha with rfl | ha
      · exact ReflTransGen.refl
      · exact hr a ha
    · rw [hnum (h.stack_met hx)] at hle
      rcases ha with rfl | ha
      · rw [number_meet_self] at hle
        exact absurd (h.number_lt (h.stack_met hx)) (Nat.not_lt.mpr hle)
      · rw [hnum (h.stack_met (h.path_stack ha))] at hle
        exact h.up ha hx hle
  case down =>
    intro x hx
    rcases List.mem_cons.mp hx with rfl | hx
    · exact ⟨x, List.mem_cons_self, Nat.le_refl _, ReflTransGen.refl⟩
    · obtain ⟨a, ha, hle, hra⟩ := h.down hx
      refine ⟨a, List.mem_cons_of_mem _ ha, ?_, hra⟩
      rw [hnum (h.stack_met hx), hnum (h.stack_met (h.path_stack ha))]
      exact hle
  case isClass => exact h.isClass
  case disjoint => exact h.disjoint
  case mem_components => exact h.mem_components.trans hdone.symm

end Sound

/-! ## 5. What a visit does -/

/-- What the low link `n` of a file `v` says, when the files `l` have been met from `v` since the
search was `s` and wait on the stack. -/
structure LowLink (g : ImportGraph) (s : Search) (v : String) (l : List String) (n : Nat) :
    Prop where
  /-- A link that is lower than all new numbers is that of a waiting file that can be reached. -/
  reached : n < s.counter → ∃ y ∈ s.stack, s.number y = n ∧ g.Reaches v y
  /-- No edge from a new file to an old one that waits goes below the link. -/
  le_number : ∀ {x y}, x ∈ l → y ∈ s.stack → g.Leads x y → n ≤ s.number y

/-- The search `t` is `s` after a visit to `v`, which left the files `l` on the stack. -/
structure Visited (g : ImportGraph) (path : List String) (v : String) (s t : Search)
    (l : List String) : Prop where
  sound : Sound g path t
  later : Extends s t
  met : t.Met v
  stack : t.stack = l ++ s.stack
  new : ∀ {x}, x ∈ l → ¬ s.Met x
  low : ∃ n, t.low? v = some n ∧ LowLink g s v l n

/-- The search `t` is `s` in the middle of a visit to `v`: the files `looked` have been looked at,
which left the files `l` on the stack above `v`. -/
structure Looking (g : ImportGraph) (path : List String) (v : String) (s t : Search)
    (l looked : List String) : Prop where
  sound : Sound g (v :: path) t
  later : Extends s t
  number_eq : t.number v = s.counter
  stack : t.stack = l ++ v :: s.stack
  new : ∀ {x}, x ∈ l → ¬ s.Met x
  met : ∀ {y}, y ∈ looked → t.Met y
  low : ∃ n ≤ s.counter, t.low? v = some n ∧ LowLink g s v l n ∧
    ∀ y ∈ looked, y ∈ s.stack → n ≤ s.number y

section Visit

variable {g : ImportGraph} {path l looked : List String} {s t : Search} {v w x y : String}

theorem Sound.looking (h : Sound g path s) (hv : ¬ s.Met v) (hr : ∀ a ∈ path, g.Reaches a v) :
    Looking g path v s (s.meet v) [] [] where
  sound := h.meet hv hr
  later := extends_meet hv
  number_eq := number_meet_self
  stack := rfl
  new := by simp
  met := by simp
  low := by
    refine ⟨s.counter, Nat.le_refl _, low?_meet_self, ⟨fun hlt => ?_, by simp⟩, by simp⟩
    exact absurd hlt (Nat.lt_irrefl _)

namespace Looking

/-- The stack is the group of `v`, as far as it has been met, and what waited before. -/
theorem mem_stack_iff (hk : Looking g path v s t l looked) :
    x ∈ t.stack ↔ x ∈ l ++ [v] ∨ x ∈ s.stack := by
  rw [hk.stack, List.append_cons, List.mem_append]

theorem nodup_group (hk : Looking g path v s t l looked) :
    (l ++ [v]).Nodup ∧ ∀ {x}, x ∈ l ++ [v] → x ∉ s.stack := by
  have hn := hk.sound.stack_nodup
  rw [hk.stack, List.append_cons, List.nodup_append] at hn
  exact ⟨hn.1, fun {x} hx hxs => hn.2.2 x hx x hxs rfl⟩

/-- The file that is visited waits on the stack. -/
theorem mem_stack (hk : Looking g path v s t l looked) : v ∈ t.stack :=
  hk.mem_stack_iff.mpr (Or.inl (List.mem_append_right _ List.mem_cons_self))

theorem not_mem_above (hk : Looking g path v s t l looked) : v ∉ l := by
  have hn := hk.nodup_group.1
  rw [List.nodup_append] at hn
  exact fun hv => hn.2.2 v hv v List.mem_cons_self rfl

theorem met_of_mem_above (hk : Looking g path v s t l looked) (hx : x ∈ l) : t.Met x :=
  hk.sound.stack_met (hk.mem_stack_iff.mpr (Or.inl (List.mem_append_left _ hx)))

/-- Once `v` has looked at all that it leads to, only files on the path before it may lead to files
that have not been met. -/
theorem met_leads (hk : Looking g path v s t l looked) (hall : ∀ y, g.Leads v y → y ∈ looked)
    (hx : t.Met x) (hp : x ∉ path) (hxy : g.Leads x y) : t.Met y := by
  by_cases hxv : x = v
  · exact hk.met (hall y (hxv ▸ hxy))
  · exact hk.sound.met_leads hx (by simp [hxv, hp]) hxy

/-- A waiting file with a number below that of `v` waited before. -/
theorem mem_stack_of_number_lt (hk : Looking g path v s t l looked) (hy : y ∈ t.stack)
    (hlt : t.number y < s.counter) : y ∈ s.stack := by
  rw [hk.stack, List.mem_append, List.mem_cons] at hy
  rcases hy with hy | rfl | hy
  · have := hk.later.counter_le_number (hk.new hy) (hk.met_of_mem_above hy)
    omega
  · rw [hk.number_eq] at hlt
    exact absurd hlt (Nat.lt_irrefl _)
  · exact hy

/-- Looking at a file that has not been met: it is visited, and its link is taken over. -/
theorem visited (hk : Looking g path v s t l looked) (hs : Sound g path s) (hv : ¬ s.Met v)
    (hl : g.Leads v w) (hw : ¬ t.Met w) {u : Search} {l' : List String}
    (hu : Visited g (v :: path) w t u l') :
    Looking g path v s (u.lower v (u.low? w)) (l' ++ l) (looked ++ [w]) := by
  obtain ⟨n, hn, hlow, hlink, hlooked⟩ := hk.low
  obtain ⟨m, hm, hlink'⟩ := hu.low
  have htv : t.Met v := hk.sound.stack_met hk.mem_stack
  have hsw : w ∉ s.stack := fun h => hw (hk.later.met (hs.stack_met h))
  have hlowv : u.low? v = some n := (hu.later.low_eq htv).trans hlow
  have holder : ∀ {y}, y ∈ s.stack → y ∈ t.stack ∧ t.number y = s.number y := by
    intro y hy
    exact ⟨hk.mem_stack_iff.mpr (Or.inr hy), hk.later.number_eq (hs.stack_met hy)⟩
  obtain ⟨low, heq⟩ := exists_lower_eq u v (u.low? w)
  constructor
  case sound => exact hu.sound.lower v _
  case later => exact (hk.later.trans hu.later).lower hv _
  case number_eq =>
    rw [heq]
    exact (hu.later.number_eq htv).trans hk.number_eq
  case stack =>
    rw [heq]
    exact hu.stack.trans (by rw [hk.stack, List.append_assoc])
  case new =>
    intro x hx
    rcases List.mem_append.mp hx with hx | hx
    · exact fun hsx => hu.new hx (hk.later.met hsx)
    · exact hk.new hx
  case met =>
    intro y hy
    rw [heq]
    rcases List.mem_append.mp hy with hy | hy
    · exact hu.later.met (hk.met hy)
    · rw [List.mem_singleton.mp hy]
      exact hu.met
  case low =>
    refine ⟨min m n, (Nat.min_le_right _ _).trans hn, ?_, ⟨fun hlt => ?_, ?_⟩, ?_⟩
    · rw [hm]
      exact low?_lower_self hlowv
    · -- whichever link is the lower one, it is the number of a file that `v` reaches
      rcases Nat.le_total m n with hmn | hmn
      · rw [Nat.min_eq_left hmn] at hlt ⊢
        obtain ⟨y, hy, hny, hry⟩ := hlink'.reached (Nat.lt_of_lt_of_le hlt hk.later.counter_le)
        have hys : y ∈ s.stack := hk.mem_stack_of_number_lt hy (by omega)
        exact ⟨y, hys, by rw [← (holder hys).2, hny], ReflTransGen.head hl hry⟩
      · rw [Nat.min_eq_right hmn] at hlt ⊢
        exact hlink.reached hlt
    · intro x y hx hy hxy
      rcases List.mem_append.mp hx with hx | hx
      · have := hlink'.le_number hx (holder hy).1 hxy
        rw [(holder hy).2] at this
        exact (Nat.min_le_left _ _).trans this
      · exact (Nat.min_le_right _ _).trans (hlink.le_number hx hy hxy)
    · intro y hy hys
      rcases List.mem_append.mp hy with hy | hy
      · exact (Nat.min_le_right _ _).trans (hlooked y hy hys)
      · exact absurd (List.mem_singleton.mp hy ▸ hys) hsw

/-- Looking at a file that waits: its number is taken over. -/
theorem waiting (hk : Looking g path v s t l looked) (hs : Sound g path s) (hv : ¬ s.Met v)
    (hl : g.Leads v w) (hw : w ∈ t.stack) :
    Looking g path v s (t.lower v (t.index? w)) l (looked ++ [w]) := by
  obtain ⟨n, hn, hlow, hlink, hlooked⟩ := hk.low
  have htw : t.Met w := hk.sound.stack_met hw
  obtain ⟨low, heq⟩ := exists_lower_eq t v (t.index? w)
  constructor
  case sound => exact hk.sound.lower v _
  case later => exact hk.later.lower hv _
  case number_eq =>
    rw [heq]
    exact hk.number_eq
  case stack =>
    rw [heq]
    exact hk.stack
  case new => exact hk.new
  case met =>
    intro y hy
    rw [heq]
    rcases List.mem_append.mp hy with hy | hy
    · exact hk.met hy
    · rw [List.mem_singleton.mp hy]
      exact htw
  case low =>
    refine ⟨min (t.number w) n, (Nat.min_le_right _ _).trans hn, ?_, ⟨fun hlt => ?_, ?_⟩, ?_⟩
    · rw [index?_eq_number htw]
      exact low?_lower_self hlow
    · rcases Nat.le_total (t.number w) n with hmn | hmn
      · rw [Nat.min_eq_left hmn] at hlt ⊢
        have hws : w ∈ s.stack := hk.mem_stack_of_number_lt hw hlt
        exact ⟨w, hws, (hk.later.number_eq (hs.stack_met hws)).symm, ReflTransGen.single hl⟩
      · rw [Nat.min_eq_right hmn] at hlt ⊢
        exact hlink.reached hlt
    · intro x y hx hy hxy
      exact (Nat.min_le_right _ _).trans (hlink.le_number hx hy hxy)
    · intro y hy hys
      rcases List.mem_append.mp hy with hy | hy
      · exact (Nat.min_le_right _ _).trans (hlooked y hy hys)
      · rw [← List.mem_singleton.mp hy, hk.later.number_eq (hs.stack_met hys)]
        exact Nat.min_le_left _ _

/-- Looking at a file that is done changes nothing. -/
theorem done (hk : Looking g path v s t l looked) (hw : t.Met w) (hws : w ∉ s.stack) :
    Looking g path v s t l (looked ++ [w]) where
  sound := hk.sound
  later := hk.later
  number_eq := hk.number_eq
  stack := hk.stack
  new := hk.new
  met := by
    intro y hy
    rcases List.mem_append.mp hy with hy | hy
    · exact hk.met hy
    · rw [List.mem_singleton.mp hy]
      exact hw
  low := by
    obtain ⟨n, hn, hlow, hlink, hlooked⟩ := hk.low
    refine ⟨n, hn, hlow, hlink, fun y hy hys => ?_⟩
    rcases List.mem_append.mp hy with hy | hy
    · exact hlooked y hy hys
    · exact absurd (List.mem_singleton.mp hy ▸ hys) hws

/-- **A look at a file keeps what is known in the middle of a visit**, if visits do what they are
to do. -/
theorem look (hk : Looking g path v s t l looked) (hs : Sound g path s) (hv : ¬ s.Met v)
    (hl : g.Leads v w) {visit : String → Search → Search}
    (hvisit : ¬ t.Met w → ∃ l', Visited g (v :: path) w t (visit w t) l') :
    ∃ l', Looking g path v s (Search.look visit v t w) l' (looked ++ [w]) := by
  by_cases hw : t.Met w
  · have hisNone : ¬ (t.index? w).isNone := by
      rw [Option.isNone_iff_eq_none, ← not_met_iff]
      exact not_not.mpr hw
    rw [Search.look, if_neg hisNone]
    by_cases hws : w ∈ t.stack
    · rw [if_pos (List.contains_iff_mem.mpr (hk.sound.mem_onStack.mpr hws))]
      exact ⟨l, hk.waiting hs hv hl hws⟩
    · rw [if_neg (mt List.contains_iff_mem.mp (mt hk.sound.mem_onStack.mp hws))]
      exact ⟨l, hk.done hw fun h => hws (hk.mem_stack_iff.mpr (Or.inr h))⟩
  · obtain ⟨l', hu⟩ := hvisit hw
    rw [Search.look, if_pos (Option.isNone_iff_eq_none.mpr (not_met_iff.mp hw))]
    exact ⟨l' ++ l, hk.visited hs hv hl hw hu⟩

/-- Once `v` has looked at all that it leads to, the new files on the stack lead to each other, to
done files, and to old files with numbers no lower than the link. -/
theorem leads_closed (hk : Looking g path v s t l looked) (hs : Sound g path s)
    (hall : ∀ y, g.Leads v y → y ∈ looked) {n : Nat} (hlink : LowLink g s v l n)
    (hlooked : ∀ y ∈ looked, y ∈ s.stack → n ≤ s.number y) (hx : x ∈ l ++ [v])
    (hxy : g.Leads x y) : y ∈ l ++ [v] ∨ t.Done y ∨ (y ∈ s.stack ∧ n ≤ s.number y) := by
  have hxt : t.Met x := hk.sound.stack_met (hk.mem_stack_iff.mpr (Or.inl hx))
  have hxp : x ∉ path := fun hp => hk.nodup_group.2 hx (hs.path_stack hp)
  have hmet : t.Met y := hk.met_leads hall hxt hxp hxy
  by_cases hy : y ∈ t.stack
  · rcases hk.mem_stack_iff.mp hy with hy | hy
    · exact Or.inl hy
    · refine Or.inr (Or.inr ⟨hy, ?_⟩)
      rw [List.mem_append, List.mem_singleton] at hx
      rcases hx with hx | rfl
      · exact hlink.le_number hx hy hxy
      · exact hlooked y (hall y hxy) hy
  · exact Or.inr (Or.inl ⟨hmet, hy⟩)

/-- **The files above a file whose link is its own number are, with it, a class.** -/
theorem isClass (hk : Looking g path v s t l looked) (hs : Sound g path s)
    (hr : ∀ a ∈ path, g.Reaches a v) (hall : ∀ y, g.Leads v y → y ∈ looked)
    (hlink : LowLink g s v l s.counter)
    (hlooked : ∀ y ∈ looked, y ∈ s.stack → s.counter ≤ s.number y) :
    g.IsClass (l ++ [v]) := by
  have hv : v ∈ l ++ [v] := List.mem_append_right _ (List.mem_singleton.mpr rfl)
  -- no way leads from the group to a waiting file below it
  have hclosed : ∀ z, g.Reaches v z → z ∈ l ++ [v] ∨ t.Done z := by
    intro z hz
    induction hz with
    | refl => exact Or.inl hv
    | @tail y z _ hyz ih =>
      rcases ih with hy | hy
      · rcases hk.leads_closed hs hall hlink hlooked hy hyz with hz | hz | ⟨hz, hle⟩
        · exact Or.inl hz
        · exact Or.inr hz
        · exact absurd (hs.number_lt (hs.stack_met hz)) (Nat.not_lt.mpr hle)
      · exact Or.inr (hk.sound.done_of_reaches hy (ReflTransGen.single hyz))
  refine ⟨hk.nodup_group.1, v, hv, fun y => ⟨fun hy => ?_, fun hy => ?_⟩⟩
  · have hyt : y ∈ t.stack := hk.mem_stack_iff.mpr (Or.inl hy)
    have hle : t.number v ≤ t.number y := by
      rw [hk.number_eq]
      rw [List.mem_append, List.mem_singleton] at hy
      rcases hy with hy | rfl
      · exact hk.later.counter_le_number (hk.new hy) (hk.met_of_mem_above hy)
      · exact Nat.le_of_eq hk.number_eq.symm
    refine ⟨hk.sound.up List.mem_cons_self hyt hle, ?_⟩
    obtain ⟨a, ha, -, hya⟩ := hk.sound.down hyt
    rcases List.mem_cons.mp ha with rfl | ha
    · exact hya
    · exact ReflTransGen.trans hya (hr a ha)
  · rcases hclosed y hy.1 with h | h
    · exact h
    · exact absurd hk.mem_stack (hk.sound.done_of_reaches h hy.2).2

/-- Leaving a file whose link is its own number takes its group off the stack. -/
theorem leave_eq (hk : Looking g path v s t l looked) (hlow : t.low? v = some s.counter) :
    t.leave v =
      { t with
        stack := s.stack
        onStack := t.onStack.filter fun f => !(l ++ [v]).contains f
        components := t.components ++ [l ++ [v]] } := by
  have htv : t.Met v := hk.sound.stack_met hk.mem_stack
  have hself : t.low? v == t.index? v := by
    rw [hlow, index?_eq_number htv, hk.number_eq, beq_self_eq_true]
  rw [Search.leave, if_pos hself, hk.stack, popTo_append hk.not_mem_above]

/-- Once the group of `v` has left the stack, it is done, and so is what was done before. -/
theorem done_iff (hk : Looking g path v s t l looked) :
    t.Met x ∧ x ∉ s.stack ↔ x ∈ l ++ [v] ∨ t.Done x := by
  constructor
  · rintro ⟨hx, hxs⟩
    by_cases hxt : x ∈ t.stack
    · exact Or.inl ((hk.mem_stack_iff.mp hxt).resolve_right hxs)
    · exact Or.inr ⟨hx, hxt⟩
  · rintro (hx | hx)
    · exact ⟨hk.sound.stack_met (hk.mem_stack_iff.mpr (Or.inl hx)), hk.nodup_group.2 hx⟩
    · exact ⟨hx.1, fun h => hx.2 (hk.mem_stack_iff.mpr (Or.inr h))⟩

/-- Leaving a file whose link is its own number completes its group. -/
theorem leave_group (hk : Looking g path v s t l looked) (hs : Sound g path s)
    (hr : ∀ a ∈ path, g.Reaches a v) (hall : ∀ y, g.Leads v y → y ∈ looked)
    (hlow : t.low? v = some s.counter) (hlink : LowLink g s v l s.counter)
    (hlooked : ∀ y ∈ looked, y ∈ s.stack → s.counter ≤ s.number y) :
    Visited g path v s (t.leave v) [] := by
  have htv : t.Met v := hk.sound.stack_met hk.mem_stack
  rw [hk.leave_eq hlow]
  have hlater := hk.later
  refine ⟨?_, ⟨hlater.counter_le, hlater.met, hlater.number_eq, hlater.low_eq,
    hlater.counter_le_number⟩, htv, rfl, by simp, s.counter, hlow, fun h => ?_, by simp⟩
  · constructor
    case number_lt => exact hk.sound.number_lt
    case stack_nodup => exact hs.stack_nodup
    case stack_met => exact fun hx => hk.later.met (hs.stack_met hx)
    case mem_onStack =>
      intro x
      simp only [List.mem_filter, hk.sound.mem_onStack, hk.mem_stack_iff, Bool.not_eq_true',
        List.contains_eq_mem, decide_eq_false_iff_not]
      exact ⟨fun h => h.1.resolve_left h.2,
        fun h => ⟨Or.inr h, fun hx => hk.nodup_group.2 hx h⟩⟩
    case path_stack => exact hs.path_stack
    case met_leads => exact hk.met_leads hall
    case done_leads =>
      intro x y hx hxy hy
      rcases hk.done_iff.mp hx with hx | hx
      · rcases hk.leads_closed hs hall hlink hlooked hx hxy with h | h | ⟨-, hle⟩
        · exact hk.nodup_group.2 h hy
        · exact h.2 (hk.mem_stack_iff.mpr (Or.inr hy))
        · exact absurd (hs.number_lt (hs.stack_met hy)) (Nat.not_lt.mpr hle)
      · exact hk.sound.done_leads hx hxy (hk.mem_stack_iff.mpr (Or.inr hy))
    case up =>
      intro a x ha hx hle
      exact hk.sound.up (List.mem_cons_of_mem _ ha) (hk.mem_stack_iff.mpr (Or.inr hx)) hle
    case down =>
      intro x hx
      obtain ⟨a, ha, hle, hxa⟩ := hs.down hx
      refine ⟨a, ha, ?_, hxa⟩
      exact (hk.later.number_eq (hs.stack_met (hs.path_stack ha))).trans_le
        (hle.trans_eq (hk.later.number_eq (hs.stack_met hx)).symm)
    case isClass =>
      intro c hc
      rcases List.mem_append.mp hc with hc | hc
      · exact hk.sound.isClass hc
      · rw [List.mem_singleton.mp hc]
        exact hk.isClass hs hr hall hlink hlooked
    case disjoint =>
      refine List.pairwise_append.mpr
        ⟨hk.sound.disjoint, List.pairwise_singleton _ _, fun c hc d hd x hxc hxd => ?_⟩
      rw [List.mem_singleton.mp hd] at hxd
      exact (hk.sound.mem_components.mp ⟨c, hc, hxc⟩).2 (hk.mem_stack_iff.mpr (Or.inl hxd))
    case mem_components =>
      intro x
      refine Iff.trans ?_ hk.done_iff.symm
      rw [← hk.sound.mem_components, or_comm]
      simp only [List.mem_append, List.mem_singleton, or_and_right, exists_or, exists_eq_left]
  · exact absurd h (Nat.lt_irrefl _)

/-- Leaving a file with a lower link: it goes on to wait, and reaches a file on the path through
the file with that number. -/
theorem leave_waiting (hk : Looking g path v s t l looked) (hs : Sound g path s)
    (hv : ¬ s.Met v) (hall : ∀ y, g.Leads v y → y ∈ looked) {n : Nat} (hlow : t.low? v = some n)
    (hlt : n < s.counter) (hlink : LowLink g s v l n)
    (hlooked : ∀ y ∈ looked, y ∈ s.stack → n ≤ s.number y) :
    Visited g path v s (t.leave v) (l ++ [v]) := by
  have htv : t.Met v := hk.sound.stack_met hk.mem_stack
  have hleave : t.leave v = t := by
    rw [Search.leave, if_neg]
    rw [hlow, index?_eq_number htv, hk.number_eq]
    simp only [beq_iff_eq, Option.some.injEq]
    omega
  rw [hleave]
  refine ⟨?_, hk.later, htv, ?_, ?_, n, hlow, hlink.reached, ?_⟩
  · constructor
    case number_lt => exact hk.sound.number_lt
    case stack_nodup => exact hk.sound.stack_nodup
    case stack_met => exact hk.sound.stack_met
    case mem_onStack => exact hk.sound.mem_onStack
    case path_stack => exact fun hx => hk.sound.path_stack (List.mem_cons_of_mem _ hx)
    case met_leads => exact hk.met_leads hall
    case done_leads => exact hk.sound.done_leads
    case up => exact fun ha => hk.sound.up (List.mem_cons_of_mem _ ha)
    case down =>
      intro x hx
      obtain ⟨a, ha, hle, hxa⟩ := hk.sound.down hx
      rcases List.mem_cons.mp ha with rfl | ha
      · -- the file with the number of the link waits below `v` and reaches the path without it
        obtain ⟨y, hy, hny, hvy⟩ := hlink.reached hlt
        obtain ⟨b, hb, hby, hyb⟩ := hs.down hy
        have hnb := hk.later.number_eq (hs.stack_met (hs.path_stack hb))
        have hna := hk.number_eq
        exact ⟨b, hb, by omega, ReflTransGen.trans hxa (ReflTransGen.trans hvy hyb)⟩
      · exact ⟨a, ha, hle, hxa⟩
    case isClass => exact hk.sound.isClass
    case disjoint => exact hk.sound.disjoint
    case mem_components => exact hk.sound.mem_components
  · rw [hk.stack, List.append_assoc, List.singleton_append]
  · intro x hx
    rw [List.mem_append, List.mem_singleton] at hx
    rcases hx with hx | rfl
    · exact hk.new hx
    · exact hv
  · intro x y hx hy hxy
    rw [List.mem_append, List.mem_singleton] at hx
    rcases hx with hx | rfl
    · exact hlink.le_number hx hy hxy
    · exact hlooked y (hall y hxy) hy

/-- **Leaving a file completes the visit to it.** -/
theorem leave (hk : Looking g path v s t l looked) (hs : Sound g path s) (hv : ¬ s.Met v)
    (hr : ∀ a ∈ path, g.Reaches a v) (hall : ∀ y, g.Leads v y → y ∈ looked) :
    ∃ l', Visited g path v s (t.leave v) l' := by
  obtain ⟨n, hn, hlow, hlink, hlooked⟩ := hk.low
  rcases Nat.lt_or_eq_of_le hn with hlt | rfl
  · exact ⟨_, hk.leave_waiting hs hv hall hlow hlt hlink hlooked⟩
  · exact ⟨_, hk.leave_group hs hr hall hlow hlink hlooked⟩

end Looking

end Visit

/-! ## 6. The whole search -/

/-- How many files of the graph have not been met. -/
def unmet (g : ImportGraph) (s : Search) : Nat :=
  (g.files.filter fun x => (s.index? x).isNone).length

section Run

variable {g : ImportGraph} {path : List String} {s t : Search} {v x : String}

theorem unmet_le (h : ∀ {x}, s.Met x → t.Met x) : unmet g t ≤ unmet g s := by
  refine List.Sublist.length_le (List.monotone_filter_right _ fun x hx => ?_)
  rw [Option.isNone_iff_eq_none, ← not_met_iff] at hx ⊢
  exact mt h hx

/-- Meeting a file of the graph leaves fewer that have not been met. -/
theorem unmet_meet_lt (hv : ¬ s.Met v) (hf : v ∈ g.files) : unmet g (s.meet v) < unmet g s := by
  have hsub : g.files.filter (fun x => ((s.meet v).index? x).isNone) =
      (g.files.filter fun x => (s.index? x).isNone).filter (· != v) := by
    rw [List.filter_filter]
    refine List.filter_congr fun x _ => ?_
    rw [index?_meet]
    by_cases hx : x = v <;> simp [hx]
  rw [unmet, hsub, unmet, List.length_filter_lt_length_iff_exists]
  refine ⟨v, List.mem_filter.mpr ⟨hf, ?_⟩, by simp⟩
  exact Option.isNone_iff_eq_none.mpr (not_met_iff.mp hv)

/-- Visits do what they are to do, as long as no more than `depth` files have not been met. -/
def VisitsBelow (g : ImportGraph) (depth : Nat) (visit : String → Search → Search) : Prop :=
  ∀ {path s v}, Sound g path s → ¬ s.Met v → v ∈ g.files → (∀ a ∈ path, g.Reaches a v) →
    unmet g s ≤ depth → ∃ l, Visited g path v s (visit v s) l

/-- Looking at one file after the other. -/
theorem Looking.foldl {depth : Nat} {visit : String → Search → Search}
    (hvisit : VisitsBelow g depth visit) (hs : Sound g path s) (hv : ¬ s.Met v)
    (hr : ∀ a ∈ path, g.Reaches a v) (hdepth : unmet g (s.meet v) ≤ depth) (ws : List String)
    (hws : ∀ w ∈ ws, g.Leads v w) {l looked : List String}
    (hk : Looking g path v s t l looked) :
    ∃ l', Looking g path v s (ws.foldl (Search.look visit v) t) l' (looked ++ ws) := by
  induction ws generalizing t l looked with
  | nil => exact ⟨l, by rwa [List.foldl_nil, List.append_nil]⟩
  | cons w ws ih =>
    have hl : g.Leads v w := hws w List.mem_cons_self
    have hmet : ∀ {x}, (s.meet v).Met x → t.Met x := by
      intro x hx
      rcases met_meet.mp hx with rfl | hx
      · exact hk.sound.stack_met hk.mem_stack
      · exact hk.later.met hx
    have hpath : ∀ a ∈ v :: path, g.Reaches a w := by
      intro a ha
      rcases List.mem_cons.mp ha with rfl | ha
      · exact ReflTransGen.single hl
      · exact ReflTransGen.tail (hr a ha) hl
    obtain ⟨l', hk'⟩ := hk.look hs hv hl fun hw =>
      hvisit hk.sound hw hl.target_mem_files hpath ((unmet_le hmet).trans hdepth)
    obtain ⟨l'', hk''⟩ := ih (fun x hx => hws x (List.mem_cons_of_mem _ hx)) hk'
    refine ⟨l'', ?_⟩
    rwa [List.append_assoc, List.singleton_append] at hk''

/-- **A visit that may be nested as deep as there are unmet files does what it is to do.**  The
induction is on the depth: a visit meets its file, so those inside it have one file less to
meet. -/
theorem visit_spec (g : ImportGraph) (depth : Nat) : VisitsBelow g depth (g.visit depth) := by
  induction depth with
  | zero =>
    intro path s v _ hv hf _ hdepth
    have := unmet_meet_lt hv hf
    omega
  | succ depth ih =>
    intro path s v hs hv hf hr hdepth
    have hlt := unmet_meet_lt hv hf
    have hws : ∀ w ∈ g.dependenciesOf v, g.Leads v w := fun w hw => mem_dependenciesOf.mp hw
    obtain ⟨l, hk⟩ := Looking.foldl ih hs hv hr (by omega) (g.dependenciesOf v) hws
      (hs.looking hv hr)
    rw [visit]
    exact hk.leave hs hv hr fun y hy => mem_dependenciesOf.mpr hy

/-- Without a path, nothing waits. -/
theorem Sound.stack_eq_nil (h : Sound g [] s) : s.stack = [] := by
  refine List.eq_nil_iff_forall_not_mem.mpr fun x hx => ?_
  obtain ⟨a, ha, -⟩ := h.down hx
  exact absurd ha List.not_mem_nil

/-- The search from one file after the other. -/
theorem sound_foldl_visit (hs : Sound g [] s) (files : List String)
    (hf : ∀ x ∈ files, x ∈ g.files) :
    let t := files.foldl
      (fun s x => if (s.index? x).isNone then g.visit g.files.length x s else s) s
    Sound g [] t ∧ (∀ x, s.Met x → t.Met x) ∧ ∀ x ∈ files, t.Met x := by
  induction files generalizing s with
  | nil => exact ⟨hs, fun _ h => h, by simp⟩
  | cons v files ih =>
    have hf' : ∀ x ∈ files, x ∈ g.files := fun x hx => hf x (List.mem_cons_of_mem _ hx)
    have hstep : ∃ u, Sound g [] u ∧ (∀ x, s.Met x → u.Met x) ∧ u.Met v ∧
        (if (s.index? v).isNone then g.visit g.files.length v s else s) = u := by
      by_cases hv : s.Met v
      · refine ⟨s, hs, fun _ h => h, hv, if_neg ?_⟩
        rw [Option.isNone_iff_eq_none, ← not_met_iff]
        exact not_not.mpr hv
      · obtain ⟨l, hu⟩ := visit_spec g g.files.length hs hv (hf v List.mem_cons_self) (by simp)
          (List.length_filter_le _ _)
        refine ⟨_, hu.sound, fun _ h => hu.later.met h, hu.met, if_pos ?_⟩
        exact Option.isNone_iff_eq_none.mpr (not_met_iff.mp hv)
    obtain ⟨u, hu, hsu, huv, heq⟩ := hstep
    obtain ⟨ht, hut, hall⟩ := ih hu hf'
    rw [List.foldl_cons, heq]
    refine ⟨ht, fun x hx => hut x (hsu x hx), fun x hx => ?_⟩
    rcases List.mem_cons.mp hx with rfl | hx
    · exact hut _ huv
    · exact hall x hx

end Run

/-- **The whole search finds the classes.**  Its groups are classes of files that reach each other,
no two have a file in common, and every file that imports another is in one. -/
theorem search_sound (g : ImportGraph) :
    (∀ c ∈ g.search.components, g.IsClass c) ∧ g.search.components.Pairwise List.Disjoint ∧
      ∀ a b, g.Leads a b → ∃ c ∈ g.search.components, a ∈ c := by
  have hf : ∀ x ∈ ascending (g.edges.map (·.1)), x ∈ g.files := by
    intro x hx
    obtain ⟨e, he, rfl⟩ := List.mem_map.mp (mem_ascending.mp hx)
    exact Leads.source_mem_files (b := e.2) he
  obtain ⟨hs, -, hmet⟩ := sound_foldl_visit (sound_start g) _ hf
  refine ⟨fun c hc => hs.isClass hc, hs.disjoint, fun a b hab => ?_⟩
  refine hs.mem_components.mpr ⟨hmet a ?_, ?_⟩
  · exact mem_ascending.mpr (List.mem_map_of_mem (f := Prod.fst) hab)
  · rw [hs.stack_eq_nil]
    exact List.not_mem_nil

end Codemap
