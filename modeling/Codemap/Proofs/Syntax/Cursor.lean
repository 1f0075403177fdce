/-
# Places that a walk visits

A cursor carries its surroundings along, and nothing in its type says that these belong together.
For the places that a walk of a tree visits they do: such a place is among the children of its
parent, and so are all places above it (`placed_of_mem_walk`), and these are visited as well
(`mem_walk_of_mem_ancestors`).
-/
import Codemap.Syntax.Cursor
import Mathlib.Data.List.Basic

namespace Codemap.Syntax.Cursor

variable {c d p : Cursor} {n : Node} {up : Option Cursor} {left ds : List Node}

/-! ## 1. Parents and children -/

@[simp] theorem ancestors_mk_none (n : Node) (left right : List Node) :
    ancestors ⟨n, left, right, none⟩ = [] := by
  rw [ancestors]

@[simp] theorem ancestors_mk_some (n : Node) (left right : List Node) (p : Cursor) :
    ancestors ⟨n, left, right, some p⟩ = p :: p.ancestors := by
  rw [ancestors]

theorem ancestors_of_parent (h : d.parent = some p) : d.ancestors = p :: p.ancestors := by
  obtain ⟨n, left, right, up⟩ := d
  obtain rfl : up = some p := h
  exact ancestors_mk_some n left right p

/-- Places with the same parent have the same places above them. -/
theorem ancestors_congr (h : d.parent = c.parent) : d.ancestors = c.ancestors := by
  obtain ⟨m, left, right, up⟩ := c
  obtain rfl : d.parent = up := h
  obtain ⟨n, left', right', up⟩ := d
  cases up with
  | none => rw [ancestors_mk_none, ancestors_mk_none]
  | some p => rw [ancestors_mk_some, ancestors_mk_some]

theorem parent_of_mem_row (h : d ∈ row up left ds) : d.parent = up := by
  induction ds generalizing left with
  | nil => exact absurd h List.not_mem_nil
  | cons e ds ih =>
    rw [row] at h
    rcases List.mem_cons.mp h with rfl | h
    · rfl
    · exact ih h

theorem parent_of_mem_children (h : d ∈ c.children) : d.parent = some c := parent_of_mem_row h

/-- In a row of siblings, the place after one that belongs to the row belongs to it as well. -/
theorem next_mem_row (hc : c ∈ row up left ds) (hd : c.next? = some d) : d ∈ row up left ds := by
  induction ds generalizing left with
  | nil => exact absurd hc List.not_mem_nil
  | cons e ds ih =>
    rw [row] at hc ⊢
    rcases List.mem_cons.mp hc with rfl | hc
    · cases ds with
      | nil => exact absurd hd.symm (Option.some_ne_none d)
      | cons e' ds =>
        obtain rfl := Option.some.inj hd
        exact List.mem_cons_of_mem _ (by rw [row]; exact List.mem_cons_self)
    · exact List.mem_cons_of_mem _ (ih hc)

/-- The children of a place are the children of its node, in their order. -/
theorem map_node_children (c : Cursor) : c.children.map (·.node) = c.node.children := by
  have hrow : ∀ (ds left : List Node), (row (some c) left ds).map (·.node) = ds := by
    intro ds
    induction ds with
    | nil => exact fun _ => rfl
    | cons e ds ih =>
      intro left
      rw [row, List.map_cons, ih]
  exact hrow c.node.children []

/-- The only child that fills a field is the one that is found. -/
theorem field?_eq_some_of_unique {field : String} (hd : d ∈ c.children)
    (hfield : d.node.field = some field)
    (hone : c.node.children.countP (·.field == some field) = 1) : c.field? field = some d := by
  rw [← map_node_children, List.countP_map, List.countP_eq_length_filter] at hone
  obtain ⟨e, he⟩ := List.length_eq_one_iff.mp hone
  have hd : d ∈ [e] := he ▸ List.mem_filter.mpr ⟨hd, by simp [hfield]⟩
  obtain rfl := List.mem_singleton.mp hd
  rw [field?, ← List.head?_filter]
  exact congrArg List.head? he

/-- Where no two children fill a field, a child that fills it is the one that is found. -/
theorem field?_eq_some_iff {field : String} (hd : d ∈ c.children)
    (hone : c.node.children.countP (·.field == some field) ≤ 1) :
    c.field? field = some d ↔ d.node.field = some field := by
  constructor
  · intro h
    simpa using List.find?_some h
  · intro h
    have hmem : d.node ∈ c.node.children := map_node_children c ▸ List.mem_map_of_mem hd
    have hpos : 0 < c.node.children.countP (·.field == some field) :=
      List.countP_pos_iff.mpr ⟨d.node, hmem, by simp [h]⟩
    exact field?_eq_some_of_unique hd h (Nat.le_antisymm hone hpos)

/-! ## 2. Places in a tree -/

/-- A place, and all places above it, are among the children of their parents. -/
def Placed (c : Cursor) : Prop :=
  ∀ a ∈ c :: c.ancestors, ∀ p, a.parent = some p → a ∈ p.children

theorem placed_top (n : Node) : (top n).Placed := by
  intro a ha p hp
  rw [top, ancestors_mk_none, List.mem_singleton] at ha
  subst ha
  exact absurd hp.symm (Option.some_ne_none p)

theorem Placed.mem_children (h : c.Placed) (hp : c.parent = some p) : c ∈ p.children :=
  h c List.mem_cons_self p hp

theorem Placed.parent (h : c.Placed) (hp : c.parent = some p) : p.Placed := by
  intro a ha
  refine h a (List.mem_cons_of_mem _ ?_)
  rwa [ancestors_of_parent hp]

/-- A child of a place in a tree is in the tree. -/
theorem Placed.child (h : p.Placed) (hd : d ∈ p.children) : d.Placed := by
  have hparent := parent_of_mem_children hd
  intro a ha q hq
  rcases List.mem_cons.mp ha with rfl | ha
  · obtain rfl : p = q := Option.some.inj (hparent.symm.trans hq)
    exact hd
  · rw [ancestors_of_parent hparent] at ha
    exact h a ha q hq

theorem mem_children_of_firstChild? (h : c.firstChild? = some d) : d ∈ c.children := by
  rw [children]
  rw [firstChild?] at h
  split at h
  · exact absurd h.symm (Option.some_ne_none d)
  next hcs =>
    obtain rfl := Option.some.inj h
    rw [hcs, row]
    exact List.mem_cons_self

theorem parent_of_next? (h : c.next? = some d) : d.parent = c.parent := by
  rw [next?] at h
  split at h
  · exact absurd h.symm (Option.some_ne_none d)
  · obtain rfl := Option.some.inj h
    rfl

theorem Placed.next (h : c.Placed) (hd : c.next? = some d) : d.Placed := by
  have hparent := parent_of_next? hd
  intro a ha q hq
  rcases List.mem_cons.mp ha with rfl | ha
  · exact next_mem_row (h.mem_children (hparent ▸ hq)) hd
  · rw [ancestors_congr hparent] at ha
    exact h a (List.mem_cons_of_mem _ ha) q hq

/-! ## 3. Walks -/

variable {depth k fuel : Nat}

/-- Climbing stays in the tree, and below places that were above before. -/
theorem Placed.climb (h : c.Placed) (hd : climb? depth c = some (k, d)) :
    d.Placed ∧ d.ancestors ⊆ c.ancestors := by
  induction depth generalizing c with
  | zero => exact absurd hd (by simp [climb?])
  | succ depth ih =>
    rw [climb?] at hd
    split at hd
    next e he =>
      obtain ⟨-, rfl⟩ := Prod.mk.inj (Option.some.inj hd)
      refine ⟨h.next he, ?_⟩
      rw [ancestors_congr (parent_of_next? he)]
      exact List.Subset.refl _
    next =>
      obtain ⟨p, hp, hd⟩ := Option.bind_eq_some_iff.mp hd
      obtain ⟨hplaced, hsubset⟩ := ih (h.parent hp) hd
      refine ⟨hplaced, fun a ha => ?_⟩
      rw [ancestors_of_parent hp]
      exact List.mem_cons_of_mem _ (hsubset ha)

/-- A step of a walk stays in the tree, and goes down by one place at most. -/
theorem Placed.step (h : c.Placed) (hd : step? depth c = some (k, d)) :
    d.Placed ∧ d.ancestors ⊆ c :: c.ancestors := by
  rw [step?] at hd
  split at hd
  next e he =>
    obtain ⟨-, rfl⟩ := Prod.mk.inj (Option.some.inj hd)
    have hchild := mem_children_of_firstChild? he
    refine ⟨h.child hchild, ?_⟩
    rw [ancestors_of_parent (parent_of_mem_children hchild)]
    exact List.Subset.refl _
  next =>
    obtain ⟨hplaced, hsubset⟩ := h.climb hd
    exact ⟨hplaced, fun a ha => List.mem_cons_of_mem _ (hsubset ha)⟩

/-- A walk visits places in the tree, and whatever is above them: unless it is above the start. -/
theorem mem_walkFrom (h : c.Placed) (hd : d ∈ walkFrom fuel depth c) :
    d.Placed ∧ ∀ a ∈ d.ancestors, a ∈ walkFrom fuel depth c ∨ a ∈ c.ancestors := by
  induction fuel generalizing depth c with
  | zero => exact absurd hd List.not_mem_nil
  | succ fuel ih =>
    rw [walkFrom] at hd ⊢
    rcases List.mem_cons.mp hd with rfl | hd
    · exact ⟨h, fun a ha => Or.inr ha⟩
    · split at hd
      next k e he =>
        -- whatever is above the next place is above this one, or is this one
        obtain ⟨hplaced, hsubset⟩ := h.step he
        obtain ⟨hd, habove⟩ := ih hplaced hd
        refine ⟨hd, fun a ha => ?_⟩
        rcases habove a ha with hmem | hmem
        · exact Or.inl (List.mem_cons_of_mem _ hmem)
        · rcases List.mem_cons.mp (hsubset hmem) with rfl | hmem
          · exact Or.inl List.mem_cons_self
          · exact Or.inr hmem
      next => exact absurd hd List.not_mem_nil

/-- **A walk of a tree visits places in the tree.** -/
theorem placed_of_mem_walk (h : d ∈ (top n).walk) : d.Placed :=
  (mem_walkFrom (placed_top n) h).1

/-- **A walk of a tree visits all places above those that it visits.** -/
theorem mem_walk_of_mem_ancestors (h : d ∈ (top n).walk) (hp : p ∈ d.ancestors) :
    p ∈ (top n).walk := by
  rcases (mem_walkFrom (placed_top n) h).2 p hp with hmem | hmem
  · exact hmem
  · exact absurd hmem (by simp [top])

/-- The nearest place above of some kinds is visited as well. -/
theorem mem_walk_of_ancestor? {kinds : List String} (h : d ∈ (top n).walk)
    (hp : d.ancestor? kinds = some p) : p ∈ (top n).walk ∧ p.kind ∈ kinds :=
  ⟨mem_walk_of_mem_ancestors h (List.mem_of_find?_eq_some hp), by simpa using List.find?_some hp⟩

end Codemap.Syntax.Cursor
