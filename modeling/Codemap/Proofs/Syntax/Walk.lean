/-
# Every place of a tree is visited once

A walk moves by first children, next siblings and parents.  Where it goes from a place that lies
deep in the tree depends on everything above, so its order is first compared to that of a plain
recursion, `places`: a walk visits the places at and below a cursor in this order, and then goes on
from where it climbs to (`walkFrom_add`).

Main statements: no place of a tree is visited twice (`nodup_walk`), and what is below a visited
place is visited (`mem_walk_of_mem_children`).  So whatever moves up and down from the places of a
walk stays among them, and its nodes among those of the tree.
-/
import Codemap.Proofs.Syntax.Cursor
import Mathlib.Data.List.Nodup

namespace Codemap.Syntax

namespace Cursor

variable {c d e p x : Cursor} {n : Node} {up : Option Cursor} {left ds : List Node}

/-! ## 1. The places below a cursor -/

theorem node_mem_of_mem_children (h : d ∈ c.children) : d.node ∈ c.node.children := by
  rw [← map_node_children]
  exact List.mem_map_of_mem h

theorem sizeOf_lt_of_mem_children (h : d ∈ c.children) : sizeOf d.node < sizeOf c.node := by
  have hmem : sizeOf d.node < sizeOf c.node.children :=
    List.sizeOf_lt_of_mem (node_mem_of_mem_children h)
  obtain ⟨⟨k, m, f, s, t, cs⟩, left, right, up⟩ := c
  refine Nat.lt_trans hmem ?_
  rw [Node.mk.sizeOf_spec]
  exact Nat.lt_add_of_pos_left (by omega)

/-- What holds of a place whenever it holds of its children holds of every place. -/
@[elab_as_elim]
theorem children_induction {P : Cursor → Prop} (c : Cursor)
    (step : ∀ c, (∀ d ∈ c.children, P d) → P c) : P c :=
  step c fun d hd =>
    have := sizeOf_lt_of_mem_children hd
    children_induction d step
termination_by sizeOf c.node

/-- The places at and below a cursor, parents before children. -/
def places (c : Cursor) : List Cursor :=
  c :: c.children.attach.flatMap fun d =>
    have := sizeOf_lt_of_mem_children d.2
    places d.1
termination_by sizeOf c.node

theorem places_eq (c : Cursor) : places c = c :: c.children.flatMap places := by
  rw [places, List.flatMap_subtype (g := places) (fun _ _ => rfl), List.unattach_attach]

theorem mem_places_iff : x ∈ places c ↔ x = c ∨ ∃ d ∈ c.children, x ∈ places d := by
  rw [places_eq, List.mem_cons, List.mem_flatMap]

/-! ## 2. The order of a walk -/

/-- What a walk visits that has been through everything below `c`. -/
def after (fuel depth : Nat) (c : Cursor) : List Cursor :=
  match climb? depth c with
  | some (depth, d) => walkFrom fuel depth d
  | none => []

/-- After the last child of a place the walk has been through everything below that place. -/
theorem after_last (fuel depth : Nat) (left : List Node) (n : Node) (p : Cursor) :
    after fuel (depth + 1) ⟨n, left, [], some p⟩ = after fuel depth p := rfl

/-- After any other child the next one follows. -/
theorem after_next (fuel depth : Nat) (left ds : List Node) (n e : Node) (p : Cursor) :
    after fuel (depth + 1) ⟨n, left, e :: ds, some p⟩ =
      walkFrom fuel (depth + 1) ⟨e, n :: left, ds, some p⟩ := rfl

/-- **A walk visits the places at and below a cursor in the order of the recursion, and goes on from
where it climbs to.** -/
theorem walkFrom_add (fuel depth : Nat) (c : Cursor) :
    walkFrom (c.node.size + fuel) depth c = places c ++ after fuel depth c := by
  induction c using children_induction generalizing fuel depth with
  | step c ih =>
    -- the children from `d` on are left for where the walk climbs to from their parent
    have hrow : ∀ (ds left : List Node) (d : Node), row (some c) left (d :: ds) ⊆ c.children →
        walkFrom (Node.sizeAll (d :: ds) + fuel) (depth + 1) ⟨d, left, ds, some c⟩ =
          (row (some c) left (d :: ds)).flatMap places ++ after fuel depth c := by
      intro ds
      induction ds with
      | nil =>
        intro left d hsub
        rw [row, row, List.cons_subset] at hsub
        rw [Node.sizeAll, Node.sizeAll, Nat.add_zero, ih _ hsub.1, after_last, row, row,
          List.flatMap_cons, List.flatMap_nil, List.append_nil]
      | cons e ds ihds =>
        intro left d hsub
        rw [row, List.cons_subset] at hsub
        rw [Node.sizeAll, Nat.add_assoc, ih _ hsub.1, after_next, ihds (d :: left) e hsub.2,
          ← List.append_assoc, ← List.flatMap_cons, ← row]
    rw [places_eq]
    obtain ⟨⟨k, m, f, s, t, cs⟩, left, right, up⟩ := c
    cases cs with
    | nil =>
      rw [Node.size, Node.sizeAll, Nat.add_right_comm, walkFrom, Nat.zero_add]
      rfl
    | cons d ds =>
      rw [Node.size, Nat.add_right_comm, walkFrom, List.cons_append]
      exact congrArg _ (hrow ds [] d (List.Subset.refl _))

/-- A walk is the recursion. -/
theorem walk_eq_places (c : Cursor) : c.walk = places c := by
  have h := walkFrom_add 0 0 c
  rwa [after, climb?, List.append_nil, Nat.add_zero] at h

/-- The nodes that a walk visits are the nodes of the tree. -/
theorem map_node_walk (c : Cursor) : c.walk.map (·.node) = c.node.preorder := by
  rw [walk_eq_places]
  induction c using children_induction with
  | step c ih =>
    have hall : ∀ ns : List Node, Node.preorderAll ns = ns.flatMap Node.preorder := by
      intro ns
      induction ns with
      | nil => rfl
      | cons n ns ih => rw [Node.preorderAll, List.flatMap_cons, ih]
    have hroot : c.node.preorder = c.node :: Node.preorderAll c.node.children := by
      obtain ⟨⟨k, m, f, s, t, cs⟩, left, right, up⟩ := c
      rw [Node.preorder]
    rw [places_eq, List.map_cons, List.map_flatMap, hroot, hall, ← map_node_children,
      List.flatMap_map]
    exact congrArg _ (List.flatMap_congr ih)

theorem mem_preorder_iff {m : Node} : m ∈ n.preorder ↔ ∃ c ∈ (top n).walk, c.node = m := by
  have hmap : (top n).walk.map (·.node) = n.preorder := map_node_walk (top n)
  rw [← hmap, List.mem_map]

theorem node_mem_preorder (h : c ∈ (top n).walk) : c.node ∈ n.preorder :=
  mem_preorder_iff.mpr ⟨c, h, rfl⟩

/-! ## 3. What is visited, and how often -/

theorem mem_places_of_mem_children (h : c ∈ places x) (hd : d ∈ c.children) : d ∈ places x := by
  induction x using children_induction with
  | step a ih =>
    rw [mem_places_iff] at h ⊢
    rcases h with rfl | ⟨e, he, h⟩
    · exact Or.inr ⟨d, hd, mem_places_iff.mpr (Or.inl rfl)⟩
    · exact Or.inr ⟨e, he, ih e he h⟩

/-- **What is below a visited place is visited.** -/
theorem mem_walk_of_mem_children (h : c ∈ (top n).walk) (hd : d ∈ c.children) :
    d ∈ (top n).walk := by
  rw [walk_eq_places] at h ⊢
  exact mem_places_of_mem_children h hd

/-- A place and all places above it. -/
def lineage (c : Cursor) : List Cursor := c :: c.ancestors

theorem lineage_of_mem_children (h : d ∈ c.children) : lineage d = d :: lineage c := by
  rw [lineage, ancestors_of_parent (parent_of_mem_children h), lineage]

/-- What is above a place is above everything below it. -/
theorem lineage_suffix_of_mem_places (h : x ∈ places c) : lineage c <:+ lineage x := by
  induction c using children_induction with
  | step c ih =>
    rcases mem_places_iff.mp h with rfl | ⟨d, hd, h⟩
    · exact List.suffix_refl _
    · have hd' : lineage c <:+ lineage d := by
        rw [lineage_of_mem_children hd]
        exact List.suffix_cons _ _
      exact hd'.trans (ih d hd h)

theorem length_left_le_of_mem_row (h : e ∈ row up left ds) : left.length ≤ e.left.length := by
  induction ds generalizing left with
  | nil => exact absurd h List.not_mem_nil
  | cons d ds ih =>
    rw [row] at h
    rcases List.mem_cons.mp h with rfl | h
    · exact Nat.le_refl _
    · exact Nat.le_trans (Nat.le_succ _) (ih h)

/-- Siblings are told apart by how many there are before them. -/
theorem nodup_row (up : Option Cursor) (left ds : List Node) : (row up left ds).Nodup := by
  induction ds generalizing left with
  | nil => exact List.nodup_nil
  | cons d ds ih =>
    rw [row, List.nodup_cons]
    refine ⟨fun h => ?_, ih (d :: left)⟩
    exact absurd (length_left_le_of_mem_row h) (Nat.not_succ_le_self left.length)

theorem nodup_children (c : Cursor) : c.children.Nodup := nodup_row _ _ _

/-- A place is below one child only. -/
theorem eq_of_mem_places (hd : d ∈ c.children) (he : e ∈ c.children) (hxd : x ∈ places d)
    (hxe : x ∈ places e) : d = e := by
  have hlength : (lineage d).length = (lineage e).length := by
    rw [lineage_of_mem_children hd, lineage_of_mem_children he, List.length_cons, List.length_cons]
  have hsuffix : lineage d <:+ lineage e :=
    List.suffix_of_suffix_length_le (lineage_suffix_of_mem_places hxd)
      (lineage_suffix_of_mem_places hxe) (Nat.le_of_eq hlength)
  exact (List.cons.inj (hsuffix.eq_of_length hlength)).1

/-- Every place at and below a cursor is listed once. -/
theorem nodup_places (c : Cursor) : (places c).Nodup := by
  induction c using children_induction with
  | step c ih =>
    rw [places_eq, List.nodup_cons, List.nodup_flatMap]
    refine ⟨fun h => ?_, ih, ?_⟩
    · -- a place is not below itself: there would be more above it than there is
      obtain ⟨d, hd, hc⟩ := List.mem_flatMap.mp h
      have hle := (lineage_suffix_of_mem_places hc).length_le
      rw [lineage_of_mem_children hd, List.length_cons] at hle
      exact absurd hle (Nat.not_succ_le_self _)
    · refine (nodup_children c).imp_of_mem fun hd he hne => ?_
      exact fun x hxd hxe => hne (eq_of_mem_places hd he hxd hxe)

/-- **No place of a tree is visited twice.** -/
theorem nodup_walk (n : Node) : (top n).walk.Nodup := by
  rw [walk_eq_places]
  exact nodup_places (top n)

/-! ## 4. Moving about within a tree -/

theorem top_mem_walk (n : Node) : top n ∈ (top n).walk := by
  rw [walk_eq_places]
  exact mem_places_iff.mpr (Or.inl rfl)

/-- What is above a visited place is visited. -/
theorem mem_walk_of_parent (h : c ∈ (top n).walk) (hp : c.parent = some p) :
    p ∈ (top n).walk := by
  refine mem_walk_of_mem_ancestors h ?_
  rw [ancestors_of_parent hp]
  exact List.mem_cons_self

theorem mem_walk_of_mem_namedChildren (h : c ∈ (top n).walk) (hd : d ∈ c.namedChildren) :
    d ∈ (top n).walk :=
  mem_walk_of_mem_children h (List.mem_of_mem_filter hd)

theorem mem_walk_of_field? {field : String} (h : c ∈ (top n).walk) (hd : c.field? field = some d) :
    d ∈ (top n).walk :=
  mem_walk_of_mem_children h (List.mem_of_find?_eq_some hd)

/-- What a walk from a visited place visits is visited. -/
theorem mem_walk_of_mem_walk (h : c ∈ (top n).walk) (hd : d ∈ c.walk) : d ∈ (top n).walk := by
  rw [walk_eq_places c] at hd
  induction c using children_induction with
  | step c ih =>
    rcases mem_places_iff.mp hd with rfl | ⟨e, he, hd⟩
    · exact h
    · exact ih e he (mem_walk_of_mem_children h he) hd

end Cursor

namespace Node

variable {n m d : Node}

theorem self_mem_preorder (n : Node) : n ∈ n.preorder :=
  Cursor.node_mem_preorder (Cursor.top_mem_walk n)

/-- The children of a node of a tree are nodes of the tree. -/
theorem mem_preorder_of_mem_children (h : m ∈ n.preorder) (hd : d ∈ m.children) :
    d ∈ n.preorder := by
  obtain ⟨c, hc, rfl⟩ := Cursor.mem_preorder_iff.mp h
  rw [← Cursor.map_node_children] at hd
  obtain ⟨e, he, rfl⟩ := List.mem_map.mp hd
  exact Cursor.node_mem_preorder (Cursor.mem_walk_of_mem_children hc he)

theorem mem_preorder_of_mem_namedChildren (h : m ∈ n.preorder) (hd : d ∈ m.namedChildren) :
    d ∈ n.preorder :=
  mem_preorder_of_mem_children h (List.mem_of_mem_filter hd)

theorem mem_preorder_of_field? {field : String} (h : m ∈ n.preorder)
    (hd : m.field? field = some d) : d ∈ n.preorder :=
  mem_preorder_of_mem_children h (List.mem_of_find?_eq_some hd)

/-- The nodes of a part of a tree are nodes of the tree. -/
theorem mem_preorder_of_mem_preorder (h : m ∈ n.preorder) (hd : d ∈ m.preorder) :
    d ∈ n.preorder := by
  obtain ⟨c, hc, rfl⟩ := Cursor.mem_preorder_iff.mp h
  rw [← Cursor.map_node_walk] at hd
  obtain ⟨e, he, rfl⟩ := List.mem_map.mp hd
  exact Cursor.node_mem_preorder (Cursor.mem_walk_of_mem_walk hc he)

end Node

end Codemap.Syntax
