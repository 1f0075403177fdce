/-
# A walk ends by itself

The list of a walk is cut off where it has as many places as its tree has nodes.  It is never cut
off before its end: a run of the loop, which goes on until there is no step to take (`Run`), passes
through the places of the walk and through no others (`run_iff`).

So a walk that starts somewhere in a tree visits the places at and below its start, each once and in
the order of the recursion.  That its start may have siblings, and ancestors with siblings of their
own, makes no difference: those are not below it (`mem_places_iff_of_mem_places`).

Main statement: `walk_traverses`.
-/
import Codemap.Proofs.Syntax.Walk

namespace Codemap.Syntax.Cursor

variable {c d x : Cursor} {n : Node} {depth fuel : Nat} {visited : List Cursor}

/-! ## 1. Runs of the loop -/

/-- From `c`, which lies `depth` levels below the start, the loop passes through these places and
then ends. -/
inductive Run : Nat → Cursor → List Cursor → Prop
  | last {depth : Nat} {c : Cursor} (h : step? depth c = none) : Run depth c [c]
  | step {depth k : Nat} {c d : Cursor} {visited : List Cursor} (h : step? depth c = some (k, d))
      (hd : Run k d visited) : Run depth c (c :: visited)

/-- There is one run from a place. -/
theorem Run.unique {others : List Cursor} (h : Run depth c visited) (h' : Run depth c others) :
    visited = others := by
  induction h generalizing others with
  | last hnone =>
    cases h' with
    | last => rfl
    | step hsome => exact absurd (hnone.symm.trans hsome) (by simp)
  | step hsome _ ih =>
    cases h' with
    | last hnone => exact absurd (hnone.symm.trans hsome) (by simp)
    | step hsome' hd' =>
      obtain ⟨rfl, rfl⟩ := Prod.mk.inj (Option.some.inj (hsome.symm.trans hsome'))
      rw [ih hd']

theorem length_walkFrom_le (fuel depth : Nat) (c : Cursor) :
    (walkFrom fuel depth c).length ≤ fuel := by
  induction fuel generalizing depth c with
  | zero => simp [walkFrom]
  | succ fuel ih =>
    rw [walkFrom]
    cases step? depth c with
    | none => simp
    | some next => simpa using ih next.1 next.2

/-- A list that is shorter than it might have been is that of a whole run. -/
theorem run_walkFrom (h : (walkFrom fuel depth c).length < fuel) :
    Run depth c (walkFrom fuel depth c) := by
  induction fuel generalizing depth c with
  | zero => exact absurd h (Nat.not_lt_zero _)
  | succ fuel ih =>
    rw [walkFrom] at h ⊢
    cases hstep : step? depth c with
    | none => exact .last hstep
    | some next =>
      rw [hstep] at h
      exact .step hstep (ih (Nat.lt_of_succ_lt_succ h))

/-- With more fuel than the tree has nodes, a walk visits the same places. -/
theorem walkFrom_size_add (c : Cursor) (extra : Nat) :
    walkFrom (c.node.size + extra) 0 c = c.walk := by
  rw [walk_eq_places, walkFrom_add, after, climb?, List.append_nil]

/-- **The run from a place passes through the places of the walk.** -/
theorem run_iff : Run 0 c visited ↔ visited = c.walk := by
  have hlength : (walkFrom (c.node.size + 1) 0 c).length < c.node.size + 1 := by
    rw [walkFrom_size_add]
    exact Nat.lt_succ_of_le (length_walkFrom_le _ _ _)
  have hrun := run_walkFrom hlength
  rw [walkFrom_size_add] at hrun
  constructor
  · intro h
    exact h.unique hrun
  · rintro rfl
    exact hrun

/-! ## 2. The part of a tree below a place -/

/-- In a tree, what is below a place is what has it above. -/
theorem Placed.mem_places_of_mem_lineage (hx : x.Placed) (h : c ∈ lineage x) : x ∈ places c := by
  induction habove : x.ancestors generalizing x with
  | nil =>
    rw [lineage, habove, List.mem_singleton] at h
    exact mem_places_iff.mpr (Or.inl h.symm)
  | cons p above ih =>
    obtain ⟨m, left, right, up⟩ := x
    cases up with
    | none => simp at habove
    | some q =>
      rw [ancestors_mk_some] at habove
      obtain ⟨rfl, hrest⟩ := List.cons.inj habove
      rcases List.mem_cons.mp h with rfl | h
      · exact mem_places_iff.mpr (Or.inl rfl)
      · rw [ancestors_mk_some] at h
        have hq : q ∈ places c := ih (hx.parent rfl) h hrest
        exact mem_places_of_mem_children hq (hx.mem_children rfl)

/-- **The places below a place of a tree are those of the tree that have it above.** -/
theorem mem_places_iff_of_mem_places (hc : c ∈ places (top n)) :
    x ∈ places c ↔ x ∈ places (top n) ∧ c ∈ lineage x := by
  rw [← walk_eq_places, ← walk_eq_places] at *
  constructor
  · intro hx
    refine ⟨mem_walk_of_mem_walk hc hx, ?_⟩
    rw [walk_eq_places] at hx
    exact (lineage_suffix_of_mem_places hx).subset List.mem_cons_self
  · rintro ⟨hx, habove⟩
    rw [walk_eq_places]
    exact (placed_of_mem_walk hx).mem_places_of_mem_lineage habove

/-- The places below a place stand together. -/
theorem places_infix_of_mem_places (h : d ∈ places c) : places d <:+: places c := by
  induction c using children_induction with
  | step c ih =>
    rcases mem_places_iff.mp h with rfl | ⟨e, he, h⟩
    · exact List.infix_rfl
    · have hrow : places e <:+: c.children.flatMap places := by
        obtain ⟨before, behind, hsplit⟩ := List.append_of_mem he
        exact ⟨before.flatMap places, behind.flatMap places, by simp [hsplit]⟩
      rw [places_eq c]
      exact (ih e he h).trans (hrow.trans (List.suffix_cons c _).isInfix)

/-! ## 3. What is promised -/

/-- What is visited, starting from a place of a tree. -/
structure Traverses (n : Node) (c : Cursor) (visited : List Cursor) : Prop where
  /-- The loop ends, and these are the places that it passes through. -/
  run_iff : ∀ passed, Run 0 c passed ↔ passed = visited
  /-- No place is visited twice. -/
  nodup : visited.Nodup
  /-- The start and the places below it are visited, and no other place of the tree. -/
  mem_iff : ∀ x, x ∈ visited ↔ x ∈ places (top n) ∧ c ∈ lineage x
  /-- Places are visited before what is below them, and children in their order. -/
  eq_places : visited = places c
  /-- The nodes are those of the tree at the start, listed in the same way. -/
  map_node : visited.map (·.node) = c.node.preorder
  /-- They stand together among the places of the whole tree. -/
  contiguous : visited <:+: places (top n)

/-- **A walk from any place of a tree visits what is below it, each place once, and ends there.** -/
theorem walk_traverses (hc : c ∈ places (top n)) : Traverses n c c.walk where
  run_iff _ := run_iff
  nodup := by
    rw [walk_eq_places]
    exact nodup_places c
  mem_iff x := by
    rw [walk_eq_places]
    exact mem_places_iff_of_mem_places hc
  eq_places := walk_eq_places c
  map_node := map_node_walk c
  contiguous := by
    rw [walk_eq_places]
    exact places_infix_of_mem_places hc

/-- A named node of some kind. -/
def bare (kind : String) (children : List Node) : Node :=
  ⟨kind, true, none, ⟨⟨0, 0⟩, ⟨0, 0⟩⟩, "", children⟩

/-- A call with two arguments. -/
def bareCall : Node := bare "call" [bare "name" [], bare "arguments" [bare "a" [], bare "b" []]]

/-- A block with a call between two other nodes. -/
def bareBlock : Node := bare "block" [bare "return" [], bareCall, bare "comment" []]

/-- The place of the call in the block. -/
def bareCallPlace : Cursor :=
  ⟨bareCall, [bare "return" []], [bare "comment" []], some (top bareBlock)⟩

/-- The call has siblings on either side, and the walk ends with its last argument. -/
theorem walk_traverses_call :
    bareCallPlace ∈ places (top bareBlock) ∧
      Traverses bareBlock bareCallPlace bareCallPlace.walk ∧
      bareCallPlace.walk.map (·.kind) = ["call", "name", "arguments", "a", "b"] := by
  have hc : bareCallPlace ∈ places (top bareBlock) := by
    refine mem_places_of_mem_children (mem_places_iff.mpr (Or.inl rfl)) ?_
    exact List.mem_cons_of_mem _ List.mem_cons_self
  exact ⟨hc, walk_traverses hc, rfl⟩

end Codemap.Syntax.Cursor
