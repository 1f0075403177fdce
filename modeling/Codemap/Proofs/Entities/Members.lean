/-
# Decorators and the members after them

Decorators may stand among the members of a class body, and each applies to the first member after
it.  A body is read from the left, and the decorators that have been passed are kept until a member
comes: that one takes all of them, whatever kind of member it is (`membersAfter_group`).

So a row of children falls into groups, a member with the decorators and comments before it, and
what stands behind the last member (`BodyCut`); the members with their decorators are read group by
group (`membersAfter_row`).  No decorator is handed to two members, and to none but the first one
after it: without it, all other members would get what they get now (`getElem?_membersAfter_erase`).

Main statement: `decoratedMembers_cut`.  What it means for entities is `foldl_addMember_erase`: a
member that is no field may be left out together with its decorators, so the decorators of a method
do not turn into a column of the field after it.
-/
import Codemap.Entities.EcmaScript

namespace Codemap.Entities.EcmaScript

open Codemap.Syntax

/-! ## 1. Groups -/

/-- Whether a child of a class body is a member: all are but decorators and comments. -/
def isMember (c : Node) : Bool := c.kind != "decorator" && c.kind != "comment"

/-- The decorators that are read from a row of nodes, in their order. -/
def decoratorsIn (row : List Node) : List Decorator :=
  (row.filter fun c => c.kind == "decorator").filterMap decorator?

/-- A member of a class body, with what stands between it and the member before it. -/
structure MemberGroup where
  passed : List Node
  member : Node
  isMember_member : isMember member
  not_isMember : ∀ c ∈ passed, ¬ isMember c

namespace MemberGroup

/-- The children that a group is made of. -/
def row (g : MemberGroup) : List Node := g.passed ++ [g.member]

/-- The member of a group with the decorators that apply to it: those before it, then its own. -/
def decorated (g : MemberGroup) : Node × List Decorator :=
  (g.member, decoratorsIn g.passed ++ ownDecorators g.member)

end MemberGroup

/-- A row of children of a class body that is cut behind each member. -/
structure BodyCut where
  groups : List MemberGroup
  rest : List Node
  not_isMember : ∀ c ∈ rest, ¬ isMember c

/-- The row that is cut. -/
def BodyCut.row (cut : BodyCut) : List Node := cut.groups.flatMap MemberGroup.row ++ cut.rest

/-- Every row can be cut behind its members. -/
theorem exists_cut (row : List Node) : ∃ cut : BodyCut, cut.row = row := by
  induction row with
  | nil => exact ⟨⟨[], [], by simp⟩, rfl⟩
  | cons c row ih =>
    obtain ⟨⟨groups, rest, hrest⟩, rfl⟩ := ih
    by_cases hc : isMember c
    · exact ⟨⟨⟨[], c, hc, by simp⟩ :: groups, rest, hrest⟩, rfl⟩
    · -- what is no member stands before the first one, if there is any
      cases groups with
      | nil => exact ⟨⟨[], c :: rest, by simpa [hc] using hrest⟩, rfl⟩
      | cons g groups =>
        have hpassed : ∀ d ∈ c :: g.passed, ¬ isMember d := by simpa [hc] using g.not_isMember
        let wider : MemberGroup := ⟨c :: g.passed, g.member, g.isMember_member, hpassed⟩
        exact ⟨⟨wider :: groups, rest, hrest⟩, rfl⟩

/-! ## 2. Decorators of a row -/

variable {c : Node} {row passed before after : List Node} {pending : List Decorator}
variable {groups : List MemberGroup}

theorem isMember_iff : isMember c ↔ c.kind ≠ "decorator" ∧ c.kind ≠ "comment" := by
  simp [isMember]

theorem decoratorsIn_append (xs ys : List Node) :
    decoratorsIn (xs ++ ys) = decoratorsIn xs ++ decoratorsIn ys := by
  simp [decoratorsIn]

/-- A member is no decorator itself. -/
theorem decoratorsIn_of_isMember (hc : isMember c) : decoratorsIn [c] = [] := by
  simp [decoratorsIn, (isMember_iff.mp hc).1]

theorem MemberGroup.decoratorsIn_row (g : MemberGroup) :
    decoratorsIn g.row = decoratorsIn g.passed := by
  rw [row, decoratorsIn_append, decoratorsIn_of_isMember g.isMember_member, List.append_nil]

/-- The decorators of a row are those before its members and those behind the last one. -/
theorem BodyCut.decoratorsIn_row (cut : BodyCut) :
    decoratorsIn cut.row =
      cut.groups.flatMap (fun g => decoratorsIn g.passed) ++ decoratorsIn cut.rest := by
  rw [row, decoratorsIn_append]
  refine congrArg (· ++ _) ?_
  induction cut.groups with
  | nil => rfl
  | cons g groups ih =>
    rw [List.flatMap_cons, List.flatMap_cons, decoratorsIn_append, g.decoratorsIn_row, ih]

/-! ## 3. How a row is read -/

/-- A member takes what is pending, and leaves nothing of it. -/
theorem membersAfter_cons_of_isMember (hc : isMember c) :
    membersAfter pending (c :: row) = (c, pending ++ ownDecorators c) :: membersAfter [] row := by
  obtain ⟨hdecorator, hcomment⟩ := isMember_iff.mp hc
  simp [membersAfter, hdecorator, hcomment]

/-- Of what is no member, the decorators become pending. -/
theorem membersAfter_cons_of_not_isMember (hc : ¬ isMember c) :
    membersAfter pending (c :: row) = membersAfter (pending ++ decoratorsIn [c]) row := by
  by_cases hdecorator : c.kind = "decorator"
  · have hone : decoratorsIn [c] = (decorator? c).toList := by
      cases h : decorator? c <;> simp [decoratorsIn, hdecorator, h]
    simp [membersAfter, hdecorator, hone]
  · have hcomment : c.kind = "comment" := by simpa [isMember_iff, hdecorator] using hc
    simp [membersAfter, hcomment, decoratorsIn]

theorem membersAfter_append (h : ∀ c ∈ passed, ¬ isMember c) :
    membersAfter pending (passed ++ row) = membersAfter (pending ++ decoratorsIn passed) row := by
  induction passed generalizing pending with
  | nil => simp [decoratorsIn]
  | cons c passed ih =>
    obtain ⟨hc, hpassed⟩ := List.forall_mem_cons.mp h
    rw [List.cons_append, membersAfter_cons_of_not_isMember hc, ih hpassed, List.append_assoc,
      ← decoratorsIn_append, List.singleton_append]

/-- **A group is read as its member with its decorators**, and nothing of it is left for the next
one. -/
theorem membersAfter_group (g : MemberGroup) (row : List Node) :
    membersAfter [] (g.row ++ row) = g.decorated :: membersAfter [] row := by
  rw [MemberGroup.row, List.append_assoc, List.singleton_append, membersAfter_append g.not_isMember,
    List.nil_append, membersAfter_cons_of_isMember g.isMember_member, MemberGroup.decorated]

theorem membersAfter_groups (groups : List MemberGroup) (row : List Node) :
    membersAfter [] (groups.flatMap MemberGroup.row ++ row) =
      groups.map MemberGroup.decorated ++ membersAfter [] row := by
  induction groups with
  | nil => rfl
  | cons g groups ih =>
    rw [List.flatMap_cons, List.append_assoc, membersAfter_group, ih, List.map_cons,
      List.cons_append]

/-- **A row is read group by group**; what stands behind its last member is dropped. -/
theorem membersAfter_row (cut : BodyCut) :
    membersAfter [] cut.row = cut.groups.map MemberGroup.decorated := by
  have hrest : membersAfter [] (cut.rest ++ []) = [] := membersAfter_append cut.not_isMember
  rw [List.append_nil] at hrest
  rw [BodyCut.row, membersAfter_groups, hrest, List.append_nil]

/-- All members are read, in their order. -/
theorem map_fst_membersAfter (pending : List Decorator) (row : List Node) :
    (membersAfter pending row).map (·.1) = row.filter isMember := by
  induction row generalizing pending with
  | nil => rfl
  | cons c row ih =>
    by_cases hc : isMember c
    · rw [membersAfter_cons_of_isMember hc, List.map_cons, ih, List.filter_cons_of_pos hc]
    · rw [membersAfter_cons_of_not_isMember hc, ih, List.filter_cons_of_neg hc]

/-! ## 4. What a decorator changes -/

/-- What is pending is for the first member only. -/
theorem tail_membersAfter (pending pending' : List Decorator) (row : List Node) :
    (membersAfter pending row).tail = (membersAfter pending' row).tail := by
  induction row generalizing pending pending' with
  | nil => rfl
  | cons c row ih =>
    by_cases hc : isMember c
    · rw [membersAfter_cons_of_isMember hc, membersAfter_cons_of_isMember hc, List.tail_cons,
        List.tail_cons]
    · rw [membersAfter_cons_of_not_isMember hc, membersAfter_cons_of_not_isMember hc]
      exact ih _ _

/-- **A decorator is for the first member after it only**: all others get the same without it. -/
theorem getElem?_membersAfter_erase (hc : ¬ isMember c) {i : Nat}
    (hi : i ≠ (before.filter isMember).length) :
    (membersAfter pending (before ++ after))[i]? =
      (membersAfter pending (before ++ c :: after))[i]? := by
  induction before generalizing pending i with
  | nil =>
    obtain ⟨j, rfl⟩ := Nat.exists_eq_succ_of_ne_zero hi
    rw [List.nil_append, List.nil_append, membersAfter_cons_of_not_isMember hc,
      ← List.getElem?_tail, ← List.getElem?_tail, tail_membersAfter]
  | cons b before ih =>
    rw [List.cons_append, List.cons_append]
    by_cases hb : isMember b
    · rw [membersAfter_cons_of_isMember hb, membersAfter_cons_of_isMember hb]
      cases i with
      | zero => rfl
      | succ j =>
        rw [List.filter_cons_of_pos hb, List.length_cons, Nat.succ_ne_succ_iff] at hi
        exact ih hi
    · rw [List.filter_cons_of_neg hb] at hi
      rw [membersAfter_cons_of_not_isMember hb, membersAfter_cons_of_not_isMember hb]
      exact ih hi

/-! ## 5. Class bodies -/

/-- **Each member of a class body gets the decorators between the member before and itself, then
its own.**  The children of the body can be cut behind each member, and however they are, the
members are read group by group; the decorators of the body are those handed on so, each once, and
those behind the last member.  All that is neither a decorator nor a comment is a member, in its
order.  Without a decorator, every member but the first one after it gets what it gets with it. -/
theorem decoratedMembers_cut (body : Node) :
    (∃ cut : BodyCut, cut.row = body.namedChildren) ∧
    (∀ cut : BodyCut, cut.row = body.namedChildren →
      decoratedMembers body =
        cut.groups.map (fun g => (g.member, decoratorsIn g.passed ++ ownDecorators g.member)) ∧
      decoratorsIn body.namedChildren =
        cut.groups.flatMap (fun g => decoratorsIn g.passed) ++ decoratorsIn cut.rest) ∧
    (decoratedMembers body).map (·.1) = body.namedChildren.filter isMember ∧
    ∀ (body' : Node) (before : List Node) (c : Node) (after : List Node), c.kind = "decorator" →
      body.namedChildren = before ++ c :: after → body'.namedChildren = before ++ after →
      ∀ i ≠ (before.filter isMember).length,
        (decoratedMembers body')[i]? = (decoratedMembers body)[i]? := by
  refine ⟨exists_cut _, fun cut hcut => ?_, map_fst_membersAfter [] _, ?_⟩
  · rw [decoratedMembers, ← hcut]
    exact ⟨membersAfter_row cut, cut.decoratorsIn_row⟩
  · intro body' before c after hc hbody hbody' i hi
    have hmember : ¬ isMember c := by simp [isMember, hc]
    rw [decoratedMembers, decoratedMembers, hbody, hbody']
    exact getElem?_membersAfter_erase hmember hi

/-- A named node of some kind. -/
def plainNode (kind text : String) (children : List Node) : Node :=
  ⟨kind, true, none, ⟨⟨0, 0⟩, ⟨0, 0⟩⟩, text, children⟩

/-- A decorator without arguments. -/
def plainDecorator (name : String) : Node :=
  plainNode "decorator" ("@" ++ name) [plainNode "identifier" name []]

/-- A comment, and a method. -/
def plainMethod : List Node := [plainNode "comment" "" [], plainNode "method_definition" "" []]

/-- A field with a decorator of its own. -/
def columnField : Node := plainNode "public_field_definition" "" [plainDecorator "Column"]

/-- A decorator before a method, and a field after it. -/
def guardedBody : Node :=
  plainNode "class_body" "" (plainDecorator "Guard" :: (plainMethod ++ [columnField]))

/-- The same body without the decorator before the method. -/
def unguardedBody : Node := plainNode "class_body" "" (plainMethod ++ [columnField])

/-- The groups of the body: that of the method and that of the field. -/
def guardedCut : BodyCut where
  groups :=
    [⟨[plainDecorator "Guard", plainNode "comment" "" []], plainNode "method_definition" "" [],
      rfl, by simp [isMember, plainDecorator, plainNode]⟩,
    ⟨[], columnField, rfl, by simp⟩]
  rest := []
  not_isMember := by simp

/-- The method takes the decorator before it, so the field has only its own. -/
theorem decoratedMembers_cut_guarded :
    guardedCut.row = guardedBody.namedChildren ∧
      decoratedMembers guardedBody =
        guardedCut.groups.map
          (fun g => (g.member, decoratorsIn g.passed ++ ownDecorators g.member)) ∧
      (decoratedMembers guardedBody).map (fun m => (m.1.kind, m.2.map (·.name))) =
        [("method_definition", ["Guard"]), ("public_field_definition", ["Column"])] ∧
      (plainDecorator "Guard").kind = "decorator" ∧
      guardedBody.namedChildren = [] ++ plainDecorator "Guard" :: unguardedBody.namedChildren ∧
      (decoratedMembers unguardedBody)[1]? = (decoratedMembers guardedBody)[1]? := by
  obtain ⟨-, hgroups, -, hframe⟩ := decoratedMembers_cut guardedBody
  have hsame : (decoratedMembers unguardedBody)[1]? = (decoratedMembers guardedBody)[1]? :=
    hframe unguardedBody [] (plainDecorator "Guard") unguardedBody.namedChildren rfl rfl rfl 1
      (by decide)
  exact ⟨rfl, (hgroups guardedCut rfl).1, by decide +kernel, rfl, rfl, hsame⟩

/-! ## 6. Fields -/

/-- Members that are no fields add nothing to an entity. -/
theorem addMember_of_kind_ne {draft : EntityDraft} {m : Node × List Decorator}
    (hpublic : m.1.kind ≠ "public_field_definition") (hfield : m.1.kind ≠ "field_definition") :
    addMember draft m = draft := by
  simp [addMember, hpublic, hfield]

/-- **A member that is no field may be left out together with its decorators**: none of them turns
into a column, or a relationship, of a field after it. -/
theorem foldl_addMember_erase {body body' : Node} {g : MemberGroup}
    (hpublic : g.member.kind ≠ "public_field_definition")
    (hfield : g.member.kind ≠ "field_definition")
    (hbody : body.namedChildren = groups.flatMap MemberGroup.row ++ (g.row ++ after))
    (hbody' : body'.namedChildren = groups.flatMap MemberGroup.row ++ after) (draft : EntityDraft) :
    (decoratedMembers body).foldl addMember draft =
      (decoratedMembers body').foldl addMember draft := by
  have hnothing (d : EntityDraft) : addMember d g.decorated = d :=
    addMember_of_kind_ne hpublic hfield
  rw [decoratedMembers, decoratedMembers, hbody, hbody', membersAfter_groups, membersAfter_groups,
    membersAfter_group, List.foldl_append, List.foldl_append, List.foldl_cons, hnothing]

end Codemap.Entities.EcmaScript
