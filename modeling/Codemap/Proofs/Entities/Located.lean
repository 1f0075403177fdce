/-
# Facts and drafts of entities are rooted in their file

A draft of an entity gets its location when it is begun: from the node of a class, of the
specification of a structure, of the call that defines a model, or of the construction of a schema.
What is added to it later never moves it.  So drafts stand at nodes of the tree, as all facts do.

Main statement: `rooted_of_mem_locations`.  Where the nodes of a tree start no later than they end,
the same is true of every location that is read off it, in lines that are counted from one.
-/
import Codemap.Entities.Detector
import Codemap.Proofs.Facts.Located

namespace Codemap

open Codemap.Syntax

/-! ## 1. What is added to a draft does not move it -/

namespace EntityDraft

variable {d : EntityDraft}

@[simp] theorem location_bare (name : String) (l : Location) : (bare name l).location = l := rfl

@[simp] theorem location_mark (d : EntityDraft) (e : Evidence) :
    (d.mark e).location = d.location := by
  rw [mark]
  split <;> rfl

@[simp] theorem location_markIf (d : EntityDraft) (found : Bool) (e : Evidence) :
    (d.markIf found e).location = d.location := by
  cases found
  · rfl
  · exact location_mark d e

@[simp] theorem location_withTable (d : EntityDraft) (table : String) :
    (d.withTable table).location = d.location := by
  rw [withTable]
  split
  · rfl
  · exact location_mark _ _

@[simp] theorem location_addField (d : EntityDraft) (f : EntityField) :
    (d.addField f).location = d.location := rfl

@[simp] theorem location_addRelationship (d : EntityDraft) (r : Relationship) :
    (d.addRelationship r).location = d.location := rfl

/-- Steps that do not move a draft do not move it together. -/
theorem location_foldl {α : Type} {f : EntityDraft → α → EntityDraft}
    (hf : ∀ (d : EntityDraft) (a : α), (f d a).location = d.location) (xs : List α)
    (d : EntityDraft) : (xs.foldl f d).location = d.location := by
  induction xs generalizing d with
  | nil => rfl
  | cons x xs ih => rw [List.foldl_cons, ih, hf]

end EntityDraft

namespace Entities

open EntityDraft

variable {path : String} {tree n : Node} {d : EntityDraft}

/-! ## 2. Java -/

namespace Java

@[simp] theorem location_addMember (isEntity : Bool) (d : EntityDraft) (n : Node) :
    (addMember isEntity d n).location = d.location := by
  rw [addMember]
  split
  · rfl
  · split
    · exact location_foldl (fun d _ => location_addRelationship d _) _ d
    · dsimp only
      split
      · rw [location_foldl fun d _ => location_addField d _, location_markIf]
      · rfl

@[simp] theorem location_addTable (d : EntityDraft) (m : Mark) :
    (addTable d m).location = d.location := by
  rw [addTable]
  split
  · simp
  · rfl

theorem location_classDraft (h : classDraft? path n = some d) :
    d.location = .ofSpan path n.span := by
  simp only [classDraft?, Option.bind_eq_bind, Option.bind_eq_some_iff] at h
  obtain ⟨name, -, h⟩ := h
  split at h
  · exact absurd h (by simp)
  · obtain ⟨body, -, h⟩ := Option.bind_eq_some_iff.mp h
    obtain rfl := Option.some.inj h
    rw [location_foldl (location_addMember _), location_foldl location_addTable, location_markIf,
      location_bare]

theorem standsIn_of_mem_drafts (h : d ∈ drafts path tree) : d.location.StandsIn path tree := by
  obtain ⟨n, hn, h⟩ := List.mem_filterMap.mp h
  exact ⟨n, List.mem_of_mem_filter hn, location_classDraft h⟩

end Java

/-! ## 3. Go -/

namespace Go

@[simp] theorem location_addEmbedded (d : EntityDraft) (type : String) :
    (addEmbedded d type).location = d.location := by
  rw [addEmbedded]
  split
  · rw [location_foldl location_addField, location_mark]
  · rfl

@[simp] theorem location_addField (structures : List String) (d : EntityDraft) (n : Node) :
    (addField structures d n).location = d.location := by
  rw [addField]
  split
  · rfl
  · split
    · rfl
    · dsimp only
      split
      · rfl
      · split
        · rw [location_addEmbedded, location_markIf]
        · split
          · rw [location_foldl fun d _ => location_addRelationship d _, location_markIf]
          · rw [location_foldl fun d _ => EntityDraft.location_addField d _, location_markIf]

theorem location_structureDraft {structures : List String}
    (h : structureDraft? path structures n = some d) : d.location = .ofSpan path n.span := by
  simp only [structureDraft?, Option.bind_eq_bind, Option.bind_eq_some_iff] at h
  obtain ⟨name, -, type, -, list, -, h⟩ := h
  obtain rfl := Option.some.inj h
  exact location_foldl (location_addField structures) _ _

theorem standsIn_of_mem_drafts (h : d ∈ drafts path tree) : d.location.StandsIn path tree := by
  obtain ⟨d, hd, rfl⟩ := List.mem_map.mp h
  obtain ⟨n, hn, h⟩ := List.mem_filterMap.mp hd
  refine ⟨n, List.mem_of_mem_filter hn, ?_⟩
  split
  · rw [location_withTable, location_structureDraft h]
  · exact location_structureDraft h

end Go

/-! ## 4. Python -/

namespace Python

@[simp] theorem location_addBare (d : EntityDraft) (a : Assigned) :
    (addBare d a).location = d.location := by
  rw [addBare]
  split
  · rfl
  · dsimp only
    split
    · simp
    · rfl

@[simp] theorem location_addFieldCall (d : EntityDraft) (a : Assigned) (i : Invocation) :
    (addFieldCall d a i).location = d.location := by
  rw [addFieldCall]
  split
  · split <;> simp
  · simp

@[simp] theorem location_addCall (foreignTables : List String) (d : EntityDraft) (a : Assigned)
    (i : Invocation) : (addCall foreignTables d a i).location = d.location := by
  rw [addCall]
  split
  · split <;> simp
  · split <;> simp
  · simp
  · simp
  · simp
  · split <;> simp

@[simp] theorem location_addAssigned (foreignTables : List String) (d : EntityDraft)
    (a : Assigned) : (addAssigned foreignTables d a).location = d.location := by
  rw [addAssigned]
  split
  · split <;> simp
  · split
    · rfl
    · split <;> simp

theorem location_classDraft (h : classDraft? path n = some d) :
    d.location = .ofSpan path n.span := by
  simp only [classDraft?, Option.bind_eq_bind, Option.bind_eq_some_iff] at h
  obtain ⟨name, -, body, -, h⟩ := h
  split at h
  · exact absurd h (by simp)
  · obtain rfl := Option.some.inj h
    rw [location_foldl (location_addAssigned _)]
    split <;> simp

theorem location_withImplicitKey (d : EntityDraft) :
    (withImplicitKey d).location = d.location := by
  rw [withImplicitKey]
  dsimp only
  split <;> rfl

theorem standsIn_of_mem_drafts (h : d ∈ drafts path tree) : d.location.StandsIn path tree := by
  obtain ⟨d, hd, rfl⟩ := List.mem_map.mp h
  obtain ⟨n, hn, h⟩ := List.mem_filterMap.mp hd
  refine ⟨n, List.mem_of_mem_filter hn, ?_⟩
  rw [location_withImplicitKey, location_classDraft h]

end Python

/-! ## 5. ECMAScript -/

namespace EcmaScript

variable {ds ds' : List EntityDraft}

@[simp] theorem location_addMember (d : EntityDraft) (m : Node × List Decorator) :
    (addMember d m).location = d.location := by
  rw [addMember]
  split
  · split
    · rfl
    · split
      · simp
      · rfl
      · split <;> simp
  · rfl

@[simp] theorem location_addMarker (d : EntityDraft) (m : Decorator) :
    (addMarker d m).location = d.location := by
  rw [addMarker]
  split
  · have hframed : (if m.name == "Table" then
        { d.mark .entityMarker with framework := some .sequelizeTypescript }
        else d.mark .entityMarker).location = d.location := by
      split <;> simp
    dsimp only
    split
    · rw [location_withTable, hframed]
    · exact hframed
  · rfl

theorem location_classDraft {c : Cursor} (h : classDraft? path c = some d) :
    d.location = .ofSpan path c.node.span := by
  obtain ⟨name, -, rfl⟩ := Option.map_eq_some_iff.mp h
  have hmarked := location_foldl location_addMarker (classDecorators c)
    (.bare name (.ofSpan path c.node.span))
  dsimp only
  split
  · rw [location_foldl location_addMember, location_markIf, hmarked, location_bare]
  · rw [location_markIf, hmarked, location_bare]

@[simp] theorem location_withAttributes (d : EntityDraft) (arguments : List Node) :
    (withAttributes d arguments).location = d.location := by
  have hstep : ∀ (d : EntityDraft) (f : EntityField),
      (if d.hasField f.name then d else d.addField f).location = d.location := by
    intro d f
    split <;> simp
  rw [withAttributes]
  dsimp only
  split
  · rw [location_withTable, location_foldl hstep, location_markIf]
  · rw [location_foldl hstep, location_markIf]

/-- All drafts of a list stand at nodes of a tree. -/
abbrev AllStandIn (ds : List EntityDraft) (path : String) (tree : Node) : Prop :=
  ∀ d ∈ ds, d.location.StandsIn path tree

theorem allStandIn_change {f : EntityDraft → EntityDraft}
    (hf : ∀ d : EntityDraft, (f d).location = d.location) (name : String)
    (h : AllStandIn ds path tree) : AllStandIn (change name f ds) path tree := by
  induction ds with
  | nil => exact h
  | cons d ds ih =>
    obtain ⟨hd, hds⟩ := List.forall_mem_cons.mp h
    rw [change]
    split
    · exact List.forall_mem_cons.mpr ⟨hf d ▸ hd, hds⟩
    · exact List.forall_mem_cons.mpr ⟨hd, ih hds⟩

theorem allStandIn_afterMemberCall {call function : Node} {method : String}
    (hcall : call ∈ tree.preorder) (h : AllStandIn ds path tree)
    (heq : afterMemberCall? path ds call function method = some ds') :
    AllStandIn ds' path tree := by
  unfold afterMemberCall? at heq
  dsimp only at heq
  split at heq
  · obtain rfl := Option.some.inj heq
    exact allStandIn_change (fun d => location_withAttributes d _) _ h
  · split at heq
    · split at heq
      · -- a model that is defined here stands where the call does
        obtain rfl := Option.some.inj heq
        refine List.forall_mem_append.mpr ⟨h, List.forall_mem_singleton.mpr ⟨call, hcall, ?_⟩⟩
        simp
      · exact Option.some.inj heq ▸ h
    · exact Option.some.inj heq ▸ h
  · obtain ⟨kind, -, rfl⟩ := Option.map_eq_some_iff.mp heq
    split
    · exact allStandIn_change (fun d => d.location_addRelationship _) _ h
    · exact h

theorem allStandIn_afterCall {s : Progress} {call : Node} (hcall : call ∈ tree.preorder)
    (h : AllStandIn s.drafts path tree) : AllStandIn (afterCall path s call).drafts path tree := by
  rw [afterCall]
  split
  · exact h
  · dsimp only
    split
    next ds hds =>
      split at hds
      · exact allStandIn_afterMemberCall hcall h hds
      · exact absurd hds (by simp)
    · split
      · split
        · exact h
        · exact h
      · exact h

@[simp] theorem location_addSchemaMember (d : EntityDraft) (m : String × Node) :
    (addSchemaMember d m).location = d.location := by
  rw [addSchemaMember]
  split
  · split <;> simp
  · split
    · split <;> simp
    · simp
  · simp

theorem location_schemaDraft (path : String) (registered : List (String × String)) (name : String)
    (n : Node) : (schemaDraft path registered name n).location = .ofSpan path n.span := by
  rw [schemaDraft]
  dsimp only
  split
  · rw [location_markIf, location_foldl location_addSchemaMember, location_addField,
      location_markIf, location_bare]
  · rw [location_markIf, location_bare]

/-- The construction of a schema is part of what declares it. -/
theorem mem_preorder_of_schema {name : String} {construction : Node} (hn : n ∈ tree.preorder)
    (h : schema? n = some (name, construction)) : construction ∈ tree.preorder := by
  simp only [schema?, Option.bind_eq_bind] at h
  split at h
  · exact absurd h (by simp)
  · obtain ⟨name, -, h⟩ := Option.bind_eq_some_iff.mp h
    obtain ⟨value, hvalue, h⟩ := Option.bind_eq_some_iff.mp h
    split at h
    · exact absurd h (by simp)
    · obtain ⟨constructor, -, h⟩ := Option.bind_eq_some_iff.mp h
      split at h
      · obtain ⟨-, rfl⟩ := Prod.mk.inj (Option.some.inj h)
        exact Node.mem_preorder_of_field? hn hvalue
      · exact absurd h.symm (Option.some_ne_none _)

theorem standsIn_of_mem_drafts (h : d ∈ drafts path tree) : d.location.StandsIn path tree := by
  rw [drafts] at h
  rcases List.mem_append.mp h with h | h
  · have hclasses : AllStandIn ((Cursor.top tree).walk.filterMap fun c =>
        if classKinds.contains c.kind then classDraft? path c else none) path tree := by
      intro d hd
      obtain ⟨c, hc, hd⟩ := List.mem_filterMap.mp hd
      split at hd
      · exact location_classDraft hd ▸ standsIn_of_mem_walk hc
      · exact absurd hd.symm (Option.some_ne_none d)
    exact List.foldlRecOn (motive := fun s : Progress => AllStandIn s.drafts path tree) _ _ hclasses
      (fun s hs call hcall => allStandIn_afterCall (List.mem_of_mem_filter hcall) hs) d h
  · obtain ⟨⟨name, construction⟩, hs, rfl⟩ := List.mem_map.mp h
    obtain ⟨n, hn, hs⟩ := List.mem_filterMap.mp hs
    exact ⟨construction, mem_preorder_of_schema hn hs, location_schemaDraft _ _ _ _⟩

end EcmaScript

/-- **The drafts of a file stand at nodes of its tree.** -/
theorem standsIn_of_mem_drafts {file : ParsedFile} (h : d ∈ drafts file) :
    d.location.StandsIn file.path file.tree := by
  rw [drafts] at h
  split at h
  · exact EcmaScript.standsIn_of_mem_drafts h
  · exact EcmaScript.standsIn_of_mem_drafts h
  · exact EcmaScript.standsIn_of_mem_drafts h
  · exact Python.standsIn_of_mem_drafts h
  · exact Java.standsIn_of_mem_drafts h
  · exact Go.standsIn_of_mem_drafts h

end Entities

/-! ## 6. Rooted locations -/

/-- A location is of the file at `path`, its lines are counted from one, and it does not stop before
it starts. -/
structure Location.Rooted (l : Location) (path : String) : Prop where
  file : l.file = path
  one_le_startLine : 1 ≤ l.startLine
  startLine_le_endLine : l.startLine ≤ l.endLine
  start_le_stop : (⟨l.startLine, l.startColumn⟩ : Position) ≤ ⟨l.endLine, l.endColumn⟩

/-- The locations of all that is read off a parsed file: of the facts about it, and of the drafts of
entities. -/
def ParsedFile.locations (file : ParsedFile) : List Location :=
  (FileFacts.ofTree file).locations ++ (Entities.drafts file).map (·.location)

theorem rooted_ofSpan {s : Span} (path : String) (h : s.start ≤ s.stop) :
    (Location.ofSpan path s).Rooted path := by
  have hlines : s.start.line ≤ s.stop.line := h.elim Nat.le_of_lt fun heq => Nat.le_of_eq heq.1
  refine ⟨rfl, Nat.le_add_left 1 _, Nat.succ_le_succ hlines, ?_⟩
  -- both lines are counted from one, so their order is the old one
  exact h.imp Nat.succ_lt_succ fun ⟨hline, hcolumn⟩ => ⟨congrArg (· + 1) hline, hcolumn⟩

/-- **Everything that is read off a file is rooted in it**, where the nodes of the tree start no
later than they stop: in each language, for every path and for every tree, whether a parser has made
it or not. -/
theorem rooted_of_mem_locations {file : ParsedFile}
    (hspans : ∀ n ∈ file.tree.preorder, n.span.start ≤ n.span.stop) :
    ∀ l ∈ file.locations, l.Rooted file.path := by
  intro l hl
  have hstands : l.StandsIn file.path file.tree := by
    rcases List.mem_append.mp hl with hl | hl
    · exact standsIn_of_mem_locations hl
    · obtain ⟨d, hd, rfl⟩ := List.mem_map.mp hl
      exact Entities.standsIn_of_mem_drafts hd
  obtain ⟨n, hn, rfl⟩ := hstands
  exact rooted_ofSpan file.path (hspans n hn)

/-- A class with a field and a method that calls another one. -/
def saving : ParsedFile where
  path := "src/User.java"
  language := .java
  tree := parseSource .java "public class User { String name; void save() { check(); } }"

/-- The class, its field, its method, its export, the call and the draft that the class makes are
rooted in the file. -/
theorem rooted_of_mem_locations_saving :
    (∀ n ∈ saving.tree.preorder, n.span.start ≤ n.span.stop) ∧ saving.locations.length = 6 ∧
      ∀ l ∈ saving.locations, l.Rooted "src/User.java" := by
  have hfile : (∀ n ∈ saving.tree.preorder, n.span.start ≤ n.span.stop) ∧
      saving.locations.length = 6 := by decide +kernel
  exact ⟨hfile.1, hfile.2, rooted_of_mem_locations hfile.1⟩

end Codemap
