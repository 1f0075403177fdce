/-
# Drafts of entities carry their evidence

The detectors of the four languages build drafts step by step: from decorators, bases, tags, calls
and assignments.  Whatever a step adds, a draft stays sound (`EntityDraft.Sound`): no evidence is
marked twice, all of it is of a kind that declarations show by themselves, and a name for the table
is marked as such.  In particular keys and relationships are never marked while a draft is built;
that is left to the one who weighs it, when all fields are known.

Each function that changes a draft has one lemma here, and each language ends in a lemma on all
drafts of a tree (`drafts_sound`).
-/
import Codemap.Entities.Detector
import Mathlib.Data.List.Nodup

namespace Codemap

open Codemap.Syntax Codemap.Facts

/-! ## 1. Sound drafts -/

/-- The kinds of evidence that a declaration shows by itself: that its type is mapped to a table,
or that it only checks values. -/
def Evidence.IsDeclared (e : Evidence) : Prop := e.isStructural ∨ e = .validationBase

namespace EntityDraft

/-- A draft whose evidence is that of its declaration, each kind once, with that for its table. -/
structure Sound (d : EntityDraft) : Prop where
  nodup : d.evidence.Nodup
  isDeclared : ∀ e ∈ d.evidence, e.IsDeclared
  table : d.table.isSome → .tableName ∈ d.evidence

variable {d d' : EntityDraft}

theorem sound_bare (name : String) (location : Location) : (bare name location).Sound :=
  ⟨List.nodup_nil, by simp [bare], by simp [bare]⟩

/-- Soundness is about the evidence and the table only. -/
theorem Sound.congr (h : d.Sound) (he : d'.evidence = d.evidence) (ht : d'.table = d.table) :
    d'.Sound :=
  ⟨he ▸ h.nodup, he ▸ h.isDeclared, by rw [he, ht]; exact h.table⟩

theorem mem_evidence_mark {e e' : Evidence} :
    e' ∈ (d.mark e).evidence ↔ e' ∈ d.evidence ∨ e' = e := by
  rw [mark]
  split
  next h =>
    rw [List.contains_iff_mem] at h
    exact ⟨Or.inl, fun h' => h'.elim id fun heq => heq ▸ h⟩
  next => simp

theorem nodup_evidence_mark (h : d.evidence.Nodup) (e : Evidence) :
    (d.mark e).evidence.Nodup := by
  rw [mark]
  split
  · exact h
  next hnew =>
    rw [List.contains_iff_mem] at hnew
    refine List.nodup_append.mpr ⟨h, List.nodup_singleton e, fun a ha b hb hab => hnew ?_⟩
    rwa [← List.mem_singleton.mp hb, ← hab]

theorem table_mark (e : Evidence) : (d.mark e).table = d.table := by
  rw [mark]
  split <;> rfl

theorem Sound.mark (h : d.Sound) {e : Evidence} (he : e.IsDeclared) : (d.mark e).Sound where
  nodup := nodup_evidence_mark h.nodup e
  isDeclared e' he' := (mem_evidence_mark.mp he').elim (h.isDeclared e') fun heq => heq ▸ he
  table ht := mem_evidence_mark.mpr (Or.inl (h.table (table_mark e ▸ ht)))

theorem Sound.markIf (h : d.Sound) (found : Bool) {e : Evidence} (he : e.IsDeclared) :
    (d.markIf found e).Sound := by
  cases found
  · exact h
  · exact h.mark he

theorem Sound.withTable (h : d.Sound) (table : String) : (d.withTable table).Sound := by
  rw [EntityDraft.withTable]
  split
  · exact h
  · -- the mark goes with the name
    refine ⟨nodup_evidence_mark ?_ .tableName, fun e he => ?_, fun _ => ?_⟩
    · exact h.nodup
    · exact (mem_evidence_mark.mp he).elim (h.isDeclared e) fun heq => heq ▸ Or.inl rfl
    · exact mem_evidence_mark.mpr (Or.inr rfl)

theorem Sound.addField (h : d.Sound) (f : EntityField) : (d.addField f).Sound := h.congr rfl rfl

theorem Sound.addRelationship (h : d.Sound) (r : Relationship) : (d.addRelationship r).Sound :=
  h.congr rfl rfl

/-- What each step of a fold keeps sound stays sound. -/
theorem Sound.foldl {α : Type} {f : EntityDraft → α → EntityDraft}
    (hf : ∀ (d : EntityDraft) (a : α), d.Sound → (f d a).Sound) (xs : List α) (h : d.Sound) :
    (xs.foldl f d).Sound := by
  induction xs generalizing d with
  | nil => exact h
  | cons x xs ih => exact ih (hf d x h)

end EntityDraft

namespace Entities

open EntityDraft

variable {d draft : EntityDraft} {path : String}

/-- A draft that only has a framework is sound. -/
theorem sound_shell (name : String) (location : Location) (framework : Option Framework) :
    { EntityDraft.bare name location with framework }.Sound :=
  (sound_bare name location).congr rfl rfl

/-! ## 2. Java -/

namespace Java

theorem sound_addMember (isEntity : Bool) (h : d.Sound) (n : Node) :
    (addMember isEntity d n).Sound := by
  rw [addMember]
  split
  · exact h
  · split
    · exact h.foldl (fun d name h => h.addRelationship _) _
    · dsimp only
      split
      · exact (h.markIf _ (Or.inl rfl)).foldl (fun d name h => h.addField _) _
      · exact h

theorem sound_addTable (h : d.Sound) (m : Mark) : (addTable d m).Sound := by
  rw [addTable]
  split
  · exact h.withTable _
  · exact h

theorem sound_classDraft {n : Node} (h : classDraft? path n = some draft) : draft.Sound := by
  simp only [classDraft?, Option.bind_eq_bind, Option.bind_eq_some_iff] at h
  obtain ⟨name, -, h⟩ := h
  split at h
  · exact absurd h (by simp)
  · obtain ⟨body, -, h⟩ := Option.bind_eq_some_iff.mp h
    obtain rfl := Option.some.inj h
    have hmarked := ((sound_shell name (.ofSpan path n.span) (some .jpa)).markIf
      ((marks n).any fun m => m.name == "Entity") (e := .entityMarker) (Or.inl rfl)).foldl
      (fun d m h => sound_addTable h m) (marks n)
    exact hmarked.foldl (fun d m h => sound_addMember _ h m) body.namedChildren

theorem drafts_sound {tree : Node} (h : draft ∈ drafts path tree) : draft.Sound := by
  obtain ⟨n, -, hn⟩ := List.mem_filterMap.mp h
  exact sound_classDraft hn

end Java

/-! ## 3. Go -/

namespace Go

theorem sound_addEmbedded (h : d.Sound) (type : String) : (addEmbedded d type).Sound := by
  rw [addEmbedded]
  split
  · exact (h.mark (Or.inl rfl)).foldl (fun d f h => h.addField f) _
  · exact h

theorem sound_addField (structures : List String) (h : d.Sound) (n : Node) :
    (addField structures d n).Sound := by
  rw [addField]
  split
  · exact h
  · split
    · exact h
    · dsimp only
      split
      · exact h
      · -- a field with a tag is marked, whatever it turns out to be
        have hmarked := h.markIf (settingsOf (n.fieldText? "tag")).isSome
          (e := .columnMarkers) (Or.inl rfl)
        split
        · exact sound_addEmbedded hmarked _
        · split
          · exact hmarked.foldl (fun d name h => h.addRelationship _) _
          · exact hmarked.foldl (fun d name h => h.addField _) _

theorem sound_structureDraft {structures : List String} {spec : Node}
    (h : structureDraft? path structures spec = some draft) : draft.Sound := by
  simp only [structureDraft?, Option.bind_eq_bind, Option.bind_eq_some_iff] at h
  obtain ⟨name, -, type, -, list, -, h⟩ := h
  obtain rfl := Option.some.inj h
  have hfilled := (sound_shell name (.ofSpan path spec.span) (some .gorm)).foldl
    (fun d n h => sound_addField structures h n) list.namedChildren
  -- a key by convention changes the fields only
  exact hfilled.congr rfl rfl

theorem drafts_sound {tree : Node} (h : draft ∈ drafts path tree) : draft.Sound := by
  obtain ⟨d, hd, rfl⟩ := List.mem_map.mp h
  obtain ⟨spec, -, hspec⟩ := List.mem_filterMap.mp hd
  split
  · exact (sound_structureDraft hspec).withTable _
  · exact sound_structureDraft hspec

end Go

/-! ## 4. Python -/

namespace Python

theorem sound_addBare (h : d.Sound) (a : Assigned) : (addBare d a).Sound := by
  rw [addBare]
  split
  · exact h
  · dsimp only
    split
    · exact (h.markIf _ (Or.inl rfl)).addField _
    · exact h

theorem sound_addFieldCall (h : d.Sound) (a : Assigned) (i : Invocation) :
    (addFieldCall d a i).Sound := by
  have hmarked : (d.mark .columnMarkers).Sound := h.mark (Or.inl rfl)
  rw [addFieldCall]
  split
  · split
    · exact hmarked.addRelationship _
    · exact hmarked
  · exact hmarked.addField _

theorem sound_addCall (foreignTables : List String) (h : d.Sound) (a : Assigned)
    (i : Invocation) : (addCall foreignTables d a i).Sound := by
  rw [addCall]
  split
  · split
    · exact h.addRelationship _
    · exact h
  · split
    · exact h.addRelationship _
    · exact h
  · exact (h.mark (Or.inl rfl)).addField _
  · exact (h.mark (Or.inl rfl)).addField _
  · exact (h.mark (Or.inl rfl)).addField _
  · split
    · exact sound_addFieldCall h a i
    · exact h

theorem sound_addAssigned (foreignTables : List String) (h : d.Sound) (a : Assigned) :
    (addAssigned foreignTables d a).Sound := by
  rw [addAssigned]
  split
  · split
    · exact h.withTable _
    · exact h
  · split
    · exact h
    · split
      · exact sound_addCall foreignTables h a _
      · exact sound_addBare h a

theorem sound_classDraft {n : Node} (h : classDraft? path n = some draft) : draft.Sound := by
  simp only [classDraft?, Option.bind_eq_bind, Option.bind_eq_some_iff] at h
  obtain ⟨name, -, body, -, h⟩ := h
  split at h
  · exact absurd h (by simp)
  · obtain rfl := Option.some.inj h
    have hbased := ((sound_shell name (.ofSpan path n.span) (basesOf n).framework).markIf
      (basesOf n).maps (e := .ormBaseClass) (Or.inl rfl)).markIf
      (basesOf n).checks (e := .validationBase) (Or.inr rfl)
    refine Sound.foldl (fun d a h => sound_addAssigned _ h a) _ ?_
    split
    · exact hbased.withTable _
    · exact hbased

theorem sound_withImplicitKey (h : d.Sound) : (withImplicitKey d).Sound := by
  rw [withImplicitKey]
  dsimp only
  split
  · exact h.congr rfl rfl
  · exact h

theorem drafts_sound {tree : Node} (h : draft ∈ drafts path tree) : draft.Sound := by
  obtain ⟨d, hd, rfl⟩ := List.mem_map.mp h
  obtain ⟨n, -, hn⟩ := List.mem_filterMap.mp hd
  exact sound_withImplicitKey (sound_classDraft hn)

end Python

/-! ## 5. ECMAScript -/

namespace EcmaScript

theorem sound_addMember (h : d.Sound) (m : Node × List Decorator) : (addMember d m).Sound := by
  rw [addMember]
  split
  · split
    · exact h
    · split
      · exact h.addRelationship _
      · exact h
      · split
        · exact (h.mark (Or.inl rfl)).addField _
        · exact h
  · exact h

theorem sound_addMarker (h : d.Sound) (m : Decorator) : (addMarker d m).Sound := by
  rw [addMarker]
  split
  · have hmarked : (d.mark .entityMarker).Sound := h.mark (Or.inl rfl)
    have hframed : (if m.name == "Table" then
        { d.mark .entityMarker with framework := some .sequelizeTypescript }
        else d.mark .entityMarker).Sound := by
      split
      · exact hmarked.congr rfl rfl
      · exact hmarked
    dsimp only
    split
    · exact hframed.withTable _
    · exact hframed
  · exact h

theorem sound_classDraft {c : Cursor} (h : classDraft? path c = some draft) : draft.Sound := by
  obtain ⟨name, -, rfl⟩ := Option.map_eq_some_iff.mp h
  have hbased := ((sound_bare name (.ofSpan path c.node.span)).foldl
    (fun d m h => sound_addMarker h m) (classDecorators c)).markIf
    (extendsModel c.node) (e := .ormBaseClass) (Or.inl rfl)
  dsimp only
  split
  · exact hbased.foldl (fun d m h => sound_addMember h m) _
  · exact hbased

theorem sound_withAttributes (h : d.Sound) (arguments : List Node) :
    (withAttributes d arguments).Sound := by
  have hframed : { d with framework := d.framework <|> some Framework.sequelize }.Sound :=
    h.congr rfl rfl
  have hstep : ∀ (d : EntityDraft) (f : EntityField), d.Sound →
      (if d.hasField f.name then d else d.addField f).Sound := by
    intro d f h
    split
    · exact h
    · exact h.addField f
  rw [withAttributes]
  dsimp only
  split
  · exact ((hframed.markIf _ (e := .columnMarkers) (Or.inl rfl)).foldl hstep _).withTable _
  · exact (hframed.markIf _ (e := .columnMarkers) (Or.inl rfl)).foldl hstep _

/-- All drafts of a list are sound. -/
abbrev AllSound (ds : List EntityDraft) : Prop := ∀ d ∈ ds, d.Sound

theorem allSound_change {f : EntityDraft → EntityDraft}
    (hf : ∀ d : EntityDraft, d.Sound → (f d).Sound) (name : String) {ds : List EntityDraft}
    (h : AllSound ds) : AllSound (change name f ds) := by
  induction ds with
  | nil => exact h
  | cons d ds ih =>
    obtain ⟨hd, hds⟩ := List.forall_mem_cons.mp h
    rw [change]
    split
    · exact List.forall_mem_cons.mpr ⟨hf d hd, hds⟩
    · exact List.forall_mem_cons.mpr ⟨hd, ih hds⟩

theorem allSound_afterMemberCall {ds ds' : List EntityDraft} {call function : Node}
    {method : String} (h : AllSound ds)
    (heq : afterMemberCall? path ds call function method = some ds') : AllSound ds' := by
  unfold afterMemberCall? at heq
  dsimp only at heq
  split at heq
  · obtain rfl := Option.some.inj heq
    exact allSound_change (fun d h => sound_withAttributes h _) _ h
  · split at heq
    · split at heq
      · -- a model that is defined here
        obtain rfl := Option.some.inj heq
        refine List.forall_mem_append.mpr ⟨h, fun d hd => ?_⟩
        rw [List.mem_singleton.mp hd]
        exact sound_withAttributes ((sound_bare _ _).mark (Or.inl rfl)) _
      · exact Option.some.inj heq ▸ h
    · exact Option.some.inj heq ▸ h
  · obtain ⟨kind, -, rfl⟩ := Option.map_eq_some_iff.mp heq
    split
    · exact allSound_change (fun d h => h.addRelationship _) _ h
    · exact h

theorem allSound_afterCall {s : Progress} (h : AllSound s.drafts) (call : Node) :
    AllSound (afterCall path s call).drafts := by
  rw [afterCall]
  split
  · exact h
  · dsimp only
    split
    next ds hds =>
      split at hds
      · exact allSound_afterMemberCall h hds
      · exact absurd hds (by simp)
    · split
      · split
        · exact h
        · exact h
      · exact h

theorem allSound_foldl_afterCall (calls : List Node) {s : Progress} (h : AllSound s.drafts) :
    AllSound (calls.foldl (afterCall path) s).drafts :=
  List.foldlRecOn (motive := fun s : Progress => AllSound s.drafts) calls _ h
    fun _ hs call _ => allSound_afterCall hs call

theorem sound_addSchemaMember (h : d.Sound) (m : String × Node) : (addSchemaMember d m).Sound := by
  rw [addSchemaMember]
  split
  · split
    · exact h.addRelationship _
    · exact h.addField _
  · split
    · split
      · exact h.addRelationship _
      · exact h.addField _
    · exact h.addField _
  · exact h.addField _

theorem sound_schemaDraft (registered : List (String × String)) (name : String) (n : Node) :
    (schemaDraft path registered name n).Sound := by
  have hmarked := (sound_shell
    (((registered.find? fun r => r.2 == name).map (·.1)).getD (onString schemaModel name))
    (.ofSpan path n.span) (some .mongoose)).markIf
    ((registered.find? fun r => r.2 == name).map (·.1)).isSome (e := .entityMarker) (Or.inl rfl)
  rw [schemaDraft]
  dsimp only
  split
  · exact ((hmarked.addField _).foldl (fun d m h => sound_addSchemaMember h m) _).markIf _
      (Or.inl rfl)
  · exact hmarked

theorem drafts_sound {tree : Node} (h : draft ∈ drafts path tree) : draft.Sound := by
  rw [drafts] at h
  rcases List.mem_append.mp h with h | h
  · refine allSound_foldl_afterCall _ (fun d hd => ?_) draft h
    obtain ⟨c, -, hc⟩ := List.mem_filterMap.mp hd
    split at hc
    · exact sound_classDraft hc
    · exact absurd hc (by simp)
  · obtain ⟨s, -, rfl⟩ := List.mem_map.mp h
    exact sound_schemaDraft _ _ _

end EcmaScript

/-- **The drafts of a file are sound**, whatever its language and its tree. -/
theorem sound_of_mem_drafts {file : ParsedFile} (h : draft ∈ drafts file) : draft.Sound := by
  rw [drafts] at h
  split at h
  · exact EcmaScript.drafts_sound h
  · exact EcmaScript.drafts_sound h
  · exact EcmaScript.drafts_sound h
  · exact Python.drafts_sound h
  · exact Java.drafts_sound h
  · exact Go.drafts_sound h

end Entities

end Codemap
