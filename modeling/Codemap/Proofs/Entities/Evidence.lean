/-
# Entities rest on evidence

The signals of an entity are those of its file, then those of its draft.  File and draft never
signal the same: a file speaks through its imports and its path, a draft through its declaration.
Keys and relationships are signalled after the draft is complete, so exactly by what the entity has.
From a sound draft every entity that is detected therefore rests on evidence that holds
(`Evidenced`, `entitiesOfTree_evidenced`), and a file that is no candidate has no entities.
-/
import Codemap.Proofs.Entities.Detector
import Codemap.Proofs.Entities.Draft
import Codemap.Proofs.Text.Pieces

namespace Codemap

open Codemap.Syntax Codemap.Text

/-! ## 1. Signals -/

namespace Evidence

theorem name_injective : Function.Injective name := by
  intro a b h
  cases a <;> cases b <;> first | rfl | exact absurd h (by decide)

/-- No declaration shows by itself what is only known about a file or a complete draft. -/
theorem not_isDeclared {e : Evidence} (h : e = .ormImport ∨ e = .namingConvention ∨
    e = .primaryKey ∨ e = .relationships) : ¬ e.IsDeclared := by
  rcases h with rfl | rfl | rfl | rfl <;> simp [IsDeclared, isStructural]

end Evidence

/-- An entity has a signal of the given kind. -/
def Entity.HasSignal (e : Entity) (k : Evidence) : Prop := k.name ∈ e.signals.map (·.name)

/-! ## 2. What speaks for files and drafts -/

namespace Entities

variable {packages : MappingPackages} {facts : FileFacts} {draft : EntityDraft} {e : Evidence}

theorem mem_fileEvidence_iff : e ∈ fileEvidence packages facts ↔
    (e = .ormImport ∧ ∃ s ∈ facts.importSources, packages.maps facts.language s) ∨
      (e = .namingConvention ∧ namedForModel facts.path) := by
  rw [fileEvidence, List.mem_append]
  refine or_congr ?_ ?_
  · split
    next h => simp [List.any_eq_true.mp h]
    next h => simpa using fun _ => h
  · split <;> simp [*]

theorem nodup_fileEvidence (packages : MappingPackages) (facts : FileFacts) :
    (fileEvidence packages facts).Nodup := by
  rw [fileEvidence]
  split <;> split <;> decide

theorem mem_evidence_markIf {found : Bool} {k : Evidence} :
    e ∈ (draft.markIf found k).evidence ↔ e ∈ draft.evidence ∨ (e = k ∧ found) := by
  cases found
  · simp [EntityDraft.markIf]
  · simpa [EntityDraft.markIf] using EntityDraft.mem_evidence_mark

theorem nodup_evidence_markIf (h : draft.evidence.Nodup) (found : Bool) (k : Evidence) :
    (draft.markIf found k).evidence.Nodup := by
  cases found
  · exact h
  · exact EntityDraft.nodup_evidence_mark h k

theorem mem_weighed_iff : e ∈ (weighed draft).evidence ↔ e ∈ draft.evidence ∨
    (e = .primaryKey ∧ ∃ f ∈ draft.fields, f.isPrimaryKey) ∨
      (e = .relationships ∧ draft.relationships ≠ []) := by
  rw [weighed, mem_evidence_markIf, mem_evidence_markIf, or_assoc]
  simp [List.any_eq_true]

theorem nodup_weighed (h : draft.evidence.Nodup) : (weighed draft).evidence.Nodup :=
  nodup_evidence_markIf (nodup_evidence_markIf h _ _) _ _

/-- No draft signals what is only known about its file. -/
theorem not_mem_weighed (hs : draft.Sound) (he : e = .ormImport ∨ e = .namingConvention) :
    e ∉ (weighed draft).evidence := by
  intro h
  rcases mem_weighed_iff.mp h with hmem | ⟨rfl, -⟩ | ⟨rfl, -⟩
  · exact Evidence.not_isDeclared (he.imp_right Or.inl) (hs.isDeclared e hmem)
  · simp at he
  · simp at he

/-- Files and drafts never signal the same. -/
theorem nodup_evidence (packages : MappingPackages) (facts : FileFacts) (hs : draft.Sound) :
    (fileEvidence packages facts ++ (weighed draft).evidence).Nodup := by
  refine List.nodup_append.mpr ⟨nodup_fileEvidence packages facts, nodup_weighed hs.nodup, ?_⟩
  rintro k hfile _ hdraft rfl
  exact not_mem_weighed hs ((mem_fileEvidence_iff.mp hfile).imp And.left And.left) hdraft

end Entities

/-! ## 3. Entities of a tree -/

/-- A path is named for a model: one of its directories is called so, or a part of the name of its
file that is not the last, which is the extension.  Slashes of either kind part directories, and
case does not matter. -/
def NamedForModel (path : String) : Prop :=
  ∃ directories file,
    (pieces (fun c => c == '/' || c == '\\') path.toList).filter (!·.isEmpty) =
      directories ++ [file] ∧
    ((∃ name ∈ directories,
        String.ofList (lower name) ∈ ["models", "entities", "schemas", "model", "entity"]) ∨
      ∃ parts extension, piecesAt '.' file = parts ++ [extension] ∧ ∃ part ∈ parts,
        String.ofList (lower part) ∈
          ["model", "models", "entity", "entities", "schema", "schemas"])

theorem Entities.namedForModel_iff {path : String} :
    Entities.namedForModel path ↔ NamedForModel path := by
  rw [NamedForModel, Entities.namedForModel]
  generalize (pieces (fun c => c == '/' || c == '\\') path.toList).filter (!·.isEmpty) = segments
  rcases List.eq_nil_or_concat segments with rfl | ⟨directories, file, rfl⟩
  · simp
  · rcases List.eq_nil_or_concat (piecesAt '.' file) with hnil | ⟨parts, extension, hparts⟩
    · exact absurd hnil (pieces_ne_nil file)
    · simp [hparts, Entities.modelDirectories, Entities.modelParts]

/-- What holds of the signals of an entity that is detected in a file. -/
structure Evidenced (d : EntityDetector) (facts : FileFacts) (e : Entity) : Prop where
  nodup : (e.signals.map (·.name)).Nodup
  /-- Every signal is that of a kind of evidence, with its weight. -/
  signal_mem : ∀ s ∈ e.signals, ∃ k : Evidence, s = k.signal
  /-- The file imports a package that maps objects to tables, or it is named for a model. -/
  candidate : e.HasSignal .ormImport ∨ e.HasSignal .namingConvention
  ormImport_iff : e.HasSignal .ormImport ↔
    ∃ s ∈ facts.importSources, d.packages.maps facts.language s
  namingConvention_iff : e.HasSignal .namingConvention ↔ NamedForModel facts.path
  /-- The declaration shows that its type is mapped to a table. -/
  structural : e.HasSignal .entityMarker ∨ e.HasSignal .ormBaseClass ∨ e.HasSignal .tableName ∨
    e.HasSignal .columnMarkers
  primaryKey_iff : e.HasSignal .primaryKey ↔ ∃ f ∈ e.fields, f.isPrimaryKey
  relationships_iff : e.HasSignal .relationships ↔ e.relationships ≠ []
  table_eq : ¬ e.HasSignal .tableName → e.table = Facts.onString Entities.tableName e.name
  /-- The confidence is the sum of the weights, from left to right, if it lies between zero and one,
  and else the end that is nearer. -/
  confidence_eq :
    let sum := (e.signals.map (·.weight)).foldl (· + ·) (-0.0)
    e.confidence = if sum < 0.0 then 0.0 else if 1.0 < sum then 1.0 else sum
  not_below : ¬ e.confidence < d.threshold

namespace Entities

variable {d : EntityDetector} {facts : FileFacts} {draft : EntityDraft} {k : Evidence}

theorem map_name_signals (evidence : List Evidence) :
    (ofDraft facts evidence draft).signals.map (·.name) =
      (evidence ++ (weighed draft).evidence).map Evidence.name := by
  rw [ofDraft, List.map_map]
  rfl

theorem hasSignal_ofDraft_iff {evidence : List Evidence} :
    (ofDraft facts evidence draft).HasSignal k ↔ k ∈ evidence ∨ k ∈ (weighed draft).evidence := by
  rw [Entity.HasSignal, map_name_signals, List.mem_map_of_injective Evidence.name_injective,
    List.mem_append]

/-- What only a file shows is signalled for its entities as it is for the file. -/
theorem hasSignal_iff_mem_fileEvidence (hs : draft.Sound)
    (hk : k = .ormImport ∨ k = .namingConvention) :
    (ofDraft facts (fileEvidence d.packages facts) draft).HasSignal k ↔
      k ∈ fileEvidence d.packages facts := by
  rw [hasSignal_ofDraft_iff, or_iff_left (not_mem_weighed hs hk)]

/-- What only a complete draft shows is signalled as it is when the draft is weighed. -/
theorem hasSignal_iff_weighed (hs : draft.Sound) (hk : k = .primaryKey ∨ k = .relationships) :
    (ofDraft facts (fileEvidence d.packages facts) draft).HasSignal k ↔
      (k = .primaryKey ∧ ∃ f ∈ draft.fields, f.isPrimaryKey) ∨
        (k = .relationships ∧ draft.relationships ≠ []) := by
  have hfile : k ∉ fileEvidence d.packages facts := by
    rw [mem_fileEvidence_iff]
    rcases hk with rfl | rfl <;> simp
  have hdraft : k ∉ draft.evidence := fun hmem =>
    Evidence.not_isDeclared (Or.inr (Or.inr hk)) (hs.isDeclared k hmem)
  rw [hasSignal_ofDraft_iff, or_iff_right hfile, mem_weighed_iff, or_iff_right hdraft]

/-- What a declaration shows by itself stays a signal of the entity. -/
theorem hasSignal_of_mem_evidence (facts : FileFacts) (evidence : List Evidence)
    (h : k ∈ draft.evidence) : (ofDraft facts evidence draft).HasSignal k :=
  hasSignal_ofDraft_iff.mpr (Or.inr (mem_weighed_iff.mpr (Or.inl h)))

/-- An accepted entity of a sound draft in a candidate file rests on evidence. -/
theorem evidenced_ofDraft (hs : draft.Sound) (hfile : fileEvidence d.packages facts ≠ [])
    (hstructural : draft.isStructural)
    (haccepts : d.accepts (ofDraft facts (fileEvidence d.packages facts) draft)) :
    Evidenced d facts (ofDraft facts (fileEvidence d.packages facts) draft) where
  nodup := by
    rw [map_name_signals]
    exact (nodup_evidence d.packages facts hs).map Evidence.name_injective
  signal_mem s hmem := by
    obtain ⟨k, -, rfl⟩ := List.mem_map.mp hmem
    exact ⟨k, rfl⟩
  candidate := by
    obtain ⟨k, hk⟩ := List.exists_mem_of_ne_nil _ hfile
    rcases mem_fileEvidence_iff.mp hk with ⟨rfl, -⟩ | ⟨rfl, -⟩
    · exact Or.inl (hasSignal_ofDraft_iff.mpr (Or.inl hk))
    · exact Or.inr (hasSignal_ofDraft_iff.mpr (Or.inl hk))
  ormImport_iff := by
    rw [hasSignal_iff_mem_fileEvidence hs (Or.inl rfl), mem_fileEvidence_iff]
    simp
  namingConvention_iff := by
    rw [hasSignal_iff_mem_fileEvidence hs (Or.inr rfl), mem_fileEvidence_iff]
    simp [namedForModel_iff]
  structural := by
    obtain ⟨k, hk, hkind⟩ := List.any_eq_true.mp hstructural
    have hsignal := hasSignal_of_mem_evidence facts (fileEvidence d.packages facts) hk
    cases k with
    | entityMarker => exact Or.inl hsignal
    | ormBaseClass => exact Or.inr (Or.inl hsignal)
    | tableName => exact Or.inr (Or.inr (Or.inl hsignal))
    | columnMarkers => exact Or.inr (Or.inr (Or.inr hsignal))
    | ormImport | primaryKey | relationships | namingConvention | validationBase =>
      exact absurd hkind (by decide)
  primaryKey_iff := by
    rw [hasSignal_iff_weighed hs (Or.inl rfl)]
    simp [ofDraft]
  relationships_iff := by
    rw [hasSignal_iff_weighed hs (Or.inr rfl)]
    simp [ofDraft]
  table_eq hnone := by
    have htable : draft.table = none := by
      rw [← Option.not_isSome_iff_eq_none]
      exact fun hsome => hnone (hasSignal_of_mem_evidence facts _ (hs.table hsome))
    simp [ofDraft, htable]
  confidence_eq := by
    rw [List.foldl_map]
    rfl
  not_below := by simpa [EntityDetector.accepts] using haccepts

end Entities

namespace EntityDetector

variable {d : EntityDetector} {facts : FileFacts}

/-- An entity of a tree comes from one of its drafts. -/
theorem exists_draft_of_mem {tree : Node} {e : Entity} (he : e ∈ d.entitiesOfTree facts tree) :
    Entities.fileEvidence d.packages facts ≠ [] ∧
      ∃ draft ∈ Entities.drafts ⟨facts.path, facts.language, tree⟩, draft.isStructural ∧
        e = Entities.ofDraft facts (Entities.fileEvidence d.packages facts) draft ∧
        d.accepts e := by
  obtain ⟨he, haccepts⟩ := List.mem_filter.mp he
  rw [Entities.candidates] at he
  split at he
  · exact absurd he List.not_mem_nil
  next hne =>
    obtain ⟨draft, hdraft, rfl⟩ := List.mem_map.mp he
    obtain ⟨hmem, hstructural⟩ := List.mem_filter.mp hdraft
    exact ⟨hne, draft, hmem, hstructural, rfl, haccepts⟩

/-- Whatever is detected in a file are the entities of a tree. -/
theorem exists_tree_of_detect {parsers : Parsers} {text : String} {es : List Entity}
    (h : d.detect parsers facts text = .ok es) : ∃ tree, es = d.entitiesOfTree facts tree := by
  cases hparse : parsers.parse facts.language facts.path text with
  | ok file =>
    rw [detect_of_parse_eq_ok hparse] at h
    exact ⟨file.tree, (Except.ok.inj h).symm⟩
  | error error =>
    rcases detect_of_parse_eq_error (d := d) hparse with ⟨hnone, hdetect⟩ | hdetect
    · rw [hdetect] at h
      exact ⟨Inhabited.default, by rw [entitiesOfTree_eq_nil hnone, Except.ok.inj h]⟩
    · rw [hdetect] at h
      cases h

/-- **Every entity rests on evidence**, whatever the tree of its file is.  A file that neither
imports a package that maps objects to tables nor is named for a model has no entities.  The
entities of a file are those of the tree of its source, and whatever the parsers are, those that are
detected are the entities of a tree. -/
theorem entitiesOfTree_evidenced (d : EntityDetector) (facts : FileFacts) (tree : Node) :
    (∀ e ∈ d.entitiesOfTree facts tree, Evidenced d facts e) ∧
    ((∀ s ∈ facts.importSources, ¬ d.packages.maps facts.language s) →
      ¬ NamedForModel facts.path → d.entitiesOfTree facts tree = []) ∧
    (∀ source, d.entitiesOf facts source =
      d.entitiesOfTree facts (parseSource facts.language source)) ∧
    ∀ parsers text es, d.detect parsers facts text = .ok es →
      ∃ tree, es = d.entitiesOfTree facts tree := by
  refine ⟨fun e he => ?_, fun himports hname => ?_, fun source => rfl,
    fun parsers text es => exists_tree_of_detect⟩
  · obtain ⟨hne, draft, hmem, hstructural, rfl, haccepts⟩ := exists_draft_of_mem he
    exact Entities.evidenced_ofDraft (Entities.sound_of_mem_drafts hmem) hne hstructural haccepts
  · refine entitiesOfTree_eq_nil (List.eq_nil_iff_forall_not_mem.mpr fun k hk => ?_) tree
    rcases Entities.mem_fileEvidence_iff.mp hk with ⟨-, s, hs, hmaps⟩ | ⟨-, hnamed⟩
    · exact himports s hs hmaps
    · exact hname (Entities.namedForModel_iff.mp hnamed)

/-- The tree of a class in Java that is annotated as an entity and has no members. -/
def annotatedClass : Node :=
  let node (kind : String) (field : Option String) (text : String) (children : List Node) : Node :=
    ⟨kind, true, field, Inhabited.default, text, children⟩
  let mark := node "marker_annotation" none "@Entity"
    [node "identifier" (some "name") "Entity" []]
  node "program" none "" [node "class_declaration" none ""
    [node "modifiers" none "@Entity" [mark], node "identifier" (some "name") "User" [],
      node "class_body" (some "body") "" []]]

/-- The entity of an annotated class in a directory of models. -/
theorem entitiesOfTree_evidenced_annotatedClass :
    ∃ e ∈ EntityDetector.default.entitiesOfTree (.empty "model/User.java" .java) annotatedClass,
      e.table = "users" ∧ Evidenced .default (.empty "model/User.java" .java) e := by
  have htables : (EntityDetector.default.entitiesOfTree (.empty "model/User.java" .java)
      annotatedClass).map (·.table) = ["users"] := by decide +kernel
  obtain ⟨e, he, htable⟩ := List.mem_map.mp (htables ▸ List.mem_singleton_self "users")
  exact ⟨e, he, htable, (entitiesOfTree_evidenced _ _ annotatedClass).1 e he⟩

end EntityDetector

end Codemap
