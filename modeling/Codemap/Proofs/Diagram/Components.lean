/-
# The diagram of files draws the graph of imports

A node is named by the first text that is free among those that are tried for its path
(`IsFirstFree`).  There are more of these texts than names in use, so one of them is free
(`fresh_isFirstFree`), and nodes have distinct names.  The diagram then has one line for each path,
in the order in which paths are first given, and after these one line for each edge of the graph of
imports (`exists_draws`).  No edge is left out, since both of its ends are files that are given.
-/
import Codemap.Diagram.Components
import Codemap.Proofs.Diagram.Basic
import Codemap.Proofs.Imports.Edges
import Mathlib.Data.List.Induction

namespace Codemap.Diagram.Components

open Codemap.Text Imports

/-! ## 1. Free names -/

/-- The texts that are tried for a name, in order: the name itself, and then the name with the
numbers from two on. -/
def choice (base : String) : Nat → String
  | 0 => base
  | n + 1 => base ++ "_" ++ toString (n + 2)

/-- A text is the first of those tried for a name that is not in use. -/
def IsFirstFree (used : List String) (base c : String) : Prop :=
  ∃ n, c = choice base n ∧ c ∉ used ∧ ∀ m < n, choice base m ∈ used

variable {used : List String} {base c : String}

theorem choices_eq_map : choices used base = (List.range (used.length + 2)).map (choice base) := by
  rw [List.range_succ_eq_map, List.map_cons, List.map_map]
  rfl

theorem choice_injective (base : String) : Function.Injective (choice base) := by
  have hlonger : ∀ n, base ≠ choice base (n + 1) := by
    intro n heq
    have := congrArg (fun s => s.toList.length) heq
    simp [choice] at this
  intro i j h
  match i, j with
  | 0, 0 => rfl
  | 0, j + 1 => exact absurd h (hlonger j)
  | i + 1, 0 => exact absurd h.symm (hlonger i)
  | i + 1, j + 1 =>
    have hrepr : (i + 2).repr = (j + 2).repr := (String.append_right_inj _).mp h
    have hdigits : Nat.toDigits 10 (i + 2) = Nat.toDigits 10 (j + 2) := by
      rw [← Nat.toList_repr, ← Nat.toList_repr, hrepr]
    have hnumber : i + 2 = j + 2 := calc
      i + 2 = Nat.ofDigitChars 10 (Nat.toDigits 10 (i + 2)) 0 :=
        Nat.ofDigitChars_ten_toDigits.symm
      _ = Nat.ofDigitChars 10 (Nat.toDigits 10 (j + 2)) 0 := by rw [hdigits]
      _ = j + 2 := Nat.ofDigitChars_ten_toDigits
    omega

/-- One of the texts tried is free, as there is one more of them than there are names in use. -/
theorem exists_choice_not_mem (used : List String) (base : String) :
    ∃ n < used.length + 2, choice base n ∉ used := by
  by_contra hall
  push Not at hall
  have hnodup : ((List.range (used.length + 2)).map (choice base)).Nodup :=
    List.nodup_range.map (choice_injective base)
  have hsub : (List.range (used.length + 2)).map (choice base) ⊆ used := by
    intro x hx
    obtain ⟨n, hn, rfl⟩ := List.mem_map.mp hx
    exact hall n (List.mem_range.mp hn)
  have hlen := hnodup.length_le_of_subset hsub
  simp only [List.length_map, List.length_range] at hlen
  omega

/-- **The search for a free name ends**, with the first one. -/
theorem fresh_isFirstFree (used : List String) (base : String) :
    IsFirstFree used base (fresh used base) := by
  rw [fresh, choices_eq_map, List.find?_map]
  cases hfind : (List.range (used.length + 2)).find?
      ((fun c => !used.contains c) ∘ choice base) with
  | none =>
    obtain ⟨n, hn, hfree⟩ := exists_choice_not_mem used base
    have := List.find?_eq_none.mp hfind n (List.mem_range.mpr hn)
    simp [hfree] at this
  | some n =>
    obtain ⟨hn, -, hbefore⟩ := List.find?_range_eq_some.mp hfind
    refine ⟨n, rfl, by simpa using hn, fun m hm => ?_⟩
    simpa using hbefore m hm

theorem isIdentifier_of_isFirstFree (hbase : IsIdentifier base) (h : IsFirstFree used base c) :
    IsIdentifier c := by
  obtain ⟨n, rfl, -⟩ := h
  match n with
  | 0 => exact hbase
  | n + 1 =>
    constructor
    · simp [choice]
    · intro x hx
      simp only [choice, String.toList_append, List.mem_append] at hx
      rcases hx with (hx | hx) | hx
      · exact hbase.2 x hx
      · rw [List.mem_singleton.mp hx]
        decide
      · have hdigit : x.isDigit := Nat.isDigit_of_mem_toDigits (by decide) (by decide)
          (Nat.toList_repr ▸ hx)
        simp [isIdentifierChar, Char.isAlphanum, hdigit]

/-! ## 2. Nodes -/

/-- The nodes of paths: one for each path, in the order in which paths are first given, each with
the first name that is free after the nodes before. -/
structure Named (paths : List String) (ns : List FileNode) : Prop where
  paths_eq : ns.map (·.path) = paths.eraseDups
  firstFree : ∀ before n after, ns = before ++ n :: after →
    IsFirstFree (before.map (·.identifier)) (identifier n.path) n.identifier

theorem eraseDups_concat (ps : List String) (p : String) :
    (ps ++ [p]).eraseDups = if p ∈ ps then ps.eraseDups else ps.eraseDups ++ [p] := by
  rw [List.eraseDups_append]
  by_cases h : p ∈ ps
  · simp [List.removeAll, h]
  · rw [if_neg h]
    simp [List.removeAll, h, List.eraseDups_cons]

theorem nodup_eraseDups (ps : List String) : ps.eraseDups.Nodup := by
  induction ps using List.reverseRecOn with
  | nil => exact List.nodup_nil
  | append_singleton ps p ih =>
    rw [eraseDups_concat]
    split
    · exact ih
    next hp =>
      rw [List.nodup_append_comm]
      exact List.nodup_cons.mpr ⟨fun hmem => hp (List.mem_eraseDups.mp hmem), ih⟩

theorem Named.addNode {paths : List String} {ns : List FileNode} (h : Named paths ns)
    (p : String) : Named (paths ++ [p]) (addNode ns p) := by
  have hmem : (ns.any fun n => n.path == p) = true ↔ p ∈ paths := by
    rw [← List.mem_eraseDups, ← h.paths_eq, List.any_eq_true, List.mem_map]
    simp only [beq_iff_eq]
  rw [Components.addNode]
  split
  next hp =>
    refine ⟨?_, h.firstFree⟩
    rw [eraseDups_concat, if_pos (hmem.mp hp), h.paths_eq]
  next hp =>
    refine ⟨?_, ?_⟩
    · rw [eraseDups_concat, if_neg (fun hmp => hp (hmem.mpr hmp)), List.map_append, h.paths_eq]
      rfl
    · intro before n after heq
      rcases List.eq_nil_or_concat after with rfl | ⟨after, x, rfl⟩
      · -- the node that is added
        obtain ⟨rfl, hlast⟩ := List.append_inj' heq rfl
        rw [← List.singleton_inj.mp hlast]
        exact fresh_isFirstFree _ _
      · rw [List.concat_eq_append, ← List.cons_append, ← List.append_assoc] at heq
        exact h.firstFree before n after (List.append_inj' heq rfl).1

theorem named_nodes (paths : List String) : Named paths (nodes paths) := by
  induction paths using List.reverseRecOn with
  | nil => exact ⟨rfl, by simp [nodes]⟩
  | append_singleton paths p ih =>
    rw [nodes, List.foldl_append]
    exact ih.addNode p

example : (nodes ["a-b", "a_b", "a_b", "a_b_2", "a b"]).map (·.identifier) =
    ["a_b", "a_b_2", "a_b_2_2", "a_b_3"] := by decide

section Named

variable {paths : List String} {ns : List FileNode}

/-- The names of nodes are distinct, as each is free after the nodes before. -/
theorem Named.nodup_identifier (h : Named paths ns) : (ns.map (·.identifier)).Nodup := by
  have hfree := h.firstFree
  clear h
  induction ns using List.reverseRecOn with
  | nil => exact List.nodup_nil
  | append_singleton ns n ih =>
    obtain ⟨-, -, hnew, -⟩ := hfree ns n [] rfl
    rw [List.map_append, List.map_singleton, List.nodup_append_comm]
    refine List.nodup_cons.mpr ⟨hnew, ih fun before m after heq => ?_⟩
    exact hfree before m (after ++ [n]) (by rw [heq, List.append_assoc, List.cons_append])

theorem Named.nodup_path (h : Named paths ns) : (ns.map (·.path)).Nodup :=
  h.paths_eq ▸ nodup_eraseDups paths

/-- A node is found under its path. -/
theorem Named.identifierOf?_path (h : Named paths ns) {n : FileNode} (hn : n ∈ ns) :
    identifierOf? ns n.path = some n.identifier := by
  rw [identifierOf?, Option.map_eq_some_iff]
  refine ⟨n, ?_, rfl⟩
  cases hfind : ns.find? fun m => m.path == n.path with
  | none => exact absurd (beq_self_eq_true n.path) (List.find?_eq_none.mp hfind n hn)
  | some m =>
    have hm := List.find?_some hfind
    rw [List.inj_on_of_nodup_map h.nodup_path (List.mem_of_find?_eq_some hfind) hn
      (beq_iff_eq.mp hm)]

end Named

/-! ## 3. The drawing -/

/-- A path with a single quote for each quotation mark in it. -/
def unquoted (path : String) : String :=
  .ofList (path.toList.map fun c => if c = Char.ofNat 34 then Char.ofNat 39 else c)

/-- The line that draws a node: four blanks, its name, and its path between quotation marks and
brackets. -/
def box (name path : String) : String := "    " ++ name ++ "[\"" ++ unquoted path ++ "\"]"

/-- The line that draws an edge between two nodes. -/
def arrow (source target : String) : String := "    " ++ source ++ " --> " ++ target

/-- The lines of a drawing in which paths have the given names. -/
def drawing (files : List FileFacts) (name : String → String) : List String :=
  "graph TD" :: (files.map (·.path)).eraseDups.map (fun p => box (name p) p) ++
    (dependencies files).map fun d => arrow (name d.source) (name d.target)

/-- The text of the diagram draws each path once, under a name of its own, and each edge once,
between the names of its ends. -/
structure Draws (files : List FileFacts) (name : String → String) : Prop where
  text_eq : text files = String.join ((drawing files name).map (· ++ "\n"))
  /-- The lines can be read off the text, if no path spreads over several of them. -/
  piecesAt_text : (∀ f ∈ files, '\n' ∉ f.path.toList) →
    piecesAt '\n' (text files).toList = (drawing files name).map String.toList ++ [[]]
  isIdentifier : ∀ f ∈ files, IsIdentifier (name f.path)
  name_injective : ∀ f ∈ files, ∀ g ∈ files, name f.path = name g.path → f.path = g.path
  /-- Each name is the first that is free after those of the paths before. -/
  firstFree : ∀ before p after, (files.map (·.path)).eraseDups = before ++ p :: after →
    IsFirstFree (before.map name) (identifier p) (name p)
  /-- Both ends of an edge are drawn. -/
  ends_mem : ∀ d ∈ dependencies files,
    d.source ∈ files.map (·.path) ∧ d.target ∈ files.map (·.path)
  nodup_boxes : ((files.map (·.path)).eraseDups.map fun p => box (name p) p).Nodup
  nodup_arrows : ((dependencies files).map fun d => arrow (name d.source) (name d.target)).Nodup

theorem nodeLine_eq_box (n : FileNode) : nodeLine n = box n.identifier n.path := by
  rw [← String.toList_inj]
  simp [nodeLine, box, indent, quotedLabel, unquoted, replaceChar]

/-- A box determines the name of its node. -/
theorem box_injective {a b p q : String} (ha : IsIdentifier a) (hb : IsIdentifier b)
    (h : box a p = box b q) : a = b := by
  have hlist : a.toList ++ '[' :: ("\"".toList ++ (unquoted p).toList ++ "\"]".toList) =
      b.toList ++ '[' :: ("\"".toList ++ (unquoted q).toList ++ "\"]".toList) := by
    have := congrArg String.toList h
    simpa [box] using this
  exact (ha.append_mark_inj hb (by decide) hlist).1

/-- An arrow determines the names of both nodes. -/
theorem arrow_injective {a b a' b' : String} (ha : IsIdentifier a) (ha' : IsIdentifier a')
    (h : arrow a b = arrow a' b') : a = a' ∧ b = b' := by
  have hlist : a.toList ++ ' ' :: ("--> ".toList ++ b.toList) =
      a'.toList ++ ' ' :: ("--> ".toList ++ b'.toList) := by
    have := congrArg String.toList h
    simpa [arrow] using this
  obtain ⟨hsource, htarget⟩ := ha.append_mark_inj ha' (by decide) hlist
  exact ⟨hsource, String.toList_injective (List.append_cancel_left htarget)⟩

/-- The name of the node of a path. -/
def nodeName (files : List FileFacts) (p : String) : String :=
  (identifierOf? (nodes (files.map (·.path))) p).getD ""

section Drawing

variable {files : List FileFacts} {p : String}

theorem nodes_eq_map (files : List FileFacts) : nodes (files.map (·.path)) =
    (files.map (·.path)).eraseDups.map fun p => ⟨p, nodeName files p⟩ := by
  have h := named_nodes (files.map (·.path))
  rw [← h.paths_eq, List.map_map]
  refine (List.map_id _).symm.trans (List.map_congr_left fun n hn => ?_)
  simp [nodeName, h.identifierOf?_path hn]

theorem identifierOf?_nodes (hp : p ∈ files.map (·.path)) :
    identifierOf? (nodes (files.map (·.path))) p = some (nodeName files p) := by
  have hmem : (⟨p, nodeName files p⟩ : FileNode) ∈ nodes (files.map (·.path)) := by
    rw [nodes_eq_map]
    exact List.mem_map_of_mem (f := fun p => (⟨p, nodeName files p⟩ : FileNode))
      (List.mem_eraseDups.mpr hp)
  exact (named_nodes _).identifierOf?_path hmem

theorem firstFree_nodeName {before after : List String}
    (h : (files.map (·.path)).eraseDups = before ++ p :: after) :
    IsFirstFree (before.map (nodeName files)) (identifier p) (nodeName files p) := by
  have hfree := (named_nodes (files.map (·.path))).firstFree
    (before.map fun p => ⟨p, nodeName files p⟩) ⟨p, nodeName files p⟩
    (after.map fun p => ⟨p, nodeName files p⟩)
    (by rw [nodes_eq_map, h, List.map_append, List.map_cons])
  rwa [List.map_map] at hfree

theorem isIdentifier_nodeName (hp : p ∈ files.map (·.path)) : IsIdentifier (nodeName files p) := by
  obtain ⟨before, after, h⟩ := List.append_of_mem (List.mem_eraseDups.mpr hp)
  exact isIdentifier_of_isFirstFree (isIdentifier_identifier p) (firstFree_nodeName h)

theorem nodeName_injective {q : String} (hp : p ∈ files.map (·.path))
    (hq : q ∈ files.map (·.path)) (h : nodeName files p = nodeName files q) : p = q := by
  have hnodup := (named_nodes (files.map (·.path))).nodup_identifier
  rw [nodes_eq_map, List.map_map] at hnodup
  exact List.inj_on_of_nodup_map hnodup (List.mem_eraseDups.mpr hp) (List.mem_eraseDups.mpr hq) h

theorem lines_eq_drawing (files : List FileFacts) :
    lines files = drawing files (nodeName files) := by
  rw [lines, drawing]
  have hnodes : (nodes (files.map (·.path))).map nodeLine =
      (files.map (·.path)).eraseDups.map fun p => box (nodeName files p) p := by
    rw [nodes_eq_map, List.map_map]
    exact List.map_congr_left fun p _ => nodeLine_eq_box _
  have hedges : (dependencies files).filterMap (edgeLine? (nodes (files.map (·.path)))) =
      (dependencies files).filterMap
        (some ∘ fun d => arrow (nodeName files d.source) (nodeName files d.target)) := by
    refine List.filterMap_congr fun d hd => ?_
    rw [edgeLine?, identifierOf?_nodes (source_mem_files hd),
      identifierOf?_nodes (target_mem_files hd)]
    rfl
  rw [hnodes, hedges, List.filterMap_eq_map]

theorem lineFeed_not_mem_box {a : String} (ha : IsIdentifier a) (hp : '\n' ∉ p.toList) :
    '\n' ∉ (box a p).toList := by
  have hlabel : '\n' ∉ (unquoted p).toList := by
    rw [unquoted, String.toList_ofList, List.mem_map]
    rintro ⟨c, hc, h⟩
    split at h
    · exact absurd h (by decide)
    · exact hp (h ▸ hc)
  have hname : '\n' ∉ a.toList := fun h => absurd (ha.2 _ h) (by decide)
  simp [box, hlabel, hname]

theorem lineFeed_not_mem_arrow {a b : String} (ha : IsIdentifier a) (hb : IsIdentifier b) :
    '\n' ∉ (arrow a b).toList := by
  have ha : '\n' ∉ a.toList := fun h => absurd (ha.2 _ h) (by decide)
  have hb : '\n' ∉ b.toList := fun h => absurd (hb.2 _ h) (by decide)
  simp [arrow, ha, hb]

/-- Lines hold no line feed if paths hold none. -/
theorem lineFeed_not_mem_drawing (h : ∀ f ∈ files, '\n' ∉ f.path.toList) :
    ∀ l ∈ drawing files (nodeName files), '\n' ∉ l.toList := by
  intro l hl
  rw [drawing, List.mem_append, List.mem_cons, List.mem_map, List.mem_map] at hl
  rcases hl with (rfl | ⟨p, hp, rfl⟩) | ⟨d, hd, rfl⟩
  · decide
  · have hp := List.mem_eraseDups.mp hp
    obtain ⟨f, hf, rfl⟩ := List.mem_map.mp hp
    exact lineFeed_not_mem_box (isIdentifier_nodeName hp) (h f hf)
  · exact lineFeed_not_mem_arrow (isIdentifier_nodeName (source_mem_files hd))
      (isIdentifier_nodeName (target_mem_files hd))

/-- Different paths give different boxes, as their names are different. -/
theorem nodup_boxes (files : List FileFacts) :
    ((files.map (·.path)).eraseDups.map fun p => box (nodeName files p) p).Nodup := by
  refine (nodup_eraseDups _).map_on fun p hp q hq heq => ?_
  have hp := List.mem_eraseDups.mp hp
  have hq := List.mem_eraseDups.mp hq
  exact nodeName_injective hp hq
    (box_injective (isIdentifier_nodeName hp) (isIdentifier_nodeName hq) heq)

/-- Edges with different ends give different arrows. -/
theorem nodup_arrows (files : List FileFacts) : ((dependencies files).map fun d =>
    arrow (nodeName files d.source) (nodeName files d.target)).Nodup := by
  rw [List.Nodup, List.pairwise_map]
  refine (pairwise_dependencies files).imp_of_mem fun {d e} hd he hlt heq => ?_
  obtain ⟨hsource, htarget⟩ := arrow_injective (isIdentifier_nodeName (source_mem_files hd))
    (isIdentifier_nodeName (source_mem_files he)) heq
  have hsource := nodeName_injective (source_mem_files hd) (source_mem_files he) hsource
  have htarget := nodeName_injective (target_mem_files hd) (target_mem_files he) htarget
  rw [hsource, htarget] at hlt
  exact hlt.elim (String.lt_irrefl _) fun h => String.lt_irrefl _ h.2

/-- **The diagram of files draws the graph of imports.** -/
theorem exists_draws (files : List FileFacts) : ∃ name, Draws files name := by
  have hpath : ∀ f ∈ files, f.path ∈ files.map (·.path) := fun f hf => List.mem_map_of_mem hf
  have htext : text files = ofLines (drawing files (nodeName files)) := by
    rw [text, lines_eq_drawing]
  refine ⟨nodeName files, htext, fun h => ?_, ?_, ?_, ?_, ?_, nodup_boxes files,
    nodup_arrows files⟩
  · rw [htext]
    exact piecesAt_ofLines (lineFeed_not_mem_drawing h)
  · exact fun f hf => isIdentifier_nodeName (hpath f hf)
  · exact fun f hf g hg => nodeName_injective (hpath f hf) (hpath g hg)
  · exact fun before p after h => firstFree_nodeName h
  · exact fun d hd => ⟨source_mem_files hd, target_mem_files hd⟩

/-- A file that imports another one, whose path is written with a mark in place of the same
underscore. -/
def colliding : List FileFacts :=
  let specifier : Import := ⟨"./a_b", [.everything "a_b"], ⟨"a-b.ts", 1, 1, 0, 0⟩⟩
  [{ FileFacts.empty "a-b.ts" .typescript with imports := [specifier] },
    .empty "a_b.ts" .typescript]

/-- The second of two paths with one identifier has a name with a number. -/
theorem exists_draws_colliding : ∃ name, Draws colliding name ∧
    String.join ((drawing colliding name).map (· ++ "\n")) =
      "graph TD\n    a_b_ts[\"a-b.ts\"]\n    a_b_ts_2[\"a_b.ts\"]\n    a_b_ts --> a_b_ts_2\n" := by
  obtain ⟨name, hdraws⟩ := exists_draws colliding
  have htext : text colliding =
      "graph TD\n    a_b_ts[\"a-b.ts\"]\n    a_b_ts_2[\"a_b.ts\"]\n    a_b_ts --> a_b_ts_2\n" := by
    decide +kernel
  exact ⟨name, hdraws, hdraws.text_eq.symm.trans htext⟩

end Drawing

end Codemap.Diagram.Components
