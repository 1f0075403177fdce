/-
# Reading a configuration

A configuration is a document with a member for each setting; members that are not known are
ignored.  A document of blanks only stands for the defaults.
-/
import Codemap.Config.Basic
import Codemap.Json.Value
import Codemap.Yaml.Decode

namespace Codemap.Config

open Codemap.Yaml

/-! ## 1. Documents -/

/-- The names of the settings. -/
def settingNames : List String :=
  ["entity_confidence_threshold", "include_private", "show_external_types",
    "sequence_max_depth", "parse_timeout_ms", "extra_orm_packages", "layer_overrides",
    "excluded_paths"]

/-- The entries of a mapping in the order of their keys.  Of several entries for a key, the last
counts. -/
def ordered {κ : Type} [BEq κ] (keys : List κ) (entries : List (κ × List String)) :
    List (κ × List String) :=
  keys.filterMap fun k => (entries.reverse.lookup k).map fun v => (k, v)

/-- A mapping from the given keys to lists of texts. -/
def listsOf {κ : Type} [BEq κ] (keys : List κ) (ofName? : String → Option κ) (y : Yaml) :
    Option (List (κ × List String)) :=
  (y.mapOf (fun k => k.text?.bind ofName?) (listOf text?)).map (ordered keys)

/-- The settings that a document gives. -/
def ofYaml? (y : Yaml) : Option Config := do
  let m ← y.record? settingNames
  let threshold ← memberOr m "entity_confidence_threshold" float? default.threshold
  let includePrivate ← memberOr m "include_private" bool? default.includePrivate
  let showExternal ← memberOr m "show_external_types" bool? default.showExternal
  let depth ← memberOr m "sequence_max_depth" nat? default.depth
  let timeout ← memberOr m "parse_timeout_ms" nat? default.timeout
  let packages ← memberOr m "extra_orm_packages" (listsOf Language.all Language.ofName?) []
  let layers ← memberOr m "layer_overrides" (listsOf Layer.all Layer.ofName?) []
  let excluded ← memberOr m "excluded_paths" (listOf text?) []
  return ⟨threshold, includePrivate, showExternal, depth, timeout, packages, layers, excluded⟩

/-- The settings that a text gives, unless they are not valid. -/
def parse (text : String) : Except AnalysisError Config :=
  if (Text.trim text.toList).isEmpty then .ok default
  else
    match (Yaml.parse? text).bind ofYaml? with
    | none => .error .malformedConfig
    | some c => c.validate.map fun _ => c

/-! ## 2. Data values -/

/-- The settings as a data value; `number` writes floating point numbers. -/
def toData (number : Float → Json) (c : Config) : Json := .object
  [("entity_confidence_threshold", number c.threshold),
    ("include_private", .bool c.includePrivate),
    ("show_external_types", .bool c.showExternal),
    ("sequence_max_depth", .ofNat c.depth),
    ("parse_timeout_ms", .ofNat c.timeout),
    ("extra_orm_packages", .object (c.packages.map fun (l, ps) => (l.name, .ofStrings ps))),
    ("layer_overrides", .object (c.layers.map fun (l, ns) => (l.name, .ofStrings ns))),
    ("excluded_paths", .ofStrings c.excluded)]

end Codemap.Config
