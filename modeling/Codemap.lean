import Codemap.Facts.Analysis
import Codemap.Facts.Data
import Codemap.Json.Text
import Codemap.Config.Basic
import Codemap.Config.Read
import Codemap.Diagram.Components
import Codemap.Diagram.Entities
import Codemap.Entities.Data
import Codemap.Imports.Data
import Codemap.Json.Members
import Codemap.Layers.Data
import Codemap.Layout.Basic
import Codemap.Layout.Scan
import Codemap.Pipeline.Model
import Codemap.Pipeline.Run
import Codemap.Proofs.Order.Ascending
import Codemap.Proofs.Imports.Cycles
import Codemap.Proofs.Diagram.Sequence
import Codemap.Proofs.Entities.Detector
import Codemap.Proofs.Imports.Graph
import Codemap.Proofs.Layers.Violations
import Codemap.Proofs.Pipeline.Run
import Codemap.Proofs.Services.Owner
import Codemap.Proofs.Imports.Edges
import Codemap.Proofs.Imports.EntryPoints
import Codemap.Proofs.Diagram.Basic
import Codemap.Proofs.Diagram.Components
import Codemap.Proofs.Entities.Draft
import Codemap.Proofs.Entities.Evidence
import Codemap.Proofs.Facts.Resolved
import Codemap.Proofs.Syntax.Cursor
import Codemap.Proofs.Facts.Callers
import Codemap.Proofs.Pipeline.Integrity
import Codemap.Proofs.Pipeline.Directory
import Codemap.Proofs.Order.Distinct
import Codemap.Proofs.Syntax.Walk
import Codemap.Proofs.Diagram.Blocks
import Codemap.Proofs.Facts.Go
import Codemap.Proofs.Facts.Java
import Codemap.Proofs.Facts.Places
import Codemap.Proofs.Facts.Python
import Codemap.Proofs.Layers.Cycles
import Codemap.Proofs.Order.Floats
import Codemap.Proofs.Entities.Threshold
import Codemap.Proofs.Json.Keys
import Codemap.Proofs.Json.Without
import Codemap.Proofs.Facts.Data
import Codemap.Proofs.Text.Pieces
import Codemap.Proofs.Layout.Paths
import Codemap.Proofs.Layout.Tree
import Codemap.Proofs.Layout.Scan
import Codemap.Proofs.Imports.Normal
import Codemap.Proofs.Imports.Respelling
import Codemap.Proofs.Diagram.Types
import Codemap.Proofs.Facts.Located
import Codemap.Proofs.Entities.Located
import Codemap.Proofs.Imports.Packages
import Codemap.Proofs.Imports.Specifiers
import Codemap.Proofs.Text.Ends
import Codemap.Proofs.Packages.Known
import Codemap.Proofs.Services.Roots
import Codemap.Proofs.Services.Isolation
import Codemap.Proofs.Services.Classify
import Codemap.Proofs.Layers.Names
import Codemap.Proofs.Layers.Votes
import Codemap.Proofs.Layers.Stability
import Codemap.Proofs.Layers.Upward
import Codemap.Proofs.Diagram.Options
import Codemap.Proofs.Diagram.Names
import Codemap.Proofs.Diagram.Entities
import Codemap.Proofs.Diagram.Labels
import Codemap.Proofs.Text.Between
import Codemap.Proofs.Entities.Wrappers
import Codemap.Proofs.Entities.Annotations
import Codemap.Proofs.Packages.Tables
import Codemap.Proofs.Manifests.ModuleComments
import Codemap.Proofs.Manifests.ProjectFile
import Codemap.Proofs.Packages.Submodules
import Codemap.Proofs.Packages.Added
import Codemap.Proofs.Entities.Naming
import Codemap.Proofs.Facts.EcmaScriptImports
import Codemap.Proofs.Services.Containment
import Codemap.Proofs.Manifests.RequirementLines
import Codemap.Proofs.Syntax.Traversal
import Codemap.Proofs.Layout.Build
import Codemap.Proofs.Imports.Neighbours
import Codemap.Proofs.Entities.Members
