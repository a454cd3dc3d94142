import ClassDocs.Batch
import ClassDocs.Expression.ValueJson
import ClassDocs.Settings.Load
import ClassDocs.Verbosity
import ClassDocs.Proofs.Registry.Members
import ClassDocs.Proofs.Aggregation.Steps
import ClassDocs.Proofs.Aggregation.Placement
import ClassDocs.Proofs.Overrides.Chains
import ClassDocs.Proofs.Overrides.Folding
import ClassDocs.Proofs.Graph.Outline
import ClassDocs.Proofs.Graph.Building
import ClassDocs.Proofs.Run.Draft
import ClassDocs.Proofs.Run.WellFormed
import ClassDocs.Proofs.Aggregation.Records
import ClassDocs.Proofs.Run.Members
import ClassDocs.Proofs.Graph.Cycles
import ClassDocs.Proofs.Run.Fatal
import ClassDocs.Proofs.Text.Lowering
import ClassDocs.Proofs.Text.Trimming
import ClassDocs.Proofs.Script.Names
import ClassDocs.Proofs.Registry.Enumerations
import ClassDocs.Proofs.Registry.Idempotence
import ClassDocs.Proofs.Graph.Documented
import ClassDocs.Proofs.Graph.Inheritance
import ClassDocs.Proofs.Overrides.Taking
import ClassDocs.Proofs.Overrides.Exact
import ClassDocs.Proofs.Expression.Classification
import ClassDocs.Proofs.Graph.Revision
import ClassDocs.Proofs.Run.Distinct
import ClassDocs.Proofs.Graph.Additions
import ClassDocs.Proofs.Graph.Completion
import ClassDocs.Proofs.Registry.Sparing
import ClassDocs.Proofs.Overrides.Sparing
import ClassDocs.Proofs.Run.Sparing
import ClassDocs.Proofs.Registry.Related
import ClassDocs.Proofs.Aggregation.Hidden
import ClassDocs.Proofs.Registry.Hidden
import ClassDocs.Proofs.Overrides.Related
import ClassDocs.Proofs.Overrides.Hidden
import ClassDocs.Proofs.Run.Hidden
import ClassDocs.Proofs.Run.Findings
import ClassDocs.Proofs.Run.Muting
import ClassDocs.Proofs.Graph.Externals
import ClassDocs.Proofs.Run.Externals
import ClassDocs.Proofs.Json.Fields
import ClassDocs.Proofs.Graph.Export
import ClassDocs.Proofs.Expression.ReadBack
import ClassDocs.Proofs.Declaration.ReadBack
import ClassDocs.Proofs.Aggregation.Reopening
import ClassDocs.Proofs.Aggregation.Annotations
import ClassDocs.Proofs.Graph.Ancestors
import ClassDocs.Proofs.Graph.Entrance
import ClassDocs.Proofs.Graph.Traversal
import ClassDocs.Proofs.Graph.Filling
import ClassDocs.Proofs.Graph.References
import ClassDocs.Proofs.Graph.ParentOrder
import ClassDocs.Proofs.Registry.Synthesis
import ClassDocs.Proofs.Registry.Expansion
import ClassDocs.Proofs.Registry.EnumTypes
import ClassDocs.Proofs.Overrides.Creation
import ClassDocs.Proofs.Graph.ReturnTypes
import ClassDocs.Proofs.Graph.Releases
import ClassDocs.Proofs.Graph.Repetitions
import ClassDocs.Proofs.Graph.TypeNames
import ClassDocs.Proofs.Comment.Conservation
import ClassDocs.Proofs.Comment.Decoration
import ClassDocs.Proofs.Comment.NameSpecs
import ClassDocs.Proofs.Expression.ComputedKeys
import ClassDocs.Proofs.Expression.Rendering
import ClassDocs.Proofs.Declaration.ConfigMembers
import ClassDocs.Proofs.Comment.Respelling
import ClassDocs.Proofs.Comment.Braces
import ClassDocs.Proofs.Expression.Kinds
import ClassDocs.Proofs.Graph.GlobalClass
import ClassDocs.Proofs.Declaration.Spellings
import ClassDocs.Proofs.Script.Ending
import ClassDocs.Proofs.Script.Cutting
import ClassDocs.Proofs.Script.Agreeing
import ClassDocs.Proofs.Script.AgreeingFunctions
import ClassDocs.Proofs.Script.AgreeingPrimary
import ClassDocs.Proofs.Script.AgreeingOperations
import ClassDocs.Proofs.Script.AgreeingStatements
import ClassDocs.Proofs.Expression.Standalone
import ClassDocs.Proofs.Text.LineNumbers
import ClassDocs.Proofs.Declaration.Locations
