import VersionedApi.Action.Basic
import VersionedApi.Action.Read
import VersionedApi.Changelog.Build
import VersionedApi.Changelog.Change
import VersionedApi.Changelog.Index
import VersionedApi.Changelog.Text
import VersionedApi.Command
import VersionedApi.Config
import VersionedApi.Decimal.Double
import VersionedApi.Decimal.Ratio
import VersionedApi.Decimal.Shortest
import VersionedApi.Digest.Sha256
import VersionedApi.Directive.Basic
import VersionedApi.Directive.Kind
import VersionedApi.Directive.Read
import VersionedApi.Directive.Serialized
import VersionedApi.Docblock.Source
import VersionedApi.Docblock.Tag
import VersionedApi.Error
import VersionedApi.Fault
import VersionedApi.Field
import VersionedApi.FileTree
import VersionedApi.Graph.Compile
import VersionedApi.Graph.Filter
import VersionedApi.Graph.Serialized
import VersionedApi.Json.Read
import VersionedApi.Json.Record
import VersionedApi.Json.Text
import VersionedApi.Json.Value
import VersionedApi.Lint.Check
import VersionedApi.Lint.Issue
import VersionedApi.Main
import VersionedApi.Path
import VersionedApi.Project
import VersionedApi.Report
import VersionedApi.Representation.Basic
import VersionedApi.Representation.Read
import VersionedApi.Representation.Tree
import VersionedApi.Response
import VersionedApi.Sources
import VersionedApi.Text.Blank
import VersionedApi.Text.Case
import VersionedApi.Text.Cut
import VersionedApi.Text.Prose
import VersionedApi.Text.Word
import VersionedApi.Toml.Document
import VersionedApi.Toml.Record
import VersionedApi.Toml.Token
import VersionedApi.Toml.Value
import VersionedApi.Version.Number
import VersionedApi.Version.Range
import VersionedApi.Proofs.Text.Cut
import VersionedApi.Proofs.Version.Written
import VersionedApi.Proofs.Version.Axis
import VersionedApi.Proofs.Version.Literal
import VersionedApi.Proofs.Version.Grammar
import VersionedApi.Proofs.Changelog.Record
import VersionedApi.Proofs.Changelog.Entries
import VersionedApi.Proofs.Directive.Read
import VersionedApi.Proofs.Version.Timeline
import VersionedApi.Proofs.Directive.Serialized
import VersionedApi.Proofs.Representation.Reuse
import VersionedApi.Proofs.Representation.References
import VersionedApi.Proofs.Representation.Inlining
import VersionedApi.Proofs.Changelog.Build
import VersionedApi.Proofs.Action.Read
import VersionedApi.Proofs.Graph.Compiled
import VersionedApi.Proofs.Graph.FieldHistory
import VersionedApi.Proofs.Graph.ActionHistory
import VersionedApi.Proofs.Graph.Disclosure
import VersionedApi.Proofs.Lint.Loops
import VersionedApi.Proofs.Lint.Agreement
import VersionedApi.Proofs.Docblock.Classes
import VersionedApi.Proofs.Occurrence
import VersionedApi.Proofs.Sources.Representations
import VersionedApi.Proofs.Changelog.Grouping
import VersionedApi.Proofs.Directive.Content
import VersionedApi.Proofs.Directive.RoundTrip
import VersionedApi.Proofs.Action.Parts
import VersionedApi.Proofs.Action.WellFormed
import VersionedApi.Proofs.Action.Breakpoints
import VersionedApi.Proofs.Action.Directives
import VersionedApi.Proofs.Graph.Exclusion
import VersionedApi.Proofs.Representation.Tree
import VersionedApi.Proofs.Representation.Names
import VersionedApi.Proofs.Representation.Exploded
import VersionedApi.Proofs.Action.MediaType
import VersionedApi.Proofs.Graph.MediaHistory
import VersionedApi.Proofs.Graph.Projection
import VersionedApi.Proofs.Graph.Segments
import VersionedApi.Proofs.Graph.Relaxation
import VersionedApi.Proofs.Changelog.Versions
import VersionedApi.Proofs.Config
import VersionedApi.Proofs.Graph.Compilation
import VersionedApi.Proofs.Graph.Integrity
import VersionedApi.Proofs.Directive.Faults
import VersionedApi.Proofs.Blame
import VersionedApi.Proofs.Graph.KeptMedia
import VersionedApi.Proofs.Docblock.Opening
import VersionedApi.Proofs.Docblock.Sections
import VersionedApi.Proofs.Docblock.Written
import VersionedApi.Proofs.Docblock.Blocks
import VersionedApi.Proofs.Shorthand
import VersionedApi.Proofs.Sources.Conservation
import VersionedApi.Proofs.Response
import VersionedApi.Proofs.Field.Members
import VersionedApi.Proofs.Field.Written
import VersionedApi.Proofs.Directive.Scopes
import VersionedApi.Proofs.Representation.Serialized
import VersionedApi.Proofs.Lint.Composition
import VersionedApi.Proofs.Changelog.Rendering
import VersionedApi.Proofs.Changelog.Identity
import VersionedApi.Proofs.Version.Rounding
import VersionedApi.Proofs.Version.Dotted
import VersionedApi.Proofs.Version.Reported
import VersionedApi.Proofs.Text.Dedent
