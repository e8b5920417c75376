import Dbml.Arguments
import Dbml.Command
import Dbml.Config
import Dbml.Data.Datum
import Dbml.Data.Given
import Dbml.Data.Mismatch
import Dbml.Data.Record
import Dbml.Data.Source
import Dbml.Data.Untyped
import Dbml.Document
import Dbml.Document.Reference
import Dbml.Document.Table
import Dbml.FileAccess
import Dbml.FileFormat
import Dbml.FileSystem
import Dbml.Json.Literal
import Dbml.Json.Malformed
import Dbml.Json.Printer
import Dbml.Json.Source
import Dbml.Json.StringToken
import Dbml.Json.Tree
import Dbml.Json.Value
import Dbml.JsonSchema
import Dbml.Load
import Dbml.Main
import Dbml.Naming
import Dbml.Number.Binary64
import Dbml.Number.Shortest
import Dbml.Number.Written
import Dbml.Path
import Dbml.Program
import Dbml.Proofs.Relation.Acceptance
import Dbml.Proofs.Relation.Classification
import Dbml.Proofs.Relation.Coverage
import Dbml.Proofs.Relation.Ends
import Dbml.Proofs.Relation.Facing
import Dbml.Proofs.Relation.Grouping
import Dbml.Proofs.Relation.Reordering
import Dbml.Proofs.Traversal
import Dbml.Reading
import Dbml.Relation.Classification
import Dbml.Relation.Endpoint
import Dbml.Relation.Grouping
import Dbml.RenderError
import Dbml.Schema.ColumnDefault
import Dbml.Schema.Field
import Dbml.Schema.Model
import Dbml.Text.CharTable
import Dbml.Text.Lowercase
import Dbml.Text.Quoted
import Dbml.Text.Shown
import Dbml.Yaml.Anchors
import Dbml.Yaml.BlockScalar
import Dbml.Yaml.Cursor
import Dbml.Yaml.FlowScalar
import Dbml.Yaml.Folding
import Dbml.Yaml.Node
import Dbml.Yaml.Scalar
import Dbml.Yaml.Source
import Dbml.Yaml.Tag
import Dbml.Yaml.Token
import Dbml.Proofs.Document.Outcome
import Dbml.Proofs.Document.Names
import Dbml.Proofs.Relation.Renaming
import Dbml.Proofs.Document.Settings
import Dbml.Proofs.Document.TableNames
import Dbml.Proofs.Json.Printed
import Dbml.Proofs.Text.Quoted
import Dbml.Proofs.Text.Splitting
import Dbml.Proofs.Document.Attributes
import Dbml.Proofs.Document.Lines
import Dbml.Proofs.Document.Blocks
import Dbml.Proofs.Document.Unambiguous
import Dbml.Proofs.Document.JoinTables
import Dbml.Proofs.Document.Paragraphs
import Dbml.Proofs.Document.Texts
import Dbml.Proofs.Relation.Order
import Dbml.Proofs.Document.Layout
import Dbml.Proofs.Document.DistinctTables
import Dbml.Proofs.Data.Presented
import Dbml.Proofs.Data.Untyped
import Dbml.Proofs.Json.Layout
import Dbml.Proofs.Json.Presented
import Dbml.Proofs.Schema.ColumnDefault
import Dbml.Proofs.Schema.Reading
import Dbml.Proofs.Schema.RoundTrip
import Dbml.Proofs.Path
import Dbml.Proofs.FileSystem.Entries
import Dbml.Proofs.FileSystem.Walk
import Dbml.Proofs.FileSystem.Change
import Dbml.Proofs.FileSystem.Action
import Dbml.Proofs.FileSystem.Agreement
import Dbml.Proofs.Command.Reading
import Dbml.Proofs.Command.Effects
import Dbml.Proofs.Command.Repetition
import Dbml.Proofs.Yaml.Scalars
import Dbml.Proofs.Yaml.Scanning
import Dbml.Proofs.Yaml.Tokens
import Dbml.Proofs.Yaml.Nodes
import Dbml.Proofs.Yaml.Presented
import Dbml.Proofs.Schema.Formats
import Dbml.Proofs.Data.Reordering
import Dbml.Proofs.Json.Reordering
import Dbml.Proofs.Json.ReorderedData
import Dbml.Proofs.Json.Rearranged
import Dbml.Proofs.Schema.RearrangedDefault
import Dbml.Proofs.Schema.Rearranged
import Dbml.Proofs.Relation.Parts
import Dbml.Proofs.Relation.Faults
import Dbml.Proofs.Document.Parts
import Dbml.Proofs.Document.RelationRows
import Dbml.Proofs.Config.RoundTrip
import Dbml.Proofs.Command.Initialization
import Dbml.Proofs.Schema.UniqueKeys
import Dbml.Proofs.Schema.Identification
import Dbml.Proofs.Document.Order
import Dbml.Proofs.Document.JoinNames
import Dbml.Proofs.Document.OneToOne
import Dbml.Proofs.Json.Compact
import Dbml.Proofs.Document.Defaults
import Dbml.Proofs.Document.JoinColumns
import Dbml.Proofs.Document.ShownKeys
import Dbml.Proofs.Text.Reading
import Dbml.Proofs.Json.Contents
import Dbml.Proofs.Document.Literals
import Dbml.Proofs.Document.TableLines
import Dbml.Proofs.Json.Integers
import Dbml.Proofs.Schema.NumberDefault
import Dbml.Proofs.Schema.Detection
