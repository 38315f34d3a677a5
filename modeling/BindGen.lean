import BindGen.CommandLine.Grammar
import BindGen.CommandLine.Help
import BindGen.CommandLine.Invocation
import BindGen.CommandLine.Reading
import BindGen.CommandLine.Run
import BindGen.Document.Basic
import BindGen.Emitter.Basic
import BindGen.Emitter.BuiltIn
import BindGen.Emitter.Catalog
import BindGen.Emitter.Outline
import BindGen.File.Error
import BindGen.File.Path
import BindGen.File.Tree
import BindGen.Foreign.Symbol
import BindGen.Generation.Basic
import BindGen.Generation.Report
import BindGen.Hash.Sha256
import BindGen.Interface.Basic
import BindGen.Interface.Content
import BindGen.Interface.Declaration
import BindGen.Interface.InPlace
import BindGen.Json.Encoding
import BindGen.Json.Reader
import BindGen.Json.Token
import BindGen.Json.Writer
import BindGen.Language.Basic
import BindGen.Language.Layout
import BindGen.Language.Naming
import BindGen.Language.Pattern
import BindGen.Language.Spelling
import BindGen.Main
import BindGen.Metadata.Group
import BindGen.Metadata.Item
import BindGen.Metadata.Payload
import BindGen.Metadata.Wire
import BindGen.Number.Decimal
import BindGen.Number.Double
import BindGen.Number.Shortest
import BindGen.Package.Graph
import BindGen.Product
import BindGen.Proofs.Document.Uses
import BindGen.Proofs.Emitter.Confinement
import BindGen.Proofs.Emitter.Discovery
import BindGen.Proofs.Emitter.Docstrings
import BindGen.Proofs.Emitter.FoldOrder
import BindGen.Proofs.Emitter.Imports
import BindGen.Proofs.Emitter.Outputs
import BindGen.Proofs.File.Growth
import BindGen.Proofs.File.Inside
import BindGen.Proofs.File.Twins
import BindGen.Proofs.Foreign.Ambiguity
import BindGen.Proofs.Generation.Dispatch
import BindGen.Proofs.Generation.LastWriter
import BindGen.Proofs.Generation.Trace
import BindGen.Proofs.Interface.Filed
import BindGen.Proofs.Interface.FoldGroups
import BindGen.Proofs.Interface.Folding
import BindGen.Proofs.Interface.Frame
import BindGen.Proofs.Interface.InPlace
import BindGen.Proofs.Interface.Merge
import BindGen.Proofs.Interface.Surface
import BindGen.Proofs.Interface.Ties
import BindGen.Proofs.Json.Number
import BindGen.Proofs.Json.Quoted
import BindGen.Proofs.Json.Read
import BindGen.Proofs.Json.Scalar
import BindGen.Proofs.Json.Value
import BindGen.Proofs.Language.TypeText
import BindGen.Proofs.Metadata.Crates
import BindGen.Proofs.Metadata.Extraction
import BindGen.Proofs.Metadata.Grouping
import BindGen.Proofs.Metadata.Partition
import BindGen.Proofs.Metadata.Payload
import BindGen.Proofs.Metadata.Shape
import BindGen.Proofs.Metadata.Truncation
import BindGen.Proofs.Metadata.Typed
import BindGen.Proofs.Metadata.TypedPayload
import BindGen.Proofs.Metadata.Windows
import BindGen.Proofs.Metadata.Wire
import BindGen.Proofs.Number.Shortest
import BindGen.Proofs.Package.Entries
import BindGen.Proofs.Package.Listing
import BindGen.Proofs.Run.Corresponds
import BindGen.Proofs.Run.Delivery
import BindGen.Proofs.Run.Fold
import BindGen.Proofs.Run.Lockstep
import BindGen.Proofs.Run.Outcome
import BindGen.Proofs.Run.Trace
import BindGen.Proofs.Settings.Alone
import BindGen.Proofs.Settings.Growth
import BindGen.Proofs.Settings.Identity
import BindGen.Proofs.Settings.IdentityFrame
import BindGen.Proofs.Settings.Laid
import BindGen.Proofs.Settings.Layers
import BindGen.Proofs.Settings.Loaded
import BindGen.Proofs.Settings.Merged
import BindGen.Proofs.Settings.OwnValues
import BindGen.Proofs.Settings.Paths
import BindGen.Proofs.Settings.Precedence
import BindGen.Proofs.Settings.Region
import BindGen.Proofs.Settings.Taken
import BindGen.Proofs.Source.Alike
import BindGen.Proofs.Source.Found
import BindGen.Proofs.Source.Inheritance
import BindGen.Proofs.Source.Inputs
import BindGen.Proofs.Source.LinkOrder
import BindGen.Proofs.Source.ModuleNames
import BindGen.Proofs.Source.Narrowed
import BindGen.Proofs.Source.Stages
import BindGen.Proofs.Template.Docstrings
import BindGen.Proofs.Template.ForeignSurface
import BindGen.Proofs.Template.Members
import BindGen.Proofs.Template.Python
import BindGen.Proofs.Template.Writable
import BindGen.Proofs.Text.Case
import BindGen.Proofs.Text.Pieces
import BindGen.Proofs.Text.Utf8
import BindGen.Proofs.Toml.Plain
import BindGen.Proofs.Udl.BlankTypes
import BindGen.Proofs.Udl.Bodies
import BindGen.Proofs.Udl.ErrorLines
import BindGen.Proofs.Udl.MemberReaders
import BindGen.Proofs.Udl.Members
import BindGen.Proofs.Udl.ReadBack
import BindGen.Proofs.Udl.Sequence
import BindGen.Proofs.Udl.TypeTokens
import BindGen.Proofs.Udl.Typed
import BindGen.Proofs.Udl.Written
import BindGen.Proofs.Value.Comparable
import BindGen.Proofs.Value.Order
import BindGen.Proofs.Value.Parts
import BindGen.Proofs.Value.Sole
import BindGen.Proofs.Value.Table
import BindGen.Proofs.Value.View
import BindGen.Proofs.Yaml.Nodes
import BindGen.Proofs.Yaml.Values
import BindGen.Run.Journal
import BindGen.Run.MessagePattern
import BindGen.Run.Workspace
import BindGen.Service.Answer
import BindGen.Service.Body
import BindGen.Service.Description
import BindGen.Settings.Basic
import BindGen.Settings.Inheritance
import BindGen.Settings.Load
import BindGen.Settings.Merge
import BindGen.Source.Basic
import BindGen.Source.Load
import BindGen.Source.Summary
import BindGen.Template.Basic
import BindGen.Template.CHeader
import BindGen.Template.Kotlin
import BindGen.Template.Python
import BindGen.Template.Render
import BindGen.Template.Ruby
import BindGen.Template.Swift
import BindGen.Text.Blank
import BindGen.Text.Broken
import BindGen.Text.Case
import BindGen.Text.CaseTable
import BindGen.Text.Lines
import BindGen.Text.Numeral
import BindGen.Text.PrintableTable
import BindGen.Text.Utf8
import BindGen.Text.Word
import BindGen.Text.WordTable
import BindGen.Toml.Document
import BindGen.Toml.Lexeme
import BindGen.Toml.Number
import BindGen.Toml.Value
import BindGen.Udl.Attributes
import BindGen.Udl.Definition
import BindGen.Udl.File
import BindGen.Udl.Member
import BindGen.Udl.Reader
import BindGen.Value.Basic
import BindGen.Value.Display
import BindGen.Value.Fault
import BindGen.Value.Link
import BindGen.Value.Moment
import BindGen.Value.Scalar
import BindGen.Value.Sort
import BindGen.Value.Table
import BindGen.Yaml.Block
import BindGen.Yaml.Cursor
import BindGen.Yaml.Implicit
import BindGen.Yaml.Node
import BindGen.Yaml.Plain
import BindGen.Yaml.Quoted
import BindGen.Yaml.Scalar
import BindGen.Yaml.Tag
import BindGen.Yaml.Token
import BindGen.Yaml.Value
import BindGen.Proofs.Settings.Opposite
