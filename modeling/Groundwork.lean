import Groundwork.Asset
import Groundwork.Build
import Groundwork.Catalog
import Groundwork.Command.Arguments
import Groundwork.Command.Create
import Groundwork.Decimal.Binary64
import Groundwork.Decimal.Numeral
import Groundwork.Decimal.Shortest
import Groundwork.Decimal.Style
import Groundwork.Dict
import Groundwork.Disk
import Groundwork.Environment
import Groundwork.Failure
import Groundwork.Formatter
import Groundwork.Jinja.Builtin
import Groundwork.Jinja.Fault
import Groundwork.Jinja.Lexeme
import Groundwork.Jinja.Reader
import Groundwork.Jinja.Render
import Groundwork.Jinja.Template
import Groundwork.Jinja.Value
import Groundwork.Libraries
import Groundwork.Main
import Groundwork.Manifest
import Groundwork.Module
import Groundwork.NamePool
import Groundwork.Number
import Groundwork.Output
import Groundwork.Placeholder
import Groundwork.Platform
import Groundwork.Proofs.Acceptance
import Groundwork.Proofs.Ancestor
import Groundwork.Proofs.Asset
import Groundwork.Proofs.AssetRecord
import Groundwork.Proofs.Binary64
import Groundwork.Proofs.Change
import Groundwork.Proofs.Command
import Groundwork.Proofs.Completion
import Groundwork.Proofs.Creation
import Groundwork.Proofs.Declaration
import Groundwork.Proofs.Dict
import Groundwork.Proofs.EmptyResource
import Groundwork.Proofs.Environment
import Groundwork.Proofs.Equality
import Groundwork.Proofs.Filling
import Groundwork.Proofs.FirstDeclaration
import Groundwork.Proofs.Flattening
import Groundwork.Proofs.FollowUp
import Groundwork.Proofs.Frame
import Groundwork.Proofs.History
import Groundwork.Proofs.InPlace
import Groundwork.Proofs.InstanceName
import Groundwork.Proofs.Intersection
import Groundwork.Proofs.KeyText
import Groundwork.Proofs.Keyed
import Groundwork.Proofs.Law
import Groundwork.Proofs.Lawful
import Groundwork.Proofs.Legible
import Groundwork.Proofs.Lookup
import Groundwork.Proofs.Merging
import Groundwork.Proofs.Mirror
import Groundwork.Proofs.Module
import Groundwork.Proofs.NamePool
import Groundwork.Proofs.Naming
import Groundwork.Proofs.NumberText
import Groundwork.Proofs.Outcome
import Groundwork.Proofs.Overlay
import Groundwork.Proofs.Partition
import Groundwork.Proofs.Path
import Groundwork.Proofs.Placeholder
import Groundwork.Proofs.Platform
import Groundwork.Proofs.Provider
import Groundwork.Proofs.ReadScope
import Groundwork.Proofs.Reading
import Groundwork.Proofs.Rebuilding
import Groundwork.Proofs.Record
import Groundwork.Proofs.Reference
import Groundwork.Proofs.Rendering
import Groundwork.Proofs.Rereading
import Groundwork.Proofs.Resource
import Groundwork.Proofs.Run
import Groundwork.Proofs.Save
import Groundwork.Proofs.SavedTree
import Groundwork.Proofs.Selection
import Groundwork.Proofs.Shortest
import Groundwork.Proofs.StarterCode
import Groundwork.Proofs.Tagging
import Groundwork.Proofs.Target
import Groundwork.Proofs.Tree
import Groundwork.Proofs.Unresolved
import Groundwork.Proofs.Value
import Groundwork.Proofs.Variable
import Groundwork.Proofs.VariableRecord
import Groundwork.Proofs.Walk
import Groundwork.Provider
import Groundwork.Resource
import Groundwork.Settings
import Groundwork.Starter
import Groundwork.Text.CodePoints
import Groundwork.Text.LetterCase
import Groundwork.Text.Quoted
import Groundwork.Value
import Groundwork.Value.Datum
import Groundwork.Variable
import Groundwork.Yaml.Cursor
import Groundwork.Yaml.Datum
import Groundwork.Yaml.Document
import Groundwork.Yaml.Fault
import Groundwork.Yaml.Lexeme
import Groundwork.Yaml.Node
import Groundwork.Yaml.Scalar
import Groundwork.Yaml.Scan
import Groundwork.Yaml.Style
import Groundwork.Yaml.Writer
