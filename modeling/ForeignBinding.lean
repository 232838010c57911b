import ForeignBinding.Address
import ForeignBinding.Attach.Function
import ForeignBinding.Attach.Invoker
import ForeignBinding.Attach.Variable
import ForeignBinding.Command.Basic
import ForeignBinding.Command.Line
import ForeignBinding.Declaration.Apply
import ForeignBinding.Declaration.Argument
import ForeignBinding.Declaration.Basic
import ForeignBinding.Declaration.Parse
import ForeignBinding.Document
import ForeignBinding.Document.Json
import ForeignBinding.Document.Yaml
import ForeignBinding.Enumeration
import ForeignBinding.Failure
import ForeignBinding.Failure.Cause
import ForeignBinding.Files.Basic
import ForeignBinding.Files.Path
import ForeignBinding.Files.Tree
import ForeignBinding.Layout.Basic
import ForeignBinding.Layout.Define
import ForeignBinding.Layout.Placement
import ForeignBinding.Layout.Progress
import ForeignBinding.Layout.Spec
import ForeignBinding.Library.Name
import ForeignBinding.Library.Platform
import ForeignBinding.Library.Search
import ForeignBinding.Library.Table
import ForeignBinding.Main
import ForeignBinding.Manifest
import ForeignBinding.Manifest.Check
import ForeignBinding.Manifest.Declarations
import ForeignBinding.Manifest.Types
import ForeignBinding.Memory.Access
import ForeignBinding.Memory.Basic
import ForeignBinding.Memory.Bytes
import ForeignBinding.Memory.Value
import ForeignBinding.NameMap
import ForeignBinding.Number.Binary
import ForeignBinding.Number.Decimal
import ForeignBinding.Number.Text
import ForeignBinding.Registry
import ForeignBinding.Report
import ForeignBinding.Resolver
import ForeignBinding.Scope
import ForeignBinding.Text.Visible
import ForeignBinding.Type.Composite
import ForeignBinding.Type.Convention
import ForeignBinding.Type.Descriptor
import ForeignBinding.Type.Prim
import ForeignBinding.Type.PrimTable
import ForeignBinding.Type.Ref
import ForeignBinding.Yaml.Lexer
import ForeignBinding.Yaml.Node
import ForeignBinding.Yaml.Scalar
import ForeignBinding.Yaml.Source
import ForeignBinding.Yaml.Tag
import ForeignBinding.Yaml.Text
import ForeignBinding.Yaml.Token
import ForeignBinding.Yaml.Value
import ForeignBinding.Proofs.Attempt
import ForeignBinding.Proofs.Document
import ForeignBinding.Proofs.Lists
import ForeignBinding.Proofs.Layout.Exact
import ForeignBinding.Proofs.Definitions
import ForeignBinding.Proofs.Layout.Definition
import ForeignBinding.Proofs.Layout.Refusal
import ForeignBinding.Proofs.Memory.Frame
import ForeignBinding.Proofs.Memory.Isolation
import ForeignBinding.Proofs.Scope.Operations
import ForeignBinding.Proofs.Session
import ForeignBinding.Proofs.Scope.Actions
import ForeignBinding.Proofs.Declaration.Failure
import ForeignBinding.Proofs.Scope.Ancestors
import ForeignBinding.Proofs.Scope.Snapshot
import ForeignBinding.Proofs.Scope.Shadowing
import ForeignBinding.Proofs.Attach.Variable
import ForeignBinding.Proofs.Layout.Embedding
import ForeignBinding.Proofs.Memory.Reading
import ForeignBinding.Proofs.Memory.Path
import ForeignBinding.Proofs.Layout.Alignment
import ForeignBinding.Proofs.Memory.Writing
import ForeignBinding.Proofs.Memory.Words
import ForeignBinding.Proofs.Memory.ReadWrite
import ForeignBinding.Proofs.Memory.Booleans
import ForeignBinding.Proofs.Memory.Copying
import ForeignBinding.Proofs.Library.Resolution
import ForeignBinding.Proofs.Attach.Function
import ForeignBinding.Proofs.Manifest.Types
import ForeignBinding.Proofs.Declaration.Spelling
import ForeignBinding.Proofs.Declaration.Canonical
import ForeignBinding.Proofs.Declaration.Lifecycle
import ForeignBinding.Proofs.Scope.Frames
import ForeignBinding.Proofs.Scope.EnumValues
import ForeignBinding.Proofs.Scope.Coherence
import ForeignBinding.Proofs.Scope.Passable
import ForeignBinding.Proofs.Scope.Genuine
import ForeignBinding.Proofs.Report
import ForeignBinding.Proofs.Attach.Symbol
import ForeignBinding.Proofs.Declaration.Interleaving
import ForeignBinding.Proofs.Declaration.Change
import ForeignBinding.Proofs.Declaration.Commutation
import ForeignBinding.Proofs.Scope.EnumStorage
import ForeignBinding.Proofs.Layout.Specification
import ForeignBinding.Proofs.Library.Naming
import ForeignBinding.Proofs.Manifest.Numbering
import ForeignBinding.Proofs.Scope.Aliases
import ForeignBinding.Proofs.Enumeration
import ForeignBinding.Proofs.Type.Display
