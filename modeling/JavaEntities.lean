import JavaEntities.Artifact
import JavaEntities.ClassText
import JavaEntities.CommandLine.Arguments
import JavaEntities.CommandLine.Option
import JavaEntities.CommandLine.Program
import JavaEntities.CommandLine.Report
import JavaEntities.Configuration.Basic
import JavaEntities.Configuration.Check
import JavaEntities.Configuration.Decode
import JavaEntities.Configuration.File
import JavaEntities.Decimal.Nearest
import JavaEntities.Decimal.Shortest
import JavaEntities.DeclaredType
import JavaEntities.Discovery
import JavaEntities.Disk
import JavaEntities.Error
import JavaEntities.FileSystem.Basic
import JavaEntities.FileSystem.Change
import JavaEntities.FileSystem.Node
import JavaEntities.FileSystem.Walk
import JavaEntities.Generation
import JavaEntities.Layout
import JavaEntities.Loading
import JavaEntities.Log.Event
import JavaEntities.Log.Level
import JavaEntities.Main
import JavaEntities.Path
import JavaEntities.Proofs.ClassText.Lines
import JavaEntities.Proofs.ClassText.Recovery
import JavaEntities.Proofs.CommandLine.ExitCode
import JavaEntities.Proofs.Configuration.Check
import JavaEntities.Proofs.Configuration.Decode
import JavaEntities.Proofs.Discovery.Names
import JavaEntities.Proofs.Discovery.Order
import JavaEntities.Proofs.Disk.Again
import JavaEntities.Proofs.Disk.Confined
import JavaEntities.Proofs.Disk.Contents
import JavaEntities.Proofs.Disk.Frame
import JavaEntities.Proofs.Disk.Output
import JavaEntities.Proofs.Error.Steps
import JavaEntities.Proofs.FileSystem.Changes
import JavaEntities.Proofs.FileSystem.Confined
import JavaEntities.Proofs.FileSystem.Contents
import JavaEntities.Proofs.FileSystem.Directories
import JavaEntities.Proofs.FileSystem.Entries
import JavaEntities.Proofs.FileSystem.Everywhere
import JavaEntities.Proofs.FileSystem.Lexical
import JavaEntities.Proofs.FileSystem.Listing
import JavaEntities.Proofs.FileSystem.Onward
import JavaEntities.Proofs.FileSystem.Part
import JavaEntities.Proofs.FileSystem.Remade
import JavaEntities.Proofs.FileSystem.Segments
import JavaEntities.Proofs.FileSystem.Sight
import JavaEntities.Proofs.FileSystem.Trail
import JavaEntities.Proofs.Generation.Again
import JavaEntities.Proofs.Generation.Calls
import JavaEntities.Proofs.Generation.Confined
import JavaEntities.Proofs.Generation.Failures
import JavaEntities.Proofs.Generation.Inputs
import JavaEntities.Proofs.Generation.Interference
import JavaEntities.Proofs.Generation.Loading
import JavaEntities.Proofs.Generation.Names
import JavaEntities.Proofs.Generation.Order
import JavaEntities.Proofs.Generation.Output
import JavaEntities.Proofs.Generation.Paths
import JavaEntities.Proofs.Generation.Plan
import JavaEntities.Proofs.Layout.Names
import JavaEntities.Proofs.List.First
import JavaEntities.Proofs.Loading.Account
import JavaEntities.Proofs.Loading.Outcome
import JavaEntities.Proofs.Loading.Policies
import JavaEntities.Proofs.Loading.Reading
import JavaEntities.Proofs.Path.Order
import JavaEntities.Proofs.Path.Steps
import JavaEntities.Proofs.Schema.Cells
import JavaEntities.Proofs.Schema.LineEnds
import JavaEntities.Proofs.Schema.Rows
import JavaEntities.Proofs.SchemaSet.History
import JavaEntities.Proofs.Settings.Layers
import JavaEntities.Proofs.Sink.Calls
import JavaEntities.Proofs.Sink.History
import JavaEntities.Proofs.Sink.Memory
import JavaEntities.Proofs.SortedMap.History
import JavaEntities.Proofs.SortedMap.Lookup
import JavaEntities.Proofs.SortedMap.Order
import JavaEntities.Proofs.Text.Bytes
import JavaEntities.Proofs.Text.Pieces
import JavaEntities.Proofs.Toml.Keys
import JavaEntities.Schema
import JavaEntities.Schema.Rows
import JavaEntities.SchemaSet
import JavaEntities.Settings
import JavaEntities.Sink
import JavaEntities.SortedMap
import JavaEntities.Text.Blank
import JavaEntities.Text.Json
import JavaEntities.Text.Quoted
import JavaEntities.Text.Split
import JavaEntities.Text.Terminal
import JavaEntities.Text.Visible
import JavaEntities.Toml.Character
import JavaEntities.Toml.Document
import JavaEntities.Toml.Expression
import JavaEntities.Toml.Moment
import JavaEntities.Toml.Number
import JavaEntities.Toml.Quoted
import JavaEntities.Toml.Table
import JavaEntities.Toml.Value
import JavaEntities.Variant
