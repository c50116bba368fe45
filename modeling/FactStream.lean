import FactStream.CommandLine.Arguments
import FactStream.CommandLine.Listing
import FactStream.CommandLine.Run
import FactStream.Dictionary
import FactStream.Disk
import FactStream.Fact
import FactStream.Failure
import FactStream.FileName
import FactStream.Ignore.Fault
import FactStream.Ignore.Glob
import FactStream.Ignore.Rules
import FactStream.Json
import FactStream.Key
import FactStream.Language
import FactStream.Language.CSharp
import FactStream.Language.CSharp.Kinds
import FactStream.Language.CSharp.Literal
import FactStream.Language.Php
import FactStream.Language.Php.Kinds
import FactStream.Language.Php.Literal
import FactStream.Language.TypeScript
import FactStream.Language.TypeScript.Kinds
import FactStream.Language.TypeScript.Literal
import FactStream.LogFilter
import FactStream.Main
import FactStream.Notice
import FactStream.Number.Decimal
import FactStream.Number.Double
import FactStream.Number.Integer
import FactStream.Number.Layout
import FactStream.Number.Shortest
import FactStream.Path
import FactStream.Project
import FactStream.Proofs.ByteOrder
import FactStream.Proofs.Cleared
import FactStream.Proofs.Counter
import FactStream.Proofs.Coverage
import FactStream.Proofs.Cursor
import FactStream.Proofs.Cut
import FactStream.Proofs.Decimals
import FactStream.Proofs.Delivery
import FactStream.Proofs.Depth
import FactStream.Proofs.Diagnosis
import FactStream.Proofs.Dictionary
import FactStream.Proofs.DocumentOrder
import FactStream.Proofs.Ending
import FactStream.Proofs.Entries
import FactStream.Proofs.Escapes
import FactStream.Proofs.Extensions
import FactStream.Proofs.FactForest
import FactStream.Proofs.Failing
import FactStream.Proofs.Folder
import FactStream.Proofs.Forest
import FactStream.Proofs.Harvest
import FactStream.Proofs.Json
import FactStream.Proofs.Kinds
import FactStream.Proofs.Layout
import FactStream.Proofs.Lineage
import FactStream.Proofs.Members
import FactStream.Proofs.Nearest
import FactStream.Proofs.Nesting
import FactStream.Proofs.Notices
import FactStream.Proofs.Numerals
import FactStream.Proofs.Offsets
import FactStream.Proofs.Outline
import FactStream.Proofs.Owners
import FactStream.Proofs.Picking
import FactStream.Proofs.Places
import FactStream.Proofs.Pruned
import FactStream.Proofs.RawStrings
import FactStream.Proofs.Reach
import FactStream.Proofs.Reached
import FactStream.Proofs.Reading
import FactStream.Proofs.RealTexts
import FactStream.Proofs.Renaming
import FactStream.Proofs.Scanned
import FactStream.Proofs.Selection
import FactStream.Proofs.Separation
import FactStream.Proofs.Skipped
import FactStream.Proofs.Slice
import FactStream.Proofs.Spelling
import FactStream.Proofs.Stream
import FactStream.Proofs.Totals
import FactStream.Proofs.Trace
import FactStream.Proofs.TrunkKey
import FactStream.Proofs.Views
import FactStream.Proofs.Visits
import FactStream.Proofs.Wire
import FactStream.PropertyRule
import FactStream.ReadError
import FactStream.Registry
import FactStream.Rule
import FactStream.Scan
import FactStream.Settings.Basic
import FactStream.Settings.File
import FactStream.Settings.Load
import FactStream.Sink
import FactStream.Text.Ascii
import FactStream.Text.Blank
import FactStream.Text.Case
import FactStream.Text.Escape
import FactStream.Text.Reader
import FactStream.Text.Slice
import FactStream.Toml.Document
import FactStream.Toml.Scalar
import FactStream.Toml.Table
import FactStream.Toml.Value
import FactStream.Tree.Diagnosis
import FactStream.Tree.Node
import FactStream.Tree.Query
import FactStream.Tree.Site
import FactStream.Value
import FactStream.View
import FactStream.Walk
import FactStream.Wire
