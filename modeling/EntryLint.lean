import EntryLint.Main
import EntryLint.Proofs.Check.Binding
import EntryLint.Proofs.Check.Extensions
import EntryLint.Proofs.Check.Layout
import EntryLint.Proofs.Check.Lines
import EntryLint.Proofs.Check.Linting
import EntryLint.Proofs.Check.Order
import EntryLint.Proofs.Check.Report
import EntryLint.Proofs.Check.Run
import EntryLint.Proofs.Command.Arguments
import EntryLint.Proofs.Command.Classify
import EntryLint.Proofs.Command.Endings
import EntryLint.Proofs.Command.Verdict
import EntryLint.Proofs.Config.Build
import EntryLint.Proofs.Config.Defects
import EntryLint.Proofs.Config.File
import EntryLint.Proofs.Config.Reading
import EntryLint.Proofs.Config.Resolve
import EntryLint.Proofs.Config.Severities
import EntryLint.Proofs.Discovery.Contents
import EntryLint.Proofs.Discovery.Files
import EntryLint.Proofs.Discovery.Parts
import EntryLint.Proofs.Discovery.Walk
import EntryLint.Proofs.Entry.Decision
import EntryLint.Proofs.Entry.Extension
import EntryLint.Proofs.Entry.Invariance
import EntryLint.Proofs.Entry.Name
import EntryLint.Proofs.Entry.Trace
import EntryLint.Proofs.Failures
import EntryLint.Proofs.Files.Path
import EntryLint.Proofs.Files.Shape
import EntryLint.Proofs.Files.Suffix
import EntryLint.Proofs.Files.Tree
import EntryLint.Proofs.Ignore.Frame
import EntryLint.Proofs.Ignore.Levels
import EntryLint.Proofs.Ignore.Session
import EntryLint.Proofs.JsonDoc.Grammar
import EntryLint.Proofs.JsonDoc.Printed
import EntryLint.Proofs.NameMap
import EntryLint.Proofs.Parser.Literals
import EntryLint.Proofs.Registry.History
import EntryLint.Proofs.Registry.Run
import EntryLint.Proofs.Schema.Blame
import EntryLint.Proofs.Schema.Conformance
import EntryLint.Proofs.Schema.Content
import EntryLint.Proofs.Schema.Kept
import EntryLint.Proofs.Schema.Load
import EntryLint.Proofs.Schema.Places
import EntryLint.Proofs.Schema.Tuples
import EntryLint.Proofs.SortedNames
import EntryLint.Proofs.Source.Counting
import EntryLint.Proofs.Source.Position
import EntryLint.Proofs.Source.Program
import EntryLint.Proofs.Source.Scan
import EntryLint.Proofs.Source.Sources
import EntryLint.Proofs.Source.Statements
import EntryLint.Proofs.Text.Lower
import EntryLint.Proofs.Text.Segments
import EntryLint.Proofs.Text.Utf8
import EntryLint.Proofs.Traced
