import FormatCheck.Argument.DeclaredType
import FormatCheck.Argument.Family
import FormatCheck.Argument.Group
import FormatCheck.Argument.Primitive
import FormatCheck.Argument.Signature
import FormatCheck.Batch.Entry
import FormatCheck.Batch.Escape
import FormatCheck.Call.Check
import FormatCheck.Call.Problem
import FormatCheck.Call.Resolution
import FormatCheck.Call.Tracker
import FormatCheck.Code
import FormatCheck.CommandLine.Command
import FormatCheck.CommandLine.Directory
import FormatCheck.CommandLine.Options
import FormatCheck.CommandLine.Outcome
import FormatCheck.CommandLine.Source
import FormatCheck.Format.Conversion
import FormatCheck.Format.Fault
import FormatCheck.Format.Flag
import FormatCheck.Format.Input
import FormatCheck.Format.Reader
import FormatCheck.Format.Rules
import FormatCheck.Format.Scanner
import FormatCheck.Format.Segment
import FormatCheck.Format.Specifier
import FormatCheck.Main
import FormatCheck.Proofs.Argument.Acceptance
import FormatCheck.Proofs.Argument.Classification
import FormatCheck.Proofs.Argument.SourceNames
import FormatCheck.Proofs.Argument.Suggestion
import FormatCheck.Proofs.Batch.Agreement
import FormatCheck.Proofs.Batch.Escapes
import FormatCheck.Proofs.Batch.Refusal
import FormatCheck.Proofs.Batch.Writing
import FormatCheck.Proofs.Call.Arity
import FormatCheck.Proofs.Call.Extension
import FormatCheck.Proofs.Call.History
import FormatCheck.Proofs.Call.Interchange
import FormatCheck.Proofs.Call.Reference
import FormatCheck.Proofs.Call.Rewording
import FormatCheck.Proofs.Call.Verdict
import FormatCheck.Proofs.CommandLine.Placement
import FormatCheck.Proofs.Format.Canonical
import FormatCheck.Proofs.Format.Composition
import FormatCheck.Proofs.Format.Decomposition
import FormatCheck.Proofs.Format.Parts
import FormatCheck.Proofs.Format.Passage
import FormatCheck.Proofs.Format.Reprinting
import FormatCheck.Proofs.Format.Shortest
import FormatCheck.Proofs.Format.Specifiers
import FormatCheck.Proofs.Format.Spelling
import FormatCheck.Proofs.Format.Tiling
import FormatCheck.Proofs.Format.Unknown
import FormatCheck.Proofs.Format.Wording
import FormatCheck.Proofs.Report.Certainty
import FormatCheck.Proofs.Report.Colors
import FormatCheck.Proofs.Report.Completion
import FormatCheck.Proofs.Report.Decoding
import FormatCheck.Proofs.Report.Grammar
import FormatCheck.Proofs.Report.Location
import FormatCheck.Proofs.Report.Mending
import FormatCheck.Proofs.Report.PlainLines
import FormatCheck.Proofs.Report.Pointing
import FormatCheck.Proofs.Report.Prefixing
import FormatCheck.Proofs.Report.Rendering
import FormatCheck.Proofs.Report.Repair
import FormatCheck.Proofs.Report.Replacement
import FormatCheck.Proofs.Report.Simultaneous
import FormatCheck.Proofs.Report.Substitutions
import FormatCheck.Proofs.Text.Codes
import FormatCheck.Proofs.Text.Visible
import FormatCheck.Report.Diagnosis
import FormatCheck.Report.Diagnostic
import FormatCheck.Report.Fix
import FormatCheck.Report.Json
import FormatCheck.Report.Listing
import FormatCheck.Report.Page
import FormatCheck.Report.Snippet
import FormatCheck.Report.Terminal
import FormatCheck.Report.Writer
import FormatCheck.Span
import FormatCheck.Text.Blank
import FormatCheck.Text.Bytes
import FormatCheck.Text.Decimal
import FormatCheck.Text.Escaped
import FormatCheck.Text.Lines
