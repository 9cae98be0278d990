import InlineReport.Text.Line
import InlineReport.Text.Digit
import InlineReport.Text.Word
import InlineReport.Text.Quoted
import InlineReport.Text.Utf8
import InlineReport.Text.Markup
import InlineReport.Trace.Source
import InlineReport.Trace.Ir
import InlineReport.Trace.RefusalLog
import InlineReport.Model.Build
import InlineReport.View.Page
import InlineReport.View.Summary
import InlineReport.Number.Shortest
import InlineReport.Number.Reading
import InlineReport.Data.Value
import InlineReport.Yaml.Token
import InlineReport.Yaml.Literal
import InlineReport.Yaml.Layout
import InlineReport.Data.Base64
import InlineReport.Yaml.Document
import InlineReport.Settings.Basic
import InlineReport.Settings.Check
import InlineReport.Settings.Merge
import InlineReport.Settings.Preset
import InlineReport.Host.Path
import InlineReport.Host.Basic
import InlineReport.Host.Tree
import InlineReport.Settings.Load
import InlineReport.Settings.Show
import InlineReport.Command.Grammar
import InlineReport.Command.Perform
import InlineReport.Main
import InlineReport.Data.Form
import InlineReport.Proofs.View.Splice
import InlineReport.Proofs.Data.Outcome
import InlineReport.Proofs.Text.Markup
import InlineReport.Proofs.View.Segment
import InlineReport.Proofs.View.Code
import InlineReport.Proofs.Text.Tag
import InlineReport.Proofs.View.Nesting
import InlineReport.Proofs.Text.Search
import InlineReport.Proofs.View.Page
import InlineReport.Proofs.Model.Table
import InlineReport.Proofs.Model.Deopted
import InlineReport.Proofs.Data.Position
import InlineReport.Proofs.Model.Arena
import InlineReport.Proofs.Model.Index
import InlineReport.Proofs.Model.InlineBlock
import InlineReport.Proofs.Model.Sources
import InlineReport.Proofs.Model.ForestCheck
import InlineReport.Proofs.Model.Forest
import InlineReport.Proofs.Model.Placing
import InlineReport.Proofs.Trace.History
import InlineReport.Proofs.Model.Admission
import InlineReport.Proofs.Model.Routing
import InlineReport.Proofs.Model.Reached
import InlineReport.Proofs.Model.Below
import InlineReport.Proofs.View.Listing
import InlineReport.Proofs.View.CopyTree
import InlineReport.Proofs.Data.Tally
import InlineReport.Proofs.Model.Ownership
import InlineReport.Proofs.View.Totals
import InlineReport.Proofs.Text.Reading
import InlineReport.Proofs.Trace.Numeral
import InlineReport.Proofs.Trace.SourceText
import InlineReport.Proofs.Trace.IrText
import InlineReport.Proofs.Model.RunLog
import InlineReport.Proofs.View.Offset
import InlineReport.Proofs.View.Anchor
import InlineReport.Proofs.Number.Whole
import InlineReport.Proofs.Settings.Check
import InlineReport.Proofs.Host.Session
import InlineReport.Proofs.Settings.Load
import InlineReport.Proofs.Host.Tree
import InlineReport.Proofs.Command.Trace
import InlineReport.Proofs.View.Showable
import InlineReport.Proofs.Command.Report
import InlineReport.Proofs.Trace.LongRun
import InlineReport.Proofs.Model.Refused
import InlineReport.Proofs.Command.Verdict
import InlineReport.Proofs.Trace.SourceGrammar
import InlineReport.Proofs.Command.Traced
import InlineReport.Proofs.Data.Written
import InlineReport.Proofs.Settings.Strict
import InlineReport.Proofs.Settings.Soft
import InlineReport.Proofs.Text.Cutting
import InlineReport.Proofs.Trace.Concat
import InlineReport.Proofs.Trace.LogText
import InlineReport.Proofs.Model.Noted
import InlineReport.Proofs.View.Bare
import InlineReport.Proofs.Text.Line
