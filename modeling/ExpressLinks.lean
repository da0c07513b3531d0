import ExpressLinks.Ascii
import ExpressLinks.Ascii.Document
import ExpressLinks.Ascii.Listing
import ExpressLinks.Ascii.Summary
import ExpressLinks.Calendar
import ExpressLinks.Command.Arguments
import ExpressLinks.Command.Ascii
import ExpressLinks.Command.Links
import ExpressLinks.Command.Project
import ExpressLinks.Command.Resolve
import ExpressLinks.Command.Run
import ExpressLinks.Command.Verdict
import ExpressLinks.Config
import ExpressLinks.Config.Document
import ExpressLinks.Corpus
import ExpressLinks.Decimal.Double
import ExpressLinks.Diagnostic
import ExpressLinks.Diagnostic.Document
import ExpressLinks.FileError
import ExpressLinks.FilePath
import ExpressLinks.FileTree
import ExpressLinks.FirstUse
import ExpressLinks.Ident
import ExpressLinks.Json
import ExpressLinks.Json.Decode
import ExpressLinks.Json.Print
import ExpressLinks.Json.Read
import ExpressLinks.Json.Token
import ExpressLinks.Load
import ExpressLinks.Machine
import ExpressLinks.Main
import ExpressLinks.Manifest
import ExpressLinks.Marker
import ExpressLinks.Marker.Document
import ExpressLinks.Report
import ExpressLinks.Report.Document
import ExpressLinks.Report.Markdown
import ExpressLinks.Report.Summary
import ExpressLinks.Resolution
import ExpressLinks.Schema
import ExpressLinks.Schema.Builtin
import ExpressLinks.Schema.Document
import ExpressLinks.Text.Blank
import ExpressLinks.Text.Digits
import ExpressLinks.Text.Line
import ExpressLinks.Text.Split
import ExpressLinks.Text.Utf8
import ExpressLinks.Toml.Read
import ExpressLinks.Toml.Scalar
import ExpressLinks.Toml.Table
import ExpressLinks.Toml.Value
import ExpressLinks.Validation
import ExpressLinks.World
import ExpressLinks.Yaml.Character
import ExpressLinks.Yaml.Describe
import ExpressLinks.Yaml.Glyph
import ExpressLinks.Yaml.Node
import ExpressLinks.Yaml.Plain
import ExpressLinks.Yaml.Print
import ExpressLinks.Yaml.ScalarText
import ExpressLinks.Yaml.Token
import ExpressLinks.Yaml.Token.Lexer
import ExpressLinks.Yaml.Token.Tag
import ExpressLinks.Yaml.Value
import ExpressLinks.Proofs.Corpus.Filing
import ExpressLinks.Proofs.Schema.Lookup
import ExpressLinks.Proofs.Resolution.Resolvable
import ExpressLinks.Proofs.Marker.Reading
import ExpressLinks.Proofs.Marker.Search
import ExpressLinks.Proofs.FirstUse
import ExpressLinks.Proofs.Marker.Grammar
import ExpressLinks.Proofs.Validation.Recording
import ExpressLinks.Proofs.Validation.Workers
import ExpressLinks.Proofs.Validation.Account
import ExpressLinks.Proofs.Resolution.Failing
import ExpressLinks.Proofs.Resolution.Prefixes
import ExpressLinks.Proofs.Schema.Folding
import ExpressLinks.Proofs.Resolution.LetterCase
import ExpressLinks.Proofs.Marker.Lines
import ExpressLinks.Proofs.Marker.Interleaving
import ExpressLinks.Proofs.Ascii.Violations
import ExpressLinks.Proofs.Corpus.Distinct
import ExpressLinks.Proofs.Corpus.Loading
import ExpressLinks.Proofs.Corpus.Listed
import ExpressLinks.Proofs.Text.Utf8
import ExpressLinks.Proofs.Simulation
import ExpressLinks.Proofs.Ascii.Verdict
import ExpressLinks.Proofs.Resolution.Quoting
import ExpressLinks.Proofs.Report.Links
import ExpressLinks.Proofs.Report.Lines
import ExpressLinks.Proofs.Report.Table
import ExpressLinks.Proofs.Resolution.Context
import ExpressLinks.Proofs.FileTree.Writing
import ExpressLinks.Proofs.Command.Project
import ExpressLinks.Proofs.Command.Delivery
import ExpressLinks.Proofs.Command.Links
import ExpressLinks.Proofs.Schema.Visits
import ExpressLinks.Proofs.Resolution.Limit
import ExpressLinks.Proofs.Resolution.QuotedPath
import ExpressLinks.Proofs.Text.Digits
import ExpressLinks.Proofs.Json.Lexeme
import ExpressLinks.Proofs.Json.Layout
import ExpressLinks.Proofs.Json.Writing
import ExpressLinks.Proofs.Json.Records
import ExpressLinks.Proofs.Report.RoundTrip
import ExpressLinks.Proofs.Schema.Presentation
import ExpressLinks.Proofs.Resolution.EmptySegments
import ExpressLinks.Proofs.Resolution.Transparency
import ExpressLinks.Proofs.Marker.Remains
import ExpressLinks.Proofs.Marker.Placement
import ExpressLinks.Proofs.Ascii.Places
import ExpressLinks.Proofs.Text.LineEndings
import ExpressLinks.Proofs.Marker.LineEndings
import ExpressLinks.Proofs.LineEndings
import ExpressLinks.Proofs.FilePath.Extension
import ExpressLinks.Proofs.Schema.DocumentPath
import ExpressLinks.Proofs.Manifest.Entries
import ExpressLinks.Proofs.Schema.Declaring
import ExpressLinks.Proofs.Resolution.Declaring
import ExpressLinks.Proofs.Report.Entries
import ExpressLinks.Proofs.FilePath.Components
import ExpressLinks.Proofs.FileTree.WellNamed
import ExpressLinks.Proofs.FileTree.Walk
import ExpressLinks.Proofs.Command.Discovery
import ExpressLinks.Proofs.Comparison
import ExpressLinks.Proofs.Ascii.Encodings
