import BuildFacts.CompileCommand
import BuildFacts.CompileDatabase
import BuildFacts.Document
import BuildFacts.Error
import BuildFacts.Event
import BuildFacts.FileTree
import BuildFacts.Json.Decoder
import BuildFacts.Json.Fault
import BuildFacts.Json.Number
import BuildFacts.Json.Outline.Basic
import BuildFacts.Json.Outline.Read
import BuildFacts.Json.Outline.Scan
import BuildFacts.Json.Pointer
import BuildFacts.Json.Printer
import BuildFacts.Json.Record
import BuildFacts.Json.StringLiteral
import BuildFacts.Json.Value
import BuildFacts.Language
import BuildFacts.Loading
import BuildFacts.Logging
import BuildFacts.MetadataSchema
import BuildFacts.Number.Double
import BuildFacts.Number.Shortest
import BuildFacts.Path
import BuildFacts.Payload
import BuildFacts.Resolve
import BuildFacts.Schema
import BuildFacts.Session
import BuildFacts.SessionFile
import BuildFacts.ShellWords
import BuildFacts.Table
import BuildFacts.Text.Alphanumeric
import BuildFacts.Text.Blank
import BuildFacts.Text.CodeRanges
import BuildFacts.Text.Excerpt
import BuildFacts.Text.Split
import BuildFacts.Text.Unprintable
import BuildFacts.Text.Utf8
import BuildFacts.Toml.Document
import BuildFacts.Toml.Reader
import BuildFacts.Toml.Scalar
import BuildFacts.Toml.Text
import BuildFacts.Toml.Value
import BuildFacts.Proofs.Alike
import BuildFacts.Proofs.Database.Entries
import BuildFacts.Proofs.Database.Export
import BuildFacts.Proofs.Database.Lookup
import BuildFacts.Proofs.Database.Order
import BuildFacts.Proofs.Database.RoundTrip
import BuildFacts.Proofs.Database.Suffix
import BuildFacts.Proofs.Document.Backtrace
import BuildFacts.Proofs.Document.Classification
import BuildFacts.Proofs.Document.Failures
import BuildFacts.Proofs.Document.Files
import BuildFacts.Proofs.Document.FirstFlaw
import BuildFacts.Proofs.Document.Flaws
import BuildFacts.Proofs.Document.Generated
import BuildFacts.Proofs.Document.Given
import BuildFacts.Proofs.Document.Loaded
import BuildFacts.Proofs.Document.Order
import BuildFacts.Proofs.Document.Outcomes
import BuildFacts.Proofs.Document.Properties
import BuildFacts.Proofs.Document.Queries
import BuildFacts.Proofs.Document.Quoting
import BuildFacts.Proofs.Document.ReadBack
import BuildFacts.Proofs.Document.UnusedOverrides
import BuildFacts.Proofs.Document.Validated
import BuildFacts.Proofs.Flag.Concatenation
import BuildFacts.Proofs.Flag.OneReading
import BuildFacts.Proofs.Flag.Scan
import BuildFacts.Proofs.Json.Agreement
import BuildFacts.Proofs.Json.Alike
import BuildFacts.Proofs.Json.Contents
import BuildFacts.Proofs.Json.Digits
import BuildFacts.Proofs.Json.Keys
import BuildFacts.Proofs.Json.Literal
import BuildFacts.Proofs.Json.Pointer
import BuildFacts.Proofs.Json.Printed
import BuildFacts.Proofs.Json.Reading
import BuildFacts.Proofs.Json.Rearranged
import BuildFacts.Proofs.Json.Record
import BuildFacts.Proofs.Json.Reorders
import BuildFacts.Proofs.Json.Same
import BuildFacts.Proofs.Json.Takes
import BuildFacts.Proofs.Json.Token
import BuildFacts.Proofs.Json.Update
import BuildFacts.Proofs.Json.Written
import BuildFacts.Proofs.Loading
import BuildFacts.Proofs.Logging
import BuildFacts.Proofs.Outcome
import BuildFacts.Proofs.Path
import BuildFacts.Proofs.Payload.Agreement
import BuildFacts.Proofs.Payload.Backtrace
import BuildFacts.Proofs.Payload.Line
import BuildFacts.Proofs.Payload.Order
import BuildFacts.Proofs.Payload.Parts
import BuildFacts.Proofs.Payload.Quoting
import BuildFacts.Proofs.Payload.Written
import BuildFacts.Proofs.Schema.Decoding
import BuildFacts.Proofs.Schema.Metadata
import BuildFacts.Proofs.Schema.Order
import BuildFacts.Proofs.Schema.Report
import BuildFacts.Proofs.Schema.Termination
import BuildFacts.Proofs.Schema.Validity
import BuildFacts.Proofs.Schema.Violation
import BuildFacts.Proofs.Session
import BuildFacts.Proofs.ShellWords
import BuildFacts.Proofs.Table
