import ModifierFacts.Classify
import ModifierFacts.Registry
import ModifierFacts.Fact.Basic
import ModifierFacts.Decimal.Layout
import ModifierFacts.Text.Quoted
import ModifierFacts.Json.Token
import ModifierFacts.Json.Error
import ModifierFacts.Json.Record
import ModifierFacts.Json.Value
import ModifierFacts.Symbol.Json
import ModifierFacts.Fact.Json
import ModifierFacts.Extraction.Json
import ModifierFacts.Sink.JsonLines
import ModifierFacts.Toml.Document
import ModifierFacts.Config.Json
import ModifierFacts.CommandLine.FileTree
import ModifierFacts.Main
import ModifierFacts.Proofs.Classification
import ModifierFacts.Proofs.Registry
import ModifierFacts.Proofs.Sink.Observed
import ModifierFacts.Proofs.Extraction.Primitive
import ModifierFacts.Proofs.Extraction.Operation
import ModifierFacts.Proofs.Extraction.Unit
import ModifierFacts.Proofs.Extraction.Watched
import ModifierFacts.Proofs.Extraction.Walk
import ModifierFacts.Proofs.Workers.Machine
import ModifierFacts.Proofs.Workers.Sequential
import ModifierFacts.Proofs.Workers.Outcome
import ModifierFacts.Proofs.Workers.Ledger
import ModifierFacts.Proofs.Extraction.Account
import ModifierFacts.Proofs.Extraction.Dangling
import ModifierFacts.Proofs.Extraction.Abort
import ModifierFacts.Proofs.Extraction.Rejection
import ModifierFacts.Proofs.Extraction.CutOff
import ModifierFacts.Proofs.Extraction.Direct
import ModifierFacts.Proofs.Workers.Edges
import ModifierFacts.Proofs.Json.Literal
import ModifierFacts.Proofs.Json.Written
import ModifierFacts.Proofs.Json.ReadBack
import ModifierFacts.Proofs.Json.Yields
import ModifierFacts.Proofs.Json.Exact
import ModifierFacts.Proofs.Json.Schema
import ModifierFacts.Proofs.Json.Layout
import ModifierFacts.Proofs.Fact.Line
import ModifierFacts.Proofs.Sink.Alike
import ModifierFacts.Proofs.Sink.Lines
import ModifierFacts.Proofs.Symbol.ReadBack
import ModifierFacts.Proofs.Symbol.Parts
import ModifierFacts.Proofs.Symbol.Detail
import ModifierFacts.Proofs.Symbol.Schema
import ModifierFacts.Proofs.Extraction.ReadBack
import ModifierFacts.Proofs.CommandLine.Extract
import ModifierFacts.Proofs.Workers.Identity
import ModifierFacts.Proofs.FirstOccurrence
import ModifierFacts.Proofs.ModifierSet.Additions
import ModifierFacts.Proofs.Registry.Requests
import ModifierFacts.Proofs.Sink.Overflow
