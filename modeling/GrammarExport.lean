import GrammarExport.Accessor
import GrammarExport.Address
import GrammarExport.CommandLine.Arguments
import GrammarExport.CommandLine.Command
import GrammarExport.CommandLine.Outcome
import GrammarExport.CommandLine.Usage
import GrammarExport.Context
import GrammarExport.Decimal.Binary64
import GrammarExport.Dict
import GrammarExport.Digest.Sha256
import GrammarExport.Error
import GrammarExport.Exports
import GrammarExport.External
import GrammarExport.Log.Event
import GrammarExport.Log.Filter
import GrammarExport.Log.Line
import GrammarExport.Log.Output
import GrammarExport.Main
import GrammarExport.OutputRecord
import GrammarExport.Proofs.CommandLine.ExitCode
import GrammarExport.Proofs.Composition
import GrammarExport.Proofs.Context.Call
import GrammarExport.Proofs.Context.FailedLoad
import GrammarExport.Proofs.Context.Isolation
import GrammarExport.Proofs.Context.Loading
import GrammarExport.Proofs.Context.Reporting
import GrammarExport.Proofs.ContextsCheck
import GrammarExport.Proofs.Derivation.Expression
import GrammarExport.Proofs.Derivation.Lists
import GrammarExport.Proofs.Derivation.Shown
import GrammarExport.Proofs.Derivation.Source
import GrammarExport.Proofs.Derivation.Statement
import GrammarExport.Proofs.Derivation.TypeName
import GrammarExport.Proofs.Derivation.Value
import GrammarExport.Proofs.Derivation.WellFormed
import GrammarExport.Proofs.Error.Message
import GrammarExport.Proofs.Exports.HostCalls
import GrammarExport.Proofs.Exports.WriteOnce
import GrammarExport.Proofs.External.Boundary
import GrammarExport.Proofs.External.Canonical
import GrammarExport.Proofs.External.History
import GrammarExport.Proofs.External.Provenance
import GrammarExport.Proofs.Grammar.Basic
import GrammarExport.Proofs.Grammar.Conformance
import GrammarExport.Proofs.Grammar.Outline
import GrammarExport.Proofs.Grammar.Part
import GrammarExport.Proofs.Grammar.Rule
import GrammarExport.Proofs.OutputRecord.LastExport
import GrammarExport.Proofs.Publication
import GrammarExport.Proofs.Quotation
import GrammarExport.Proofs.Reading.Expression
import GrammarExport.Proofs.Reading.Gap
import GrammarExport.Proofs.Reading.Literal
import GrammarExport.Proofs.Reading.Pattern
import GrammarExport.Proofs.Reading.Reader
import GrammarExport.Proofs.Reading.Repetition
import GrammarExport.Proofs.Reading.Source
import GrammarExport.Proofs.Reading.Spelling
import GrammarExport.Proofs.Reading.Statement
import GrammarExport.Proofs.Reading.Token
import GrammarExport.Proofs.Reading.TypeName
import GrammarExport.Proofs.Reading.Valid
import GrammarExport.Proofs.Reading.Value
import GrammarExport.Proofs.RoundTrip
import GrammarExport.Proofs.Run
import GrammarExport.Proofs.Settings.Extraction
import GrammarExport.Proofs.Settings.Keys
import GrammarExport.Proofs.Settings.Layering
import GrammarExport.Proofs.Settings.LogLevel
import GrammarExport.Proofs.Settings.Ordered
import GrammarExport.Proofs.Tag.Encoding
import GrammarExport.Proofs.Text.ByteOrder
import GrammarExport.Proofs.Text.LetterCase
import GrammarExport.Proofs.Toml.Ordered
import GrammarExport.Proofs.Variation
import GrammarExport.Report
import GrammarExport.Settings.Basic
import GrammarExport.Settings.Environment
import GrammarExport.Settings.Load
import GrammarExport.Settings.Location
import GrammarExport.Settings.Value
import GrammarExport.Surface
import GrammarExport.Syntax.Expression
import GrammarExport.Syntax.Gap
import GrammarExport.Syntax.Statement
import GrammarExport.Syntax.Token
import GrammarExport.Syntax.Tree
import GrammarExport.Syntax.Value
import GrammarExport.Syntax.View
import GrammarExport.Tag
import GrammarExport.Text.Count
import GrammarExport.Text.Hex
import GrammarExport.Text.JsonValue
import GrammarExport.Text.Lowercase
import GrammarExport.Text.Printable
import GrammarExport.Text.Quoted
import GrammarExport.Text.Reader
import GrammarExport.Text.Record
import GrammarExport.Toml.Document
import GrammarExport.Toml.Scalar
