import ComponentLowering.CommandLine
import ComponentLowering.Compilation
import ComponentLowering.Config
import ComponentLowering.Decimal
import ComponentLowering.Descriptor
import ComponentLowering.Diagnostic
import ComponentLowering.Files.Access
import ComponentLowering.Files.Basic
import ComponentLowering.Files.Name
import ComponentLowering.Files.Pattern
import ComponentLowering.Inputs
import ComponentLowering.Json.Basic
import ComponentLowering.Json.Fault
import ComponentLowering.Json.ReadError
import ComponentLowering.Json.Reader
import ComponentLowering.Json.Skip
import ComponentLowering.Json.Stored
import ComponentLowering.Json.Writer
import ComponentLowering.Log
import ComponentLowering.Main
import ComponentLowering.Named
import ComponentLowering.Node.Basic
import ComponentLowering.Node.Path
import ComponentLowering.Node.Query
import ComponentLowering.Node.Reader
import ComponentLowering.Node.Writer
import ComponentLowering.Pass.Basic
import ComponentLowering.Pass.ComplexContent
import ComponentLowering.Pass.Content
import ComponentLowering.Span
import ComponentLowering.Text.Invisible
import ComponentLowering.Text.Quoted
import ComponentLowering.Version
import ComponentLowering.Proofs.Markers
import ComponentLowering.Proofs.Settings
import ComponentLowering.Proofs.Stripping
import ComponentLowering.Proofs.Reading
import ComponentLowering.Proofs.Classification
import ComponentLowering.Proofs.Visit
import ComponentLowering.Proofs.Gates
import ComponentLowering.Proofs.Lowering
import ComponentLowering.Proofs.NormalForm
import ComponentLowering.Proofs.Deletions
import ComponentLowering.Proofs.Survivors
import ComponentLowering.Proofs.Queries
import ComponentLowering.Proofs.Edits
import ComponentLowering.Proofs.Answers
import ComponentLowering.Proofs.Tokens
import ComponentLowering.Proofs.Values
import ComponentLowering.Proofs.Records
import ComponentLowering.Proofs.Skipping
import ComponentLowering.Proofs.Decoding
import ComponentLowering.Proofs.Nesting
import ComponentLowering.Proofs.RoundTrip
import ComponentLowering.Proofs.Format
import ComponentLowering.Proofs.Fields
import ComponentLowering.Proofs.Loading
import ComponentLowering.Proofs.Compiling
import ComponentLowering.Proofs.Recompiling
import ComponentLowering.Proofs.Expansion
import ComponentLowering.Proofs.ExitCode
import ComponentLowering.Proofs.Pipelines
import ComponentLowering.Proofs.Documents
import ComponentLowering.Proofs.Messages
import ComponentLowering.Proofs.Logging
import ComponentLowering.Proofs.Refusals
import ComponentLowering.Proofs.Checking
import ComponentLowering.Proofs.Limits
import ComponentLowering.Proofs.Precedence
import ComponentLowering.Proofs.Cuts
import ComponentLowering.Proofs.CutValues
import ComponentLowering.Proofs.Prefixes
