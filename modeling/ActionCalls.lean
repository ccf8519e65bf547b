import ActionCalls.CommandLine.Command
import ActionCalls.Graph.Document
import ActionCalls.Main
import ActionCalls.Proofs.Analysis.OnePass
import ActionCalls.Proofs.Graph.Statistics
import ActionCalls.Proofs.Scan.Exclusion
import ActionCalls.Concurrent
import ActionCalls.Session
import ActionCalls.Settings.Document
import ActionCalls.Settings.File
import ActionCalls.Proofs.Scan.Identity
import ActionCalls.Proofs.Graph.Packages
import ActionCalls.Proofs.Analysis.OwnPackage
import ActionCalls.Proofs.Scan.Totals
import ActionCalls.Proofs.Analysis.NodeKinds
import ActionCalls.Proofs.Scan.Order
import ActionCalls.Proofs.Scan.Union
import ActionCalls.Proofs.Graph.Dependencies
import ActionCalls.Proofs.Graph.Degrees
import ActionCalls.Proofs.Scan.FanOut
import ActionCalls.Proofs.Scan.Conservation
import ActionCalls.Proofs.Scan.Recorded
import ActionCalls.Proofs.Json.Scalars
import ActionCalls.Proofs.Json.RoundTrip
import ActionCalls.Proofs.Json.Records
import ActionCalls.Proofs.Graph.Document
import ActionCalls.Proofs.Toml.Strings
import ActionCalls.Proofs.Toml.Values
import ActionCalls.Proofs.Toml.Document
import ActionCalls.Proofs.Text.Utf8
import ActionCalls.Proofs.Files.Writing
import ActionCalls.Proofs.Settings.Reload
import ActionCalls.Proofs.Files.Making
import ActionCalls.Proofs.Session.Effects
import ActionCalls.Proofs.Session.Interleaving
import ActionCalls.Proofs.Session.CurrentBlacklist
import ActionCalls.Proofs.Graph.FanOut
import ActionCalls.Proofs.Text.Bytes
import ActionCalls.Proofs.Source.Body
import ActionCalls.Proofs.Graph.Qualified
import ActionCalls.Proofs.Source.Calls
import ActionCalls.Proofs.Text.Words
import ActionCalls.Proofs.Source.Signature
import ActionCalls.Proofs.Source.Heads
import ActionCalls.Proofs.Source.PlainDeclaration
import ActionCalls.Proofs.Source.Annotations
import ActionCalls.Proofs.Source.Slicing
import ActionCalls.Proofs.Source.ClassHeader
import ActionCalls.Proofs.Scan.Supertypes
import ActionCalls.Proofs.Files.Steps
import ActionCalls.Proofs.Files.Listing
import ActionCalls.Proofs.Text.Lines
import ActionCalls.Proofs.Blacklist
import ActionCalls.Proofs.Source.Suffixed
import ActionCalls.Proofs.Settings.Extension
import ActionCalls.Proofs.Session.WrittenSettings
import ActionCalls.Proofs.Graph.FirstDeclared
import ActionCalls.Proofs.Source.Nesting
