import LedgerRules.Amount.Basic
import LedgerRules.Amount.Fixed
import LedgerRules.Amount.Reading
import LedgerRules.Amount.Rounding
import LedgerRules.Amount.Shortest
import LedgerRules.Calendar.Date
import LedgerRules.Calendar.Field
import LedgerRules.Calendar.Instant
import LedgerRules.Calendar.Rfc3339
import LedgerRules.Calendar.Stored
import LedgerRules.CommandLine.Arguments
import LedgerRules.CommandLine.Command
import LedgerRules.CommandLine.Failure
import LedgerRules.CommandLine.Image
import LedgerRules.CommandLine.Option
import LedgerRules.CommandLine.Outcome
import LedgerRules.CommandLine.Report
import LedgerRules.CommandLine.Usage
import LedgerRules.Ident
import LedgerRules.Json.Anything
import LedgerRules.Json.Datum
import LedgerRules.Json.Entities
import LedgerRules.Json.Form
import LedgerRules.Json.Number
import LedgerRules.Json.Printer
import LedgerRules.Json.Quoted
import LedgerRules.Json.Reader
import LedgerRules.Json.Shape
import LedgerRules.Ledger.Basic
import LedgerRules.Ledger.Direct
import LedgerRules.Ledger.Entity
import LedgerRules.Ledger.Error
import LedgerRules.Ledger.Page
import LedgerRules.Ledger.Read
import LedgerRules.Ledger.Sample
import LedgerRules.Ledger.Table
import LedgerRules.Ledger.Vault
import LedgerRules.Ledger.Write
import LedgerRules.Lock.Script
import LedgerRules.Lock.Table
import LedgerRules.Main
import LedgerRules.Rules.Changeset
import LedgerRules.Rules.Engine
import LedgerRules.Rules.Rule
import LedgerRules.Rules.Word
import LedgerRules.Run.Apply
import LedgerRules.Run.Call
import LedgerRules.Run.Execute
import LedgerRules.Run.Settings
import LedgerRules.Run.SettingsFile
import LedgerRules.Run.Summary
import LedgerRules.Run.Working
import LedgerRules.Run.World
import LedgerRules.Text.Blank
import LedgerRules.Text.Column
import LedgerRules.Text.Digits
import LedgerRules.Text.Lowercase
import LedgerRules.Text.Occurrence
import LedgerRules.Text.Property.CaseIgnorable
import LedgerRules.Text.Property.Cased
import LedgerRules.Text.Property.GraphemeExtend
import LedgerRules.Text.Property.LowercaseMapping
import LedgerRules.Text.Property.Unprintable
import LedgerRules.Text.Quoted
import LedgerRules.Text.Runs
import LedgerRules.Toml.Document
import LedgerRules.Toml.Node
import LedgerRules.Toml.Quoted
import LedgerRules.Toml.Reader
import LedgerRules.Toml.Scalar
import LedgerRules.Toml.Table
import LedgerRules.Toml.Value
import LedgerRules.Proofs.Calendar.Stored
import LedgerRules.Proofs.Calendar.Written
import LedgerRules.Proofs.Rules.Meaning
import LedgerRules.Proofs.Rules.Credit
import LedgerRules.Proofs.Text.Lowercase
import LedgerRules.Proofs.Rules.Containment
import LedgerRules.Proofs.Text.Order
import LedgerRules.Proofs.Calendar.Order
import LedgerRules.Proofs.Ledger.Reachable
import LedgerRules.Proofs.Ledger.Readable
import LedgerRules.Proofs.Ledger.Listing
import LedgerRules.Proofs.Ledger.Pages
import LedgerRules.Proofs.Ledger.Chronology
import LedgerRules.Proofs.Ledger.Atomic
import LedgerRules.Proofs.Run.Calls
import LedgerRules.Proofs.Run.Setup
import LedgerRules.Proofs.Ledger.Revised
import LedgerRules.Proofs.Run.Settle
import LedgerRules.Proofs.Run.Cover
import LedgerRules.Proofs.Run.Scan
import LedgerRules.Proofs.Run.FullRun
import LedgerRules.Proofs.Run.Isolation
import LedgerRules.Proofs.Run.Mirror
import LedgerRules.Proofs.Run.Interruption
import LedgerRules.Proofs.Run.Plan
import LedgerRules.Proofs.Run.SetupFailure
import LedgerRules.Proofs.Ledger.Agreement
import LedgerRules.Proofs.Run.Course
import LedgerRules.Proofs.Run.Frame
import LedgerRules.Proofs.Run.Report
import LedgerRules.Proofs.Run.Tenants
import LedgerRules.Proofs.Run.Resettle
import LedgerRules.Proofs.Run.Undisturbed
import LedgerRules.Proofs.Run.Rerun
import LedgerRules.Proofs.Run.Convergence
import LedgerRules.Proofs.Run.Preview
import LedgerRules.Proofs.Run.Operations
import LedgerRules.Proofs.Run.Integrity
import LedgerRules.Proofs.Run.Gate
import LedgerRules.Proofs.Run.Selection
import LedgerRules.Proofs.Run.Merge
import LedgerRules.Proofs.Rules.Order
import LedgerRules.Proofs.Rules.Snapshot
import LedgerRules.Proofs.Run.Resolution
import LedgerRules.Proofs.Run.PageReads
import LedgerRules.Proofs.Run.Definitions
import LedgerRules.Proofs.Lock.Held
import LedgerRules.Proofs.Ledger.Filed
import LedgerRules.Proofs.Ledger.Filing
import LedgerRules.Proofs.Ledger.Categories
import LedgerRules.Proofs.Ident
import LedgerRules.Proofs.Calendar.Rfc3339
import LedgerRules.Proofs.Json.Reader
import LedgerRules.Proofs.Json.Plain
import LedgerRules.Proofs.Json.Parts
import LedgerRules.Proofs.Json.RoundTrip
