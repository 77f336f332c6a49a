import MigrationLint.Check.Execution
import MigrationLint.CommandLine.Canonical
import MigrationLint.Main
import MigrationLint.Proofs.Check.Pool
import MigrationLint.Proofs.Glob.Shape
import MigrationLint.Proofs.Php.Edit
import MigrationLint.Proofs.Php.Fault
import MigrationLint.Proofs.Report.Agreement
import MigrationLint.Proofs.Session.Precedence
import MigrationLint.Proofs.Session.Presentation
import MigrationLint.Proofs.Check.Listing
import MigrationLint.Proofs.Check.Record
import MigrationLint.Proofs.Check.Composition
import MigrationLint.Proofs.Check.Locality
import MigrationLint.Proofs.Path.Normal
import MigrationLint.Proofs.Check.Spelling
import MigrationLint.Proofs.Text.Escapes
import MigrationLint.Proofs.Report.Colour
import MigrationLint.Proofs.Settings.Validity
import MigrationLint.Proofs.Check.Narrowing
import MigrationLint.Proofs.Toml.Proper
import MigrationLint.Proofs.Settings.Decoding
import MigrationLint.Proofs.Settings.Showing
import MigrationLint.Proofs.Session.Inspection
import MigrationLint.Proofs.Session.Template
import MigrationLint.Proofs.Php.SourceOrder
import MigrationLint.Proofs.CommandLine.RoundTrip
import MigrationLint.Proofs.Tree.Stack
import MigrationLint.Proofs.Report.Line
import MigrationLint.Proofs.Progress
