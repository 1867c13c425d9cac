import ChangeImpact.Announcement
import ChangeImpact.Catalog
import ChangeImpact.ChangeSet
import ChangeImpact.Command.Answer
import ChangeImpact.Command.Arguments
import ChangeImpact.Command.Invocation
import ChangeImpact.Command.Run
import ChangeImpact.Command.Transcript
import ChangeImpact.Decimal.Shortest
import ChangeImpact.Drift
import ChangeImpact.Files.Lookup
import ChangeImpact.Files.Path
import ChangeImpact.Files.Tree
import ChangeImpact.Input
import ChangeImpact.Job
import ChangeImpact.Json.Choice
import ChangeImpact.Json.Decoder
import ChangeImpact.Json.Failure
import ChangeImpact.Json.Literal
import ChangeImpact.Json.Number
import ChangeImpact.Json.Record
import ChangeImpact.Json.Scan
import ChangeImpact.Json.Skim
import ChangeImpact.Json.Value
import ChangeImpact.Listing
import ChangeImpact.Main
import ChangeImpact.Proofs.Announcement.Delivery
import ChangeImpact.Proofs.Announcement.Echo
import ChangeImpact.Proofs.Announcement.Reading
import ChangeImpact.Proofs.ChangeSet.Reading
import ChangeImpact.Proofs.ChangeSet.RoundTrip
import ChangeImpact.Proofs.Command.Channels
import ChangeImpact.Proofs.Command.Course
import ChangeImpact.Proofs.Command.Failing
import ChangeImpact.Proofs.Command.Published
import ChangeImpact.Proofs.Drift.Coverage
import ChangeImpact.Proofs.Drift.Discovery
import ChangeImpact.Proofs.Drift.Sections
import ChangeImpact.Proofs.Input.Limit
import ChangeImpact.Proofs.Job.Joined
import ChangeImpact.Proofs.Json.Agreement
import ChangeImpact.Proofs.Json.Completeness
import ChangeImpact.Proofs.Json.Grammar
import ChangeImpact.Proofs.Json.Layouts
import ChangeImpact.Proofs.Json.Passing
import ChangeImpact.Proofs.Json.Printed
import ChangeImpact.Proofs.Json.Records
import ChangeImpact.Proofs.Json.Soundness
import ChangeImpact.Proofs.Json.Values
import ChangeImpact.Proofs.Json.Walk
import ChangeImpact.Proofs.Listing.Agreement
import ChangeImpact.Proofs.Registry.Chains
import ChangeImpact.Proofs.Registry.Faults
import ChangeImpact.Proofs.Registry.Overlaps
import ChangeImpact.Proofs.Report.Compatibility
import ChangeImpact.Proofs.Report.RoundTrip
import ChangeImpact.Proofs.Report.Rows
import ChangeImpact.Proofs.Report.Table
import ChangeImpact.Proofs.Report.Texts
import ChangeImpact.Proofs.Selection.Counting
import ChangeImpact.Proofs.Selection.Distinct
import ChangeImpact.Proofs.Selection.Entries
import ChangeImpact.Proofs.Selection.Exclusive
import ChangeImpact.Proofs.Selection.Members
import ChangeImpact.Proofs.Selection.Merging
import ChangeImpact.Proofs.Selection.Specification
import ChangeImpact.Proofs.Selection.Tokens
import ChangeImpact.Proofs.Settings.Documents
import ChangeImpact.Proofs.Text.Lines
import ChangeImpact.Proofs.Text.Pieces
import ChangeImpact.Proofs.Text.Words
import ChangeImpact.Proofs.Toml.Lines
import ChangeImpact.Registry
import ChangeImpact.Report.Basic
import ChangeImpact.Report.Decoder
import ChangeImpact.Report.Summary
import ChangeImpact.Selection
import ChangeImpact.Settings
import ChangeImpact.Settings.Source
import ChangeImpact.Text.Affix
import ChangeImpact.Text.Blank
import ChangeImpact.Text.Hex
import ChangeImpact.Text.Invisible
import ChangeImpact.Text.Lines
import ChangeImpact.Text.Padded
import ChangeImpact.Text.Quoted
import ChangeImpact.Text.Split
import ChangeImpact.Text.Terminal
import ChangeImpact.Toml.Reader
import ChangeImpact.Toml.Scalar
import ChangeImpact.Toml.Scan
import ChangeImpact.Toml.Value
