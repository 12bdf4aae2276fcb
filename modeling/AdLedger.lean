import AdLedger.Main
import AdLedger.Proofs.Sql.Table
import AdLedger.Proofs.Sql.Ordering
import AdLedger.Proofs.Store.Contents
import AdLedger.Proofs.Store.Commands
import AdLedger.Proofs.Store.Atomicity
import AdLedger.Proofs.Store.LaterVersions
import AdLedger.Proofs.Store.Versions
import AdLedger.Proofs.Store.Coordination
import AdLedger.Proofs.Store.Opening
import AdLedger.Proofs.Store.History
import AdLedger.Proofs.Bucket
import AdLedger.Proofs.Store.Placements
import AdLedger.Proofs.Store.Corruption
import AdLedger.Proofs.Sql.Schema
import AdLedger.Proofs.Store.Reopening
import AdLedger.Proofs.Store.Sharing
import AdLedger.Proofs.Files
import AdLedger.Proofs.Cli.Replacing
import AdLedger.Proofs.Cli.Sparing
import AdLedger.Proofs.Sql.WellFormed
import AdLedger.Proofs.Store.Attempts
import AdLedger.Proofs.Store.Hooks
import AdLedger.Proofs.Time.Platform
import AdLedger.Proofs.Store.RoundTrip
import AdLedger.Proofs.Settings.Handle
import AdLedger.Proofs.Text.Digits
import AdLedger.Proofs.Time.Reading
import AdLedger.Proofs.Json.Scanning
import AdLedger.Proofs.Json.Reading
import AdLedger.Proofs.Json.Gaps
import AdLedger.Proofs.Json.Contexts
import AdLedger.Proofs.Json.Members
import AdLedger.Proofs.Item.Lenient
import AdLedger.Proofs.Item.Reading
import AdLedger.Proofs.Cli.Keeping
import AdLedger.Proofs.Cli.Export
import AdLedger.Proofs.Observer.Delivery
import AdLedger.Proofs.Store.Batching
import AdLedger.Proofs.Store.Mistyped
import AdLedger.Proofs.Time.Counting
import AdLedger.Proofs.Time.Order
import AdLedger.Proofs.Store.TimeRanges
import AdLedger.Proofs.Store.Retention
import AdLedger.Proofs.Store.Winners
import AdLedger.Proofs.Cli.Import
import AdLedger.Proofs.Names.EditDistance
import AdLedger.Proofs.Text.Folding
import AdLedger.Proofs.Names.Vocabulary
import AdLedger.Proofs.Bucket.Rearranging
import AdLedger.Proofs.Cli.Ranking
import AdLedger.Proofs.Cli.Recording
import AdLedger.Proofs.Store.Resaving
import AdLedger.Proofs.Cli.Hints
import AdLedger.Proofs.Cli.Changing
import AdLedger.Proofs.Cli.Window
import AdLedger.Proofs.Store.IndexNames
import AdLedger.Proofs.Cli.Variables
import AdLedger.Proofs.Cli.Locations
