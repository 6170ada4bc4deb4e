import LeadRules.Action
import LeadRules.Binary64
import LeadRules.Calendar
import LeadRules.CommandLine.Command
import LeadRules.CommandLine.Console
import LeadRules.CommandLine.Options
import LeadRules.CommandLine.Run
import LeadRules.Condition.Basic
import LeadRules.Condition.Evaluation
import LeadRules.DateTime.Basic
import LeadRules.DateTime.Iso
import LeadRules.Decimal.Shortest
import LeadRules.Definition
import LeadRules.Directory
import LeadRules.DirectoryFile
import LeadRules.EdgeState
import LeadRules.EdgeStore
import LeadRules.Engine
import LeadRules.Event
import LeadRules.Executor
import LeadRules.Fault
import LeadRules.Field
import LeadRules.Files
import LeadRules.Handler
import LeadRules.Host
import LeadRules.IdleScan
import LeadRules.Json.Reader
import LeadRules.Json.Writer
import LeadRules.KeyLocks
import LeadRules.Lead
import LeadRules.Ledger
import LeadRules.Main
import LeadRules.Operation
import LeadRules.OrderedMap
import LeadRules.Proofs.ActionResults
import LeadRules.Proofs.Amounts
import LeadRules.Proofs.Attempts
import LeadRules.Proofs.Audit
import LeadRules.Proofs.Backing
import LeadRules.Proofs.Calendar
import LeadRules.Proofs.Calls
import LeadRules.Proofs.Chains
import LeadRules.Proofs.Changes
import LeadRules.Proofs.Codec
import LeadRules.Proofs.Comparisons
import LeadRules.Proofs.Courses
import LeadRules.Proofs.Crossings
import LeadRules.Proofs.CursorFile
import LeadRules.Proofs.Dates
import LeadRules.Proofs.Delivery
import LeadRules.Proofs.Digits
import LeadRules.Proofs.DirtyFlags
import LeadRules.Proofs.Disk
import LeadRules.Proofs.EdgeFile
import LeadRules.Proofs.EdgeStates
import LeadRules.Proofs.Edits
import LeadRules.Proofs.Errors
import LeadRules.Proofs.Execution
import LeadRules.Proofs.FailedDeliveries
import LeadRules.Proofs.Failures
import LeadRules.Proofs.Fields
import LeadRules.Proofs.Files
import LeadRules.Proofs.Footprint
import LeadRules.Proofs.History
import LeadRules.Proofs.IdleMarks
import LeadRules.Proofs.IdlePeriods
import LeadRules.Proofs.IdleSweeps
import LeadRules.Proofs.Instants
import LeadRules.Proofs.IsoText
import LeadRules.Proofs.Isolation
import LeadRules.Proofs.JsonNumbers
import LeadRules.Proofs.JsonReading
import LeadRules.Proofs.JsonText
import LeadRules.Proofs.JsonValues
import LeadRules.Proofs.Likeness
import LeadRules.Proofs.Loading
import LeadRules.Proofs.Locks
import LeadRules.Proofs.NewLeads
import LeadRules.Proofs.Numerals
import LeadRules.Proofs.Operation
import LeadRules.Proofs.OrderedMap
import LeadRules.Proofs.Ownership
import LeadRules.Proofs.Passage
import LeadRules.Proofs.Pauses
import LeadRules.Proofs.Places
import LeadRules.Proofs.Reading
import LeadRules.Proofs.Recency
import LeadRules.Proofs.Records
import LeadRules.Proofs.Redelivery
import LeadRules.Proofs.References
import LeadRules.Proofs.Reopening
import LeadRules.Proofs.Repositories
import LeadRules.Proofs.Requests
import LeadRules.Proofs.Restart
import LeadRules.Proofs.Rotation
import LeadRules.Proofs.Rounding
import LeadRules.Proofs.Saving
import LeadRules.Proofs.Selection
import LeadRules.Proofs.Settings
import LeadRules.Proofs.Settled
import LeadRules.Proofs.Sightings
import LeadRules.Proofs.Snapshots
import LeadRules.Proofs.Spellings
import LeadRules.Proofs.Stores
import LeadRules.Proofs.Turn
import LeadRules.Proofs.Twins
import LeadRules.Proofs.View
import LeadRules.Proofs.Visits
import LeadRules.Proofs.WellFormed
import LeadRules.Proofs.Window
import LeadRules.Proofs.ZonedText
import LeadRules.Proofs.Zones
import LeadRules.Repository
import LeadRules.Request
import LeadRules.RoundRobin
import LeadRules.Rule
import LeadRules.Segment
import LeadRules.Settings
import LeadRules.StateFile
import LeadRules.Summary
import LeadRules.Text.Basic
import LeadRules.Text.Blank
import LeadRules.Text.Bytes
import LeadRules.Text.Casing
import LeadRules.Text.CharSet
import LeadRules.Text.Digit
import LeadRules.Text.Markup
import LeadRules.Text.Numeral
import LeadRules.Text.Printable
import LeadRules.Text.Quoted
import LeadRules.Text.Similarity
import LeadRules.Text.Surrogate
import LeadRules.Trigger
import LeadRules.Value.Basic
import LeadRules.Value.Key
import LeadRules.Value.Text
import LeadRules.Vocabulary
import LeadRules.Webhook
import LeadRules.Wire
