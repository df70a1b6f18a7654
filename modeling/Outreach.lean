import Outreach.Delivery.Timetable
import Outreach.Main
import Outreach.Uuid
import Outreach.Proofs.Delivery.Effects
import Outreach.Proofs.Delivery.Order
import Outreach.Proofs.Delivery.Supersession
import Outreach.Proofs.Delivery.Deeds
import Outreach.Proofs.Delivery.History
import Outreach.Proofs.Delivery.Tracking
import Outreach.Proofs.Delivery.Ledger
import Outreach.Proofs.Delivery.Faults
import Outreach.Proofs.Delivery.Accounting
import Outreach.Proofs.Campaign.Book
import Outreach.Proofs.Delivery.Naming
import Outreach.Proofs.Delivery.Recipients
import Outreach.Proofs.Delivery.Standing
import Outreach.Proofs.Delivery.Coverage
import Outreach.Proofs.Desk.Operations
import Outreach.Proofs.Desk.Order
import Outreach.Proofs.Desk.Reach
import Outreach.Proofs.Delivery.Clock
import Outreach.Proofs.Desk.Errands
import Outreach.Proofs.Delivery.Progress
import Outreach.Proofs.Delivery.Cancellation
import Outreach.Proofs.Decimal
import Outreach.Proofs.Segment.DayCount
import Outreach.Proofs.Segment.Comparison
import Outreach.Proofs.Segment.Meaning
import Outreach.Proofs.Delivery.Counters
import Outreach.Proofs.Desk.Statistics
import Outreach.Proofs.Delivery.Timetable
import Outreach.Proofs.Delivery.Firing
import Outreach.Proofs.Delivery.Recounts
import Outreach.Proofs.Desk.Recounts
import Outreach.Proofs.Instant
import Outreach.Proofs.Delivery.Delays
import Outreach.Proofs.Delivery.Timing
import Outreach.Proofs.Delivery.Workload
import Outreach.Proofs.Delivery.Punctuality
import Outreach.Proofs.Delivery.Separation
import Outreach.Proofs.Delivery.Certainty
import Outreach.Proofs.Delivery.Settlement
import Outreach.Proofs.Time.Calendar
import Outreach.Proofs.Time.WrittenForm
import Outreach.Proofs.Segment.Storage
import Outreach.Proofs.Desk.Requests
import Outreach.Proofs.Desk.Keeping
import Outreach.Proofs.Desk.Ownership
import Outreach.Proofs.Desk.Openings
import Outreach.Proofs.Desk.Lifecycle
import Outreach.Proofs.Desk.Deletion
import Outreach.Proofs.Desk.Waiting
import Outreach.Proofs.Delivery.Stream
import Outreach.Proofs.Delivery.Interleaving
import Outreach.Proofs.Delivery.Contention
import Outreach.Proofs.Delivery.Batching
import Outreach.Proofs.Directory.Queries
import Outreach.Proofs.WrittenForms
import Outreach.Proofs.Delivery.Bookkeeping
import Outreach.Proofs.Directory.Loading
import Outreach.Proofs.Delivery.Timeline
import Outreach.Proofs.Segment.Occurrence
import Outreach.Proofs.Directory.Labels
import Outreach.Proofs.Segment.Widening
import Outreach.Proofs.Segment.Algebra
import Outreach.Proofs.Segment.Uncounted
import Outreach.Proofs.Segment.Integers
import Outreach.Proofs.Desk.RuleChanges
import Outreach.Proofs.Segment.Scanning
import Outreach.Proofs.Delivery.Drafts
import Outreach.Proofs.Delivery.Draws
