import Sorobill.Charging.Confirmation
import Sorobill.Charging.FailedOutcomes
import Sorobill.Charging.InAdvance
import Sorobill.Charging.LostCharges
import Sorobill.Charging.Orphans
import Sorobill.Charging.OtherPayments
import Sorobill.Charging.Overlaps
import Sorobill.Charging.RetriedPayment
import Sorobill.Charging.Retryable
import Sorobill.Charging.Tiling
import Sorobill.Concurrency.Announcing
import Sorobill.Concurrency.Cancellation
import Sorobill.Concurrency.Delivered
import Sorobill.Concurrency.DoubleCharge
import Sorobill.Concurrency.Expiry
import Sorobill.Concurrency.Finality
import Sorobill.Concurrency.PaymentRows
import Sorobill.Concurrency.PeriodOrder
import Sorobill.Concurrency.Stranding
import Sorobill.Dates.Anchors
import Sorobill.Dates.Hosts
import Sorobill.Dates.Months
import Sorobill.Dates.Range
import Sorobill.Endpoints.Revenue
import Sorobill.Endpoints.Sums
import Sorobill.Endpoints.Verification
import Sorobill.Indexing.Idempotency
import Sorobill.Indexing.KnownTypes
import Sorobill.Indexing.Mirror
import Sorobill.Indexing.Polling
import Sorobill.Indexing.Progress
import Sorobill.Library.Calendar
import Sorobill.Library.Composition
import Sorobill.Library.Contract
import Sorobill.Library.Decimal
import Sorobill.Library.Evolution
import Sorobill.Library.Feed
import Sorobill.Library.Grouping
import Sorobill.Library.Growth
import Sorobill.Library.History
import Sorobill.Library.Interruption
import Sorobill.Library.JobQueue
import Sorobill.Library.JsValue
import Sorobill.Library.Loop
import Sorobill.Library.Numeral
import Sorobill.Library.Pool
import Sorobill.Library.Program
import Sorobill.Library.Regex
import Sorobill.Library.Table
import Sorobill.Library.Tickets
import Sorobill.Library.Timeline
import Sorobill.Library.Upserts
import Sorobill.Library.Utf16
import Sorobill.Lifecycle.Cancelling
import Sorobill.Lifecycle.FailedRequests
import Sorobill.Lifecycle.Grace
import Sorobill.Lifecycle.Pausing
import Sorobill.Lifecycle.PeriodEnd
import Sorobill.Lifecycle.Prolonging
import Sorobill.Lifecycle.TrialEnds
import Sorobill.Lifecycle.Trials
import Sorobill.Lifecycle.Webhooks
import Sorobill.Model.Amounts
import Sorobill.Model.Dates
import Sorobill.Model.Deliveries
import Sorobill.Model.Indexer
import Sorobill.Model.Merchants
import Sorobill.Model.Operations
import Sorobill.Model.Plans
import Sorobill.Model.Schema
import Sorobill.Model.Server
import Sorobill.Model.Services
import Sorobill.Model.Shop
import Sorobill.Model.Signatures
import Sorobill.Model.World
import Sorobill.Rules.Announcements
import Sorobill.Rules.Attachments
import Sorobill.Rules.Bookings
import Sorobill.Rules.Charges
import Sorobill.Rules.Custody
import Sorobill.Rules.Cycles
import Sorobill.Rules.Deliveries
import Sorobill.Rules.Failures
import Sorobill.Rules.Footprints
import Sorobill.Rules.Hindrances
import Sorobill.Rules.Outcomes
import Sorobill.Rules.Periods
import Sorobill.Rules.Polls
import Sorobill.Rules.Rejections
import Sorobill.Rules.Requests
import Sorobill.Rules.Serving
import Sorobill.Rules.Settling
import Sorobill.Rules.Sweeps
import Sorobill.Rules.Ticks
import Sorobill.Scheduling.Backoff
import Sorobill.Scheduling.Retries
import Sorobill.Scheduling.Starvation
import Sorobill.System.Attempts
import Sorobill.System.Attribution
import Sorobill.System.Authority
import Sorobill.System.Cycles
import Sorobill.System.Dashboards
import Sorobill.System.Deliveries
import Sorobill.System.Emissions
import Sorobill.System.Executions
import Sorobill.System.Handlers
import Sorobill.System.Integrity
import Sorobill.System.Isolation
import Sorobill.System.Laws
import Sorobill.System.Messages
import Sorobill.System.Payments
import Sorobill.System.Records
import Sorobill.System.Renewals
import Sorobill.System.Steps
import Sorobill.System.Turns
import Sorobill.System.Validity
