import PaymentsProcessor.Shared.RoundTrip
import PaymentsProcessor.Bank.BreakerHistory
import PaymentsProcessor.Bank.ConfigSync
import PaymentsProcessor.Bank.Overlap
import PaymentsProcessor.Ledger.Announcements
import PaymentsProcessor.Ledger.Budget
import PaymentsProcessor.Ledger.Published
import PaymentsProcessor.Ledger.RetryIds
import PaymentsProcessor.Ledger.RetryLoop
import PaymentsProcessor.Outbox.Partitions
import PaymentsProcessor.Outbox.Retention
import PaymentsProcessor.Outbox.Maintenance
import PaymentsProcessor.Payments.Idempotency
import PaymentsProcessor.Payments.Validation
import PaymentsProcessor.Pipeline.Claims
import PaymentsProcessor.Pipeline.Fencing
import PaymentsProcessor.Pipeline.Charges
import PaymentsProcessor.Pipeline.Failures
import PaymentsProcessor.Pipeline.Breaker
import PaymentsProcessor.Pipeline.Redrive
import PaymentsProcessor.Pipeline.Publishing
import PaymentsProcessor.Pipeline.Correlation
import PaymentsProcessor.Webhooks.Attempts
import PaymentsProcessor.Webhooks.Reaping
import PaymentsProcessor.Webhooks.Backoff
import PaymentsProcessor.Webhooks.Fanout
import PaymentsProcessor.Webhooks.RetryLoop
import PaymentsProcessor.Payments.Listing
import PaymentsProcessor.Ledger.Pending
import PaymentsProcessor.Ledger.Reads
import PaymentsProcessor.Ledger.Quiescence
import PaymentsProcessor.Service.Notifications
import PaymentsProcessor.Webhooks.Rows
import PaymentsProcessor.Webhooks.Dispatch
import PaymentsProcessor.Service.EndToEnd
import PaymentsProcessor.Web.SubmitOnce
