import BlinkLnurl.Lib.Table
import BlinkLnurl.Lib.Prog
import BlinkLnurl.Lib.Outline
import BlinkLnurl.Lib.RustStr
import BlinkLnurl.Lib.Text
import BlinkLnurl.Repository.Types
import BlinkLnurl.Repository.Accounts
import BlinkLnurl.Repository.AccountEffects
import BlinkLnurl.Repository.AccountOps
import BlinkLnurl.Repository.AccountInvariant
import BlinkLnurl.Identifier
import BlinkLnurl.Server.Crates
import BlinkLnurl.Server.SignedMessage
import BlinkLnurl.Repository.Payments
import BlinkLnurl.Server.Calls
import BlinkLnurl.Server.Requests
import BlinkLnurl.Server.AccountRoutes
import BlinkLnurl.Server.Settlement
import BlinkLnurl.Server.PaymentRoutes
import BlinkLnurl.Server.ZapRoutes
import BlinkLnurl.Server.Effects
import BlinkLnurl.Server.Server
import BlinkLnurl.Server.Footprints
import BlinkLnurl.Server.Ownership
import BlinkLnurl.Server.Deployment
import BlinkLnurl.Server.Addresses
import BlinkLnurl.Server.AccountContract
import BlinkLnurl.Server.SingleUse
import BlinkLnurl.Repository.PaymentEffects
import BlinkLnurl.Lib.Answers
import BlinkLnurl.Server.Backends
import BlinkLnurl.Server.Discovery
import BlinkLnurl.Server.PaymentContract
import BlinkLnurl.Repository.ModeEffects
import BlinkLnurl.Server.ModeEvents
import BlinkLnurl.Server.ModeMachine
import BlinkLnurl.Server.ModeContract
import BlinkLnurl.Server.Modes
import BlinkLnurl.Server.ModeAnswers
import BlinkLnurl.Server.Transfers
import BlinkLnurl.Server.Amounts
import BlinkLnurl.Repository.Metadata
import BlinkLnurl.Server.Owners
import BlinkLnurl.Server.Isolation
import BlinkLnurl.Lib.Trace
import BlinkLnurl.Repository.Deliveries
import BlinkLnurl.Repository.DeliveryEffects
import BlinkLnurl.Repository.WebhookQueue
import BlinkLnurl.Repository.OutcomeReports
import BlinkLnurl.Server.Notifications
import BlinkLnurl.Server.Alone
import BlinkLnurl.Server.Notified
import BlinkLnurl.Server.ZapRequests
import BlinkLnurl.Lib.AsciiCase
import BlinkLnurl.Usernames
import BlinkLnurl.Lib.FixedWindow
import BlinkLnurl.RateLimit
import BlinkLnurl.Server.RouteSeparation
import BlinkLnurl.Lib.Paging
import BlinkLnurl.Repository.MetadataSync
import BlinkLnurl.Lib.RunOn
import BlinkLnurl.Server.BatchSettlement
import BlinkLnurl.Server.InvoiceExpiry
import BlinkLnurl.Server.SoundSettlement
import BlinkLnurl.Server.PermanentSettlement
import BlinkLnurl.Server.ReceiptQueue
import BlinkLnurl.Server.ZapWriters
import BlinkLnurl.Server.SingleReceipt
import BlinkLnurl.Server.PaidReceipts
import BlinkLnurl.Server.WebhookTruth
import BlinkLnurl.Lib.Names
import BlinkLnurl.Repository.AddressBook
import BlinkLnurl.Server.AddressRuns
import BlinkLnurl.Lib.Ends
import BlinkLnurl.Server.HandedOut
import BlinkLnurl.Repository.PendingReceipts
import BlinkLnurl.Server.PendingQueue
import BlinkLnurl.Lib.Stretch
import BlinkLnurl.Server.ReceiptLeases
import BlinkLnurl.Lib.Versions
import BlinkLnurl.Postgres.Statements
import BlinkLnurl.Postgres.Transactions
import BlinkLnurl.Postgres.Effects
import BlinkLnurl.Postgres.Clearing
import BlinkLnurl.Postgres.Usernames
