import Pwos.Lib.Tx
import Pwos.Lib.First
import Pwos.Lib.Digits
import Pwos.Lib.NumberText
import Pwos.Lib.History
import Pwos.Lib.Interleaving
import Pwos.Lib.Leads
import Pwos.Domain.Decimal
import Pwos.Domain.DecimalText
import Pwos.Domain.LiteralText
import Pwos.Domain.Accounting
import Pwos.Domain.Fifo
import Pwos.Domain.FifoOrder
import Pwos.Domain.Calendar
import Pwos.Domain.MonthSteps
import Pwos.Domain.Recurrence
import Pwos.Db.Schema
import Pwos.Fx.UnitPrice
import Pwos.Accounts.SystemAccounts
import Pwos.Ledger.PostEntry
import Pwos.Ledger.ReverseEntry
import Pwos.Ledger.Recorded
import Pwos.Ledger.Invariant
import Pwos.Ledger.Statements
import Pwos.Lib.Sums
import Pwos.Lib.Backfill
import Pwos.Ledger.Journal
import Pwos.Integrity.Audit
import Pwos.Ledger.Overdraft
import Pwos.Ledger.Commands
import Pwos.Ledger.CommandRuns
import Pwos.Portfolio.Dca
import Pwos.Ledger.Replay
import Pwos.Ledger.Undo
import Pwos.Planning.Obligations
import Pwos.Planning.PayInstallment
import Pwos.Planning.Payments
import Pwos.Planning.Balance
import Pwos.Planning.Settlements
import Pwos.Planning.CreateDebt
import Pwos.Planning.Schedules
import Pwos.Planning.DueDates
import Pwos.Planning.LastRows
import Pwos.Planning.Cheques
import Pwos.Actions.CreateTransaction
import Pwos.Actions.FormEntries
import Pwos.Planning.SettlementRaces
import Pwos.Actions.FormRuns
import Pwos.Actions.CashLegs
import Pwos.Planning.LinkedRuns
import Pwos.Portfolio.Report
import Pwos.Planning.DepositEffects
import Pwos.Planning.Deposits
import Pwos.Planning.DepositRuns
import Pwos.Planning.Forecast
import Pwos.Planning.ForecastMonths
import Pwos.Domain.Rounding
import Pwos.Portfolio.HistoricalCost
import Pwos.Planning.ReminderRaces
import Pwos.Portfolio.SoldOut
import Pwos.Lib.Process
import Pwos.Planning.Contributions
import Pwos.Rwa.UsdRate
import Pwos.Rwa.Valuation
import Pwos.Reconcile.Checkpoints
import Pwos.Reconcile.Runs
import Pwos.Accounts.DeleteAccount
import Pwos.Accounts.LiveAccounts
import Pwos.Actions.PostTransaction
import Pwos.Actions.AmountText
import Pwos.Actions.NativeEntries
import Pwos.Lib.Serial
import Pwos.Planning.Insurance
import Pwos.Planning.PremiumChain
import Pwos.Planning.Policies
import Pwos.Planning.PolicyRuns
import Pwos.Ledger.Among
import Pwos.Ledger.CanonicalText
import Pwos.Search.SearchText
import Pwos.Ledger.KeyRaces
import Pwos.Planning.ExecutePlanned
import Pwos.Ledger.RegistryDisposal
import Pwos.Rwa.Sale
import Pwos.Rwa.SoldOnce
import Pwos.Rwa.SaleAmounts
import Pwos.Rwa.DueDates
import Pwos.Rwa.MarketGrowth
import Pwos.Rwa.Purchase
import Pwos.Rwa.Bought
import Pwos.Rwa.ClosedPosition
import Pwos.Rwa.FirstValuation
import Pwos.Tenancy.TenantState
import Pwos.Lib.OrderedMap
import Pwos.Lib.Precedence
import Pwos.Tenancy.RateLimit
import Pwos.Pricing.CurrentPrices
import Pwos.Pricing.ReferenceQuotes
import Pwos.Pricing.SessionInstant
import Pwos.Pricing.SharedLease
import Pwos.Tags.Normalize
import Pwos.Tags.AssetTags
import Pwos.Planning.TomanMigration
import Pwos.Planning.VoidEvidence
import Pwos.Trading.Marks
import Pwos.Trading.Views
import Pwos.Ledger.Beside
import Pwos.Trading.Overlap
import Pwos.Domain.Months
import Pwos.Domain.MonthBuckets
import Pwos.Rwa.OrphanFilter
import Pwos.Ledger.Spending
import Pwos.Ledger.SpendingReports
import Pwos.Lib.Triple
import Pwos.Ledger.Balances
import Pwos.Rwa.HiddenEntries
import Pwos.Rwa.RegistryNumbers
import Pwos.Lib.LikePattern
import Pwos.Tags.Spelling
import Pwos.Planning.LineTags
import Pwos.Tags.TagSummary
import Pwos.Lib.Calls
import Pwos.Lib.CodeUnits
import Pwos.Portfolio.Snapshots
import Pwos.Lib.Upsert
import Pwos.Lib.UtcDate
import Pwos.Portfolio.SnapshotTables
import Pwos.Portfolio.SnapshotRuns
import Pwos.Setup.Opening
import Pwos.Setup.CompleteSetup
import Pwos.Setup.OpeningRows
import Pwos.Setup.OpeningChart
import Pwos.Setup.OpeningLines
import Pwos.Setup.OpeningInstruments
import Pwos.Setup.SetupGrows
import Pwos.Setup.OpeningEntry
import Pwos.Setup.SetupRaces
import Pwos.Backup.Tables
import Pwos.Fx.Rates
import Pwos.Lib.Drawdown
import Pwos.Analytics.Risk
import Pwos.Analytics.Attribution
import Pwos.Analytics.CapitalFlows
import Pwos.Security.FieldEncryption
import Pwos.Domain.Days
import Pwos.Lib.BinarySearch
import Pwos.Fx.HistoricalRates
import Pwos.Rwa.RateOfDate
import Pwos.Analytics.InflationIndex
import Pwos.Analytics.PriceCatalog
import Pwos.Lib.Annuity
import Pwos.Planning.LoanEstimate
import Pwos.Lib.Grouping
import Pwos.Ledger.MonthlyReport
import Pwos.Pricing.GoldCurrency
import Pwos.Lib.Matching
import Pwos.BankImport.Message
import Pwos.BankImport.Clauses
import Pwos.BankImport.Appended
import Pwos.Lib.JsonSyntax
import Pwos.Lib.JsonReader
import Pwos.Pricing.KeepingDigits
import Pwos.Pricing.KeptDigits
import Pwos.Domain.NumberToWords
import Pwos.Domain.NumericInput
import Pwos.BankImport.Csv
import Pwos.Actions.FxLegs
import Pwos.Portfolio.StablecoinCost
import Pwos.Planning.MonthSchedule
import Pwos.Lib.Fenced
import Pwos.Lib.Within
import Pwos.Setup.Workflow
import Pwos.Setup.Registered
import Pwos.Setup.Receipts
import Pwos.Setup.WorkflowRuns
import Pwos.BankImport.Inbox
import Pwos.BankImport.InboxRuns
import Pwos.Security.Sessions
import Pwos.Pricing.QuoteCache
import Pwos.Pricing.ResolveQuotes
