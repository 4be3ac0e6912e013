import Loxep.Proofs.Convergence
import Loxep.Proofs.SweepCorrection
import Loxep.Proofs.SingleLive
import Loxep.Proofs.BalanceDrift
import Loxep.Proofs.AvailableToSell
import Loxep.Proofs.BalanceSheet
import Loxep.Proofs.LedgerGuarded
import Loxep.Proofs.RuleGuarded
import Loxep.Proofs.LockedBasis
import Loxep.Proofs.RuleVersions
import Loxep.Proofs.LocationTree
import Loxep.Proofs.PurchaseIngestion
import Loxep.Proofs.DriftResolution
import Loxep.Proofs.Publication
import Loxep.Proofs.PointedDns
import Loxep.Proofs.MailboxConvergence
import Loxep.Proofs.SyncFailures
import Loxep.Proofs.DeclaredIntent
import Loxep.Proofs.RetentionSweep
import Loxep.Proofs.MigrationRecovery
import Loxep.Proofs.FlatMerges
import Loxep.Proofs.EnteredOnce
import Loxep.Proofs.DerivedStatus
import Loxep.Proofs.ExtractedOnce
import Loxep.Proofs.AdminKept
import Loxep.Proofs.NothingLost
import Loxep.Proofs.SentOnce
import Loxep.Proofs.FairShares
import Loxep.Proofs.HealthHistory
import Loxep.Proofs.DefaultKept
import Loxep.Proofs.OperatorEdits
import Loxep.Proofs.AnnouncedChanges
import Loxep.Proofs.EntityDepth
import Loxep.Proofs.ReversalChains
import Loxep.Proofs.DraftPath
import Loxep.Proofs.PollReplay
import Loxep.Proofs.RestockPairs
import Loxep.Proofs.OpportunityRules
import Loxep.Proofs.WatchlistTurns
import Loxep.Proofs.SaleTotals
import Loxep.Proofs.BilledUnits
import Loxep.Proofs.UnbilledTotals
import Loxep.Proofs.ConsumedCost
import Loxep.Proofs.UnchangedOrders
import Loxep.Proofs.HostIdentity
import Loxep.Proofs.TemplateReferences
import Loxep.Proofs.RecordsKept
import Loxep.Proofs.DegradedPolicy
import Loxep.Proofs.BudgetWindows
import Loxep.Proofs.AliasRetirement
import Loxep.Proofs.SearchedPrefix
import Loxep.Proofs.CodeRetries
import Loxep.Proofs.CsvRoundTrip
import Loxep.Proofs.CsvRowsStaged
import Loxep.Proofs.PollClaims
