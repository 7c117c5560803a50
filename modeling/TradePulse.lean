import TradePulse.Settlement.PendingHolds
import TradePulse.Settlement.ConservationRuns
import TradePulse.Monitor.LotFolds
import TradePulse.Settlement.ConvergenceRuns
import TradePulse.Reconciliation.Disputes
import TradePulse.Execution.AppliedOnce
import TradePulse.Control.Latches
import TradePulse.Execution.Inventory
import TradePulse.Reconciliation.Persisting
import TradePulse.Reconciliation.LiveReplay
import TradePulse.Quarantine.Recognition
import TradePulse.Reconciliation.StableMembership
import TradePulse.Quarantine.Population
import TradePulse.Monitor.LotWriters
import TradePulse.Persistence.RoundTrip
import TradePulse.Reconciliation.EpochCoverage
import TradePulse.Settlement.BadEvents
import TradePulse.Reconciliation.CashClassifiers
import TradePulse.Adoption.ExactlyOnce
import TradePulse.Execution.StrandedOrders
import TradePulse.Reconciliation.Reversals
import TradePulse.Reconciliation.ReplayConsistency
import TradePulse.Broker.OpenOrders
import TradePulse.Reconciliation.ActivityPages
import TradePulse.Execution.HoldingSector
import TradePulse.Monitor.Ladder
import TradePulse.Reconciliation.DividendDecision
import TradePulse.Execution.Finalising
import TradePulse.Persistence.Timestamps
import TradePulse.Runtime.AccountLease
import TradePulse.Dbae.SessionBands
import TradePulse.Calendar.EntryWindow
