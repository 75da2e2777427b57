import PairCell.Access.Admission
import PairCell.Access.Certificates
import PairCell.Bridge.Receipts
import PairCell.BrokerWrite.Classified
import PairCell.Calendar
import PairCell.Calibration.Conservative
import PairCell.Canonical.Identities
import PairCell.Canonical.Lots
import PairCell.Canonical.Plain
import PairCell.Compatibility.SideFree
import PairCell.Crash
import PairCell.Ends.Returns
import PairCell.Events.Paging
import PairCell.Foreign
import PairCell.Gate.Allowance
import PairCell.Gate.Box
import PairCell.Gate.Quiet
import PairCell.Gate.Risk
import PairCell.Gate.Session
import PairCell.Journal
import PairCell.Ledger.Accounts
import PairCell.Ledger.Unpair
import PairCell.Market.Batches
import PairCell.Market.Rediscovery
import PairCell.Market.Retention
import PairCell.OneAttempt
import PairCell.Orphans
import PairCell.Owned
import PairCell.Pricing.Budget
import PairCell.Pricing.Ranking
import PairCell.Quotes.Decisions
import PairCell.Reconciliation.Reproduces
import PairCell.Release.Markers
import PairCell.Rotation.Recovery
import PairCell.Route.Classes
import PairCell.Route.Finality
import PairCell.Route.Policy
import PairCell.Route.Probes
import PairCell.Route.Venture
import PairCell.Runtime.Adoption
import PairCell.Runtime.Realized
import PairCell.Scheduling.Expiry
import PairCell.Scheduling.Outcomes
import PairCell.SendOnce
import PairCell.Session.Order
import PairCell.Session.Replies
import PairCell.Ticks
