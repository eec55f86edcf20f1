import KeenPbr.TransactionSafety
import KeenPbr.NfqwsShell
import KeenPbr.RoutingAccepted
import KeenPbr.RuleStates
import KeenPbr.PolicyConvergence
import KeenPbr.RouteConvergence
import KeenPbr.DependencyPreview
import KeenPbr.MutationAdmission
import KeenPbr.DnsCache
import KeenPbr.IdleStallHistory
import KeenPbr.ComponentPromotion
import KeenPbr.FwmarkWritten
import KeenPbr.SrsSoundness
import KeenPbr.RetryCoordinatorLaws
import KeenPbr.UrltestAcyclic
import KeenPbr.SelectedInterface
import KeenPbr.PortTexts
import KeenPbr.Cron
import KeenPbr.AffectedUrltests
import KeenPbr.HalfOpenRuns
import KeenPbr.UrltestSelection
import KeenPbr.DumpFraming
import KeenPbr.ExactIdentity
import KeenPbr.ResolverSync
import KeenPbr.CallAffinityRate
import KeenPbr.DnsmasqBatches
import KeenPbr.RuleRetirement
import KeenPbr.RotatorSnapshot
import KeenPbr.DnsProbe
import KeenPbr.ListSourceAgain
import KeenPbr.NfqwsContract
import KeenPbr.FetchPolicy
import KeenPbr.SrsUtf8
import KeenPbr.SrsVarint
import KeenPbr.SrsBudgets
import KeenPbr.ProfileLists
import KeenPbr.LifecycleOperation
import KeenPbr.TunAddresses
import KeenPbr.OwnershipRoundTrip
import KeenPbr.SubscriptionRefresh
import KeenPbr.ConntrackCleanup
