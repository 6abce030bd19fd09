import Aavishield.Agent.Revocation
import Aavishield.Agent.RulesCache
import Aavishield.Agent.SystemProxyDecisions
import Aavishield.Auth.Enrolment
import Aavishield.Auth.Guesses
import Aavishield.Auth.PasswordChanges
import Aavishield.Auth.SpentOnce
import Aavishield.Billing.Payments
import Aavishield.Dataplane.EventStores
import Aavishield.Dataplane.ManagerConnections
import Aavishield.Dataplane.ManagerFreshness
import Aavishield.Dataplane.RecordFolding
import Aavishield.Dataplane.SpoolDelivery
import Aavishield.Dataplane.MoverImages
import Aavishield.Dataplane.MoverLosses
import Aavishield.Policy.Isolation
import Aavishield.Policy.LearnedBypass
import Aavishield.Policy.BlockBeatsAlert
import Aavishield.Residency.Secrets
import Aavishield.Tickets.Coherence
import Aavishield.Tickets.EmailedReplies
import Aavishield.Monitoring.Tenancy
import Aavishield.Enforcement.Causes
import Aavishield.Enforcement.Delivery
import Aavishield.Enforcement.Expiry
import Aavishield.Dlp.Silence
import Aavishield.Downloads.Malicious
import Aavishield.Downloads.TransferRuns
import Aavishield.Auth.LastAdmin
import Aavishield.Keys.Rotation
import Aavishield.Policy.RevokedGrants
import Aavishield.Residency.NetGuard
import Aavishield.Auth.ProvenAddresses
import Aavishield.Dlp.VerdictCache
import Aavishield.Compliance.Erasure
import Aavishield.Employees.Newcomers
import Aavishield.Live.HubRuns
import Aavishield.Policy.FeedRuns
import Aavishield.Dataplane.EventPages
import Aavishield.Dlp.FoundNumbers
import Aavishield.Dlp.ScanOrder
import Aavishield.Dlp.WindowCoverage
import Aavishield.Dlp.ExtractionLimits
import Aavishield.Dlp.Runs
import Aavishield.Dlp.MarkupRuns
import Aavishield.Agent.Upstream
import Aavishield.Agent.PinnedHosts
import Aavishield.Dlp.ModelReplies
import Aavishield.Dataplane.DedupeKeys
import Aavishield.Downloads.HeldBack
import Aavishield.Auth.Lockout
import Aavishield.Dlp.RtfWriting
import Aavishield.Dlp.PlumbingBodies
import Aavishield.Monitoring.Days
import Aavishield.Policy.RiskRuns
import Aavishield.Monitoring.LiveSessions
import Aavishield.Policy.CategoryEdits
import Aavishield.Policy.SavedPolicies
import Aavishield.Inventory.Controls
import Aavishield.Storage.SignedRequests
import Aavishield.Agent.PackageRuns
import Aavishield.Enforcement.AppWatcherRuns
import Aavishield.Downloads.SignatureSearch
import Aavishield.Schedule.Resolution
